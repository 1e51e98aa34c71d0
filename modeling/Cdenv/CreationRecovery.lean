import Cdenv.WorkspaceCreation

/-!
# Failed creations of workspaces

Every call on the file system may fail, before or after it has made something, and a write
at any of its stages. Git and the credential binding may do anything to the files and come to
any result, and the user may cancel at any time.

A creation that fails before Git has succeeded leaves the paths of its workspace as they were
before it. One that fails later removes nothing and leaves a state file that can be loaded and
says what was under way and what went wrong.

The temporary of a write is not in the tree. Where it stays behind, the directory above it
cannot be removed.
-/
namespace Cdenv.WorkspaceCreation
open TextScan Identity WorkspaceRecord StateFile Interaction Program List

/-- The files, and which paths were to be removed, whether a removal has failed or was refused,
and whether the last write has failed. -/
structure World where
  tree : Tree
  clock : ℕ
  /-- Git has reported success. -/
  cloned : Bool
  removed : List Path
  troubled : Bool
  unwritten : Bool
  /-- The files as Git or the credential binding left them. -/
  handed : Tree

def World.before (tree : Tree) : World where
  tree
  clock := 0
  cloned := false
  removed := []
  troubled := false
  unwritten := false
  handed := tree

/-- What happens around one question. -/
structure Moment where
  failure : Option Text
  /-- A failure after something was made, when its mode is set. -/
  lateFailure : Option Text
  writeFailure : Option AtomicWriteStage
  gone : List Path
  cancelled : Bool
  /-- What Git or the credential binding comes to, and what it does to the files. -/
  outcome : Except Text Unit
  outsider : Tree → Tree
  validated : Except Text DesiredConfigPath

def reported : Option Text → Except Text Unit
  | none => .ok ()
  | some source => .error source

def noSuchFile : Text := "No such file or directory (os error 2)"

def notEmpty : Text := "Directory not empty (os error 39)"

def wrongKind : Text := "managed path has the wrong file kind"

def ensured (node : FileNode Content) (path : Path) (tree : Tree) : Except Text Tree :=
  match tree.node path, node with
  | none, _ => Fallible.orFail (tree.create path node) noSuchFile
  | some .directory, .directory => .ok tree
  | some (.file _), .file _ => .ok tree
  | some _, _ => .error wrongKind

namespace Moment
variable (m : Moment)

def ensure (node : FileNode Content) (path : Path) (tree : Tree) : Except Text Unit × Tree :=
  match m.failure, ensured node path tree with
  | some source, _ => (.error source, tree)
  | none, .error source => (.error source, tree)
  | none, .ok made => (reported m.lateFailure, made)

def inspect (path : Path) (tree : Tree) : Except Text ManagedPathState :=
  match m.failure, tree.node path with
  | some source, _ => .error source
  | none, none => .ok .missing
  | none, some .directory => .ok .valid
  | none, some _ => .error wrongKind

def createDirectory (path : Path) (tree : Tree) : Except CreateFailure Unit × Tree :=
  match m.failure, tree.node path, tree.create path .directory with
  | some source, _, _ => (.error (.io source), tree)
  | none, some _, _ => (.error .alreadyExists, tree)
  | none, none, none => (.error (.io noSuchFile), tree)
  | none, none, some made => (.ok (), made)

def perform (action : RemovalAction) (path : Path) (tree : Tree) : Except Text Unit × Tree :=
  match action, m.failure, tree.remove path with
  | .removeDirAll, none, _ => (.ok (), tree.removeTree path)
  | .removeDirAll, some source, _ =>
    (.error source, (m.gone.filter path.isPrefixOf).foldl FileTree.removeTree tree)
  | _, some source, _ => (.error source, tree)
  | _, none, none => (.error notEmpty, tree)
  | _, none, some rest => (.ok (), rest)

def remove (removal : Removal) (path : Path) (tree : Tree) : Except Text Unit × Tree :=
  match tree.node path with
  | none => (reported m.failure, tree)
  | some node =>
    match removal.action node with
    | .error refused => (.error refused, tree)
    | .ok action => m.perform action path tree

def persist (path : Path) (state : NewWorkspaceState) (tree : Tree) :
    Except AtomicWriteStage Unit × Tree :=
  match tree.write path (.state (encode state)) with
  | none => (.error .inspect, tree)
  | some written =>
    ((atomicWrite tree written m.writeFailure).2, (atomicWrite tree written m.writeFailure).1)

def answer : (q : CreateCall) → World → CreateAnswer q × World
  | .ensurePrivateDirectory path, w =>
    ((m.ensure .directory path w.tree).1, { w with tree := (m.ensure .directory path w.tree).2 })
  | .ensureLockFile path, w =>
    ((m.ensure (.file (.bytes [])) path w.tree).1,
      { w with tree := (m.ensure (.file (.bytes [])) path w.tree).2 })
  | .acquire _, w => (reported m.failure, w)
  | .inspectDirectory path, w => (m.inspect path w.tree, w)
  | .createDirectory path, w =>
    ((m.createDirectory path w.tree).1, { w with tree := (m.createDirectory path w.tree).2 })
  | .remove removal path, w =>
    ((m.remove removal path w.tree).1,
      { w with
        tree := (m.remove removal path w.tree).2
        removed := w.removed++[path]
        troubled := w.troubled || !(m.remove removal path w.tree).1.isOk })
  | .persistWorkspaceState path state, w =>
    ((m.persist path state w.tree).1,
      { w with
        tree := (m.persist path state w.tree).2
        unwritten := !(m.persist path state w.tree).1.isOk })
  | .cloneRepository _ _, w =>
    (m.outcome,
      { w with
        tree := m.outsider w.tree
        handed := m.outsider w.tree
        cloned := m.outcome.isOk })
  | .bindCreatedWorkspace _ _, w =>
    (m.outcome, { w with tree := m.outsider w.tree, handed := m.outsider w.tree })
  | .isCancelled, w => (m.cancelled, w)
  | .validateExplicitConfig _ _, w => (m.validated, w)

end Moment

abbrev Course := ℕ → Moment

def World.tick (w : World) : World := { w with clock := w.clock+1 }

def server (course : Course) : Server World CreateAnswer := fun q w =>
  (some ((course w.clock).answer q w.tick).1, ((course w.clock).answer q w.tick).2)

section
variable (paths : WorkspacePaths)

/-- Only what is new was to be removed and, unless a removal has failed, the paths of the
workspace are as before. -/
def Undone (before : Tree) (after : World) : Prop :=
  (∀ p ∈ after.removed, paths.root <+: p ∧ before.node p = none) ∧
    (after.troubled = false → ∀ p, paths.root <+: p → after.tree.node p = before.node p)

/-- Nothing was to be removed, the checkout is as Git and the credential binding left it and,
unless the last write has failed, the state can be loaded and says what has happened. -/
def Retained (print : Text → Option Text) (after : World) : Prop :=
  after.removed = [] ∧ (∀ p, paths.checkout <+: p → after.tree.node p = after.handed.node p) ∧
    (after.unwritten = false → ∃ state,
      loadWorkspaceState print after.tree paths.stateFile = .ok state ∧
        state.operation.kind = .creating ∧ state.lastError.isSome)

end

section
variable {m : Moment} {tree : Tree} {path p : Path} {n : FileNode Content}

theorem node_ensure (hp : p ≠ path) : (m.ensure n path tree).2.node p = tree.node p := by
  have he : ∀ made, ensured n path tree = .ok made → made.node p = tree.node p := by
    intro made hm
    unfold ensured at hm
    split at hm
    · obtain hc := Fallible.orFail_eq_ok.mp hm
      rw [FileTree.node_create hc,if_neg hp.symm]
    · cases hm
      rfl
    · cases hm
      rfl
    · cases hm
  unfold Moment.ensure
  split
  · rfl
  · rfl
  · next made _ hm => exact he made hm

/-- A directory is made only where nothing was. -/
theorem createDirectory_cases : (∃ e, m.createDirectory path tree = (.error e, tree)) ∨
      tree.node path = none ∧ (m.createDirectory path tree).1 = .ok () := by
  unfold Moment.createDirectory
  split
  · exact .inl ⟨_,rfl⟩
  · exact .inl ⟨_,rfl⟩
  · exact .inl ⟨_,rfl⟩
  · next hn _ => exact .inr ⟨hn,rfl⟩

theorem node_remove_of_ok {removal : Removal} (h : (m.remove removal path tree).1 = .ok ()) :
    (m.remove removal path tree).2.node path = none := by
  have hp : ∀ action, (m.perform action path tree).1 = .ok () →
      (m.perform action path tree).2.node path = none := by
    intro action ha
    unfold Moment.perform at ha ⊢
    split at ha
    · exact FileTree.node_removeTree prefix_rfl
    · cases ha
    · cases ha
    · cases ha
    · next hr => rw [FileTree.node_remove hr,if_pos rfl]
  unfold Moment.remove at h ⊢
  split at h
  · assumption
  · split at h
    · cases h
    · exact hp _ h

variable {s : NewWorkspaceState}

theorem node_persist_of_ne (hp : p ≠ path) : (m.persist path s tree).2.node p = tree.node p := by
  unfold Moment.persist
  split
  · rfl
  · next wr hwr =>
    rw [AtomicWrite.atomicWrite_fst]
    split_ifs
    · rw [FileTree.node_write hwr,if_neg hp.symm]
    · rfl

theorem node_persist_of_ok (h : (m.persist path s tree).1 = .ok ()) :
    (m.persist path s tree).2.node path = some (.file (.state (encode s))) := by
  unfold Moment.persist at h ⊢
  split at h
  · cases h
  · next wr hwr =>
    have hn := AtomicWrite.atomicWrite_snd_eq_ok.mp h
    rw [AtomicWrite.atomicWrite_fst,hn,AtomicWrite.takesEffect,if_pos rfl,
      FileTree.node_write hwr,if_pos rfl]

end

abbrev Ends {ε α : Type} (course : Course) (I : α → World → Prop) (F : ε → World → Prop)
    (m : Creation ε α) (w : World) : Prop :=
  Serves (server course) (fun _ => False) I F m w

abbrev after (course : Course) (q : CreateCall) (w : World) : World :=
  ((course w.clock).answer q w.tick).2

theorem ends_call {c : Course} {w : World} {ε : Type} (q : CreateCall)
    {I : CreateAnswer q → World → Prop} {F : ε → World → Prop}
    (h : I ((c w.clock).answer q w.tick).1 (after c q w)) :
    Ends c I F (call q) w := h

structure Clean (w : World) : Prop where
  uncloned : w.cloned = false
  unremoved : w.removed = []

/-- Whatever was to be removed belongs to the workspace. -/
structure Bounded (paths : WorkspacePaths) (w : World) : Prop where
  uncloned : w.cloned = false
  inside : ∀ p ∈ w.removed, paths.root <+: p

structure Reclaimed (paths : WorkspacePaths) (w : World) : Prop extends Bounded paths w where
  gone : w.troubled = true ∨ w.tree.node paths.root = none

/-- The reservation owns the root of the workspace, which it removes last. -/
def Owns (paths : WorkspacePaths) (owned : List Path) : Prop :=
  ∃ rest, owned = paths.root::rest ∧ ∀ p ∈ rest, paths.root <+: p

section
variable {c : Course} {ps : WorkspacePaths} {bef : Tree} {w : World}
variable {ε α : Type}

theorem Clean.bounded (hw : Clean w) : Bounded ps w where
  uncloned := hw.uncloned
  inside p hp := by
    rw [hw.unremoved] at hp
    cases hp

variable {owned : List Path} {path : Path} {s : NewWorkspaceState}

theorem Owns.concat (ho : Owns ps owned) (hpa : ps.root <+: path) : Owns ps (owned++[path]) := by
  obtain ⟨xs,rfl,hr⟩ := ho
  exact ⟨xs++[path],rfl,forall_mem_append.mpr ⟨hr,forall_mem_singleton.mpr hpa⟩⟩

theorem ends_remove {removal : Removal} {e : Text → ε} (hpa : ps.root <+: path)
    (hw : Bounded ps w) :
    Ends c (fun _ t => Bounded ps t ∧ t.tree.node path = none)
      (fun _ t => Bounded ps t ∧ t.troubled = true)
      (expect (call (CreateCall.remove removal path)) e) w := by
  have hb : Bounded ps (after c (.remove removal path) w) :=
    ⟨hw.uncloned,forall_mem_append.mpr ⟨hw.inside,forall_mem_singleton.mpr hpa⟩⟩
  refine serves_expect (ends_call (.remove removal path) ⟨?_,?_⟩)
  · intro _ hok
    exact ⟨hb,node_remove_of_ok hok⟩
  · intro source he
    refine ⟨hb,?_⟩
    have he : ((c w.clock).remove removal path w.tree).1 = .error source := he
    change (w.troubled || !((c w.clock).remove removal path w.tree).1.isOk) = true
    rw [he]
    exact Bool.or_true _

theorem ends_removeOwned (hpa : ps.root <+: path) (hw : Bounded ps w) :
    Ends c (fun _ t => Bounded ps t ∧ t.tree.node path = none) (fun _ => Reclaimed ps)
      (removeOwned path) w :=
  (ends_remove hpa hw).fails fun _ _ h => ⟨h.1,.inl h.2⟩

/-- The root is removed last: a removal before it fails, or everything is gone. -/
theorem ends_removeAll {ts : List Path} (ht : ∀ p ∈ ts, ps.root <+: p) (hw : Bounded ps w) :
    Ends c (fun _ => Reclaimed ps) (fun _ => Reclaimed ps)
      ((ts++[ps.root]).forM removeOwned) w := by
  induction ts generalizing w with
  | nil =>
    exact (ends_removeOwned prefix_rfl hw).bind fun _ _ h => ⟨h.1,.inr h.2⟩
  | cons p xs ih =>
    obtain ⟨hp,hr⟩ := forall_mem_cons.mp ht
    exact (ends_removeOwned hp hw).bind fun _ _ h => ih hr h.1

theorem ends_cleanup (ho : Owns ps owned) (hw : Bounded ps w) :
    Ends c (fun _ => Reclaimed ps) (fun _ => Reclaimed ps) (cleanup owned) w := by
  obtain ⟨xs,rfl,hr⟩ := ho
  unfold cleanup
  rw [reverse_cons]
  apply ends_removeAll _ hw
  intro p hp
  exact hr p (mem_reverse.mp hp)

variable {step : Creation ε α}

theorem ends_guarded {I : α → World → Prop} (ho : Owns ps owned)
    (hs : Ends c I (fun _ => Bounded ps) step w) :
    Ends c I (fun _ => Reclaimed ps) (guarded owned step) w := by
  unfold guarded
  rw [Ends,serves_bind,serves_attempt]
  refine hs.fails fun e t ht => ?_
  unfold dropReservation
  rw [serves_bind,serves_bind,serves_attempt]
  exact ends_cleanup ho ht

theorem clean_ensureDirectory (hw : Clean w) :
    Ends c (fun _ => Clean) (fun _ => Clean) (ensureDirectory path) w :=
  .expect (ends_call (.ensurePrivateDirectory path) ⟨hw.uncloned,hw.unremoved⟩)

theorem clean_ensureLock (hw : Clean w) :
    Ends c (fun _ => Clean) (fun _ => Clean) (ensureLock path) w :=
  .expect (ends_call (.ensureLockFile path) ⟨hw.uncloned,hw.unremoved⟩)

theorem ends_guarded_clean (ho : Owns ps owned)
    (hs : Ends c (fun _ => Clean) (fun _ => Clean) step w) :
    Ends c (fun _ => Clean) (fun _ => Reclaimed ps) (guarded owned step) w :=
  ends_guarded ho (hs.fails fun _ _ h => h.bounded)

theorem ends_createSkeleton (hw : Clean w) :
    Ends c (fun owned t => Owns ps owned ∧ Clean t) (fun _ => Reclaimed ps)
      (createSkeleton ps) w := by
  have hr : Owns ps [ps.root] := ⟨[],rfl,by simp⟩
  have hc : Owns ps (_++[ps.checkoutDir]) := hr.concat (prefix_append _ _)
  have hru : Owns ps (_++[ps.runtimeDir]) := hc.concat (prefix_append _ _)
  have hlo : Owns ps (_++[ps.logsDir]) := hru.concat (prefix_append _ _)
  have hl : Owns ps (_++[ps.lockFile]) := hlo.concat (prefix_append _ _)
  refine (ends_guarded_clean hr (clean_ensureDirectory hw)).bind fun _ t ht => ?_
  refine (ends_guarded_clean hc (clean_ensureDirectory ht)).bind fun _ t ht => ?_
  refine (ends_guarded_clean hru (clean_ensureDirectory ht)).bind fun _ t ht => ?_
  refine (ends_guarded_clean hlo (clean_ensureDirectory ht)).bind fun _ t ht => ?_
  exact (ends_guarded_clean hl (clean_ensureLock ht)).bind fun _ t ht => ⟨hl,ht⟩

structure Untouched (paths : WorkspacePaths) (before : Tree) (w : World) : Prop
    extends Clean w where
  same : ∀ p, paths.root <+: p → w.tree.node p = before.node p

section
variable (hpa : ¬ ps.root <+: path) (hw : Untouched ps bef w)
include hpa hw

theorem untouched_ensure {m : Moment} :
    Untouched ps bef { w.tick with tree := (m.ensure n path w.tree).2 } where
  uncloned := hw.uncloned
  unremoved := hw.unremoved
  same p hp := by
    have hne : p ≠ path := by
      rintro rfl
      exact hpa hp
    exact (node_ensure hne).trans (hw.same p hp)

theorem untouched_ensureDirectory :
    Ends c (fun _ => Untouched ps bef) (fun _ => Untouched ps bef) (ensureDirectory path) w :=
  .expect (ends_call (.ensurePrivateDirectory path) (untouched_ensure hpa hw))

theorem untouched_ensureLock : Ends c (fun _ => Untouched ps bef) (fun _ => Untouched ps bef)
      (ensureLock path) w :=
  .expect (ends_call (.ensureLockFile path) (untouched_ensure hpa hw))

end

theorem ends_createRoot (hw : Untouched ps bef w) :
    Ends c (fun _ t => Clean t ∧ bef.node ps.root = none)
      (fun _ => Untouched ps bef) (createRoot ps) w := by
  refine serves_expect (ends_call (.createDirectory ps.root) ?_)
  dsimp only [after,Moment.answer,World.tick]
  rcases createDirectory_cases with ⟨e,hf⟩ | ⟨hno,hok⟩
  · rw [hf]
    exact ⟨nofun,fun _ _ => ⟨⟨hw.uncloned,hw.unremoved⟩,hw.same⟩⟩
  · rw [hok]
    have hn := (hw.same _ prefix_rfl).symm.trans hno
    exact ⟨fun _ _ => ⟨⟨hw.uncloned,hw.unremoved⟩,hn⟩,nofun⟩

theorem ends_claimName (hw : Untouched ps bef w) :
    Ends c (fun _ t => Clean t ∧ bef.node ps.root = none)
      (fun _ => Untouched ps bef) (claimName ps) w := by
  have hs (p : Path) (h : p.length ≤ (workspacesDir ps.cdenvRoot).length) : ¬ ps.root <+: p := by
    intro hp
    have hl := hp.length_le
    rw [WorkspacePaths.root,length_append,length_singleton] at hl
    omega
  have hlo : ¬ ps.root <+: workspaceNamespaceLock ps.cdenvRoot := by
    intro hp
    have hn := prefix_append_right_inj _ |>.mp hp
    have hv := ps.name.valid
    rw [(cons_prefix_cons.mp hn).1] at hv
    revert hv
    decide
  have hr := hs ps.cdenvRoot (by simp [workspacesDir])
  refine (untouched_ensureDirectory hr hw).bind fun _ t ht => ?_
  refine (untouched_ensureDirectory (hs _ le_rfl) ht).bind fun _ t ht => ?_
  refine (untouched_ensureLock hlo ht).bind fun _ t ht => ?_
  -- neither the lock nor the inspection does anything to the files
  have has (t : World) (q : CreateCall) (ht : Untouched ps bef t)
      (hq : after c q t = t.tick) : Untouched ps bef (after c q t) := by
    rw [hq]
    exact ⟨⟨ht.uncloned,ht.unremoved⟩,ht.same⟩
  rw [serves_bind]
  have ha := has t (.acquire (workspaceNamespaceLock ps.cdenvRoot)) ht rfl
  refine serves_expect (ends_call (.acquire _) ⟨fun _ _ => ?_,fun _ _ => ha⟩)
  rw [serves_bind]
  have hi := has _ (.inspectDirectory ps.root) ha rfl
  refine serves_expect (ends_call (.inspectDirectory ps.root) ⟨?_,fun _ _ => hi⟩)
  intro fs _
  cases fs with
  | valid => exact hi
  | missing => exact ends_createRoot hi

theorem ends_reserveWorkspace (hw : Untouched ps bef w) :
    Ends c (fun owned t => Owns ps owned ∧ Clean t ∧ bef.node ps.root = none)
      (fun _ t => Untouched ps bef t ∨ Reclaimed ps t ∧ bef.node ps.root = none)
      (reserveWorkspace ps) w := by
  refine ((ends_claimName hw).fails fun _ _ h => .inl h).bind ?_
  rintro _ t ⟨ht,hn⟩
  exact (ends_createSkeleton ht).mono (fun _ h => h) (fun _ _ h => ⟨h.1,h.2,hn⟩)
    fun _ _ h => .inr ⟨h,hn⟩

theorem ends_removeAndRollback {removals : List (Removal × Path)} (ho : Owns ps owned)
    (hre : ∀ r ∈ removals, ps.root <+: r.2) (hw : Bounded ps w) :
    Ends c (fun _ => Reclaimed ps) (fun _ => Reclaimed ps)
      (removeAndRollback owned removals) w := by
  have hs : ∀ r ∈ removals, ∀ t, Bounded ps t → Ends c (fun _ => Bounded ps)
      (fun _ => Bounded ps) (expect (call (CreateCall.remove r.1 r.2))
        (Sum.inr : Text → ReservationError ⊕ Text)) t := by
    intro r hr t ht
    exact (ends_remove (hre r hr) ht).mono (fun _ h => h) (fun _ _ h => h.1) fun _ _ h => h.1
  refine (ends_guarded ho (serves_forM hs hw)).bind fun _ t ht => ?_
  apply serves_expect
  rw [serves_attempt]
  have hc : Ends c (fun _ => Reclaimed ps) (fun _ => Bounded ps) (cleanup owned) t :=
    (ends_cleanup ho ht).fails fun _ _ h => h.toBounded
  exact (ends_guarded ho hc).mono (fun _ h => h) (fun _ _ h => ⟨fun _ _ => h,nofun⟩)
    fun _ _ h => ⟨nofun,fun _ _ => h⟩

structure Kept (paths : WorkspacePaths) (w : World) : Prop where
  cloned : w.cloned = true
  unremoved : w.removed = []
  same : ∀ p, paths.checkout <+: p → w.tree.node p = w.handed.node p

variable {print : Text → Option Text} {prep : PreparedCreate print}
variable {req : CreateWorkspaceRequest} {desc : CreateWorkspaceError → Text}

/-- What the creation has written and may still record a failure in. -/
structure Recordable (prepared : PreparedCreate print) (state : NewWorkspaceState) : Prop where
  operation : state.operation = prepared.operation
  source : state.repositorySource = prepared.sanitizedSource

theorem ne_stateFile {p : Path} (hp : ps.checkout <+: p) : p ≠ ps.stateFile := by
  rintro rfl
  have hl := hp.length_le
  simp [WorkspacePaths.checkout,WorkspacePaths.checkoutDir,WorkspacePaths.stateFile] at hl

theorem kept_persist (hw : Kept ps w) :
    Kept ps (after c (.persistWorkspaceState ps.stateFile s) w) where
  cloned := hw.cloned
  unremoved := hw.unremoved
  same p hp := (node_persist_of_ne (ne_stateFile hp)).trans (hw.same p hp)

theorem Kept.asked (hw : Kept ps w) (q : CreateCall) (hq : after c q w = w.tick) :
    Kept ps (after c q w) := by
  rw [hq]
  exact ⟨hw.cloned,hw.unremoved,hw.same⟩

theorem sanitizedSource_stable (hpr : PrintsStably print) (prep : PreparedCreate print) :
    sanitizeSource print prep.sanitizedSource = prep.sanitizedSource := by
  obtain ⟨src,hs⟩ := prep.sanitized
  rw [hs]
  exact sanitizeSource_idempotent hpr src

/-- A creation that fails keeps the checkout and a state that can be loaded. -/
abbrev Retains (course : Course) (paths : WorkspacePaths) (print : Text → Option Text)
    (m : Creation CreateWorkspaceError α) (w : World) : Prop :=
  Ends course (fun _ _ => True) (fun _ t => t.cloned = true ∧ Retained paths print t) m w

section recordable
variable (hpr : PrintsStably print) (hst : Recordable prep s) (hw : Kept ps w)
include hpr hst hw

theorem ends_failed {er : CreateWorkspaceError} : Retains (α := α) c ps print
      (recordPostCloneFailure desc ps.stateFile s er) w := by
  let recorded := s.setLastError (some (SanitizedSummary.redact (desc er)))
  have hk : Kept ps (after c (.persistWorkspaceState ps.stateFile recorded) w) := kept_persist hw
  have hs : sanitizeSource print recorded.repositorySource = recorded.repositorySource := by
    change sanitizeSource print s.repositorySource = s.repositorySource
    rw [hst.source]
    exact sanitizedSource_stable hpr prep
  unfold recordPostCloneFailure
  rw [Retains,Ends,serves_bind]
  refine serves_expect (ends_call (.persistWorkspaceState ps.stateFile recorded) ⟨?_,?_⟩)
  · intro _ hok
    refine ⟨hk.cloned,hk.unremoved,hk.same,fun _ => ⟨recorded,?_,?_,rfl⟩⟩
    · have hn : ((c w.clock).persist ps.stateFile recorded w.tree).2.node
          ps.stateFile = some (.file (.state (encode recorded))) := node_persist_of_ok hok
      change loadWorkspaceState print
        ((c w.clock).persist ps.stateFile recorded w.tree).2 ps.stateFile = .ok recorded
      rw [loadWorkspaceState,hn]
      exact decodeWorkspaceState_encode hs
    · change s.operation.kind = .creating
      rw [hst.operation]
      exact prep.creating
  · intro stage he
    refine ⟨hk.cloned,hk.unremoved,hk.same,?_⟩
    intro hwr
    have he : ((c w.clock).persist ps.stateFile recorded w.tree).1 = .error stage := he
    have hwr : (!((c w.clock).persist ps.stateFile recorded w.tree).1.isOk) = false := hwr
    rw [he] at hwr
    cases hwr

theorem ends_complete : Retains c ps print (complete desc ps s) w := by
  let completed := s.setIdle.setLastError none
  have hk : Kept ps (after c (.persistWorkspaceState ps.stateFile completed) w) := kept_persist hw
  unfold complete
  rw [Retains,Ends,serves_bind]
  refine ends_call (.persistWorkspaceState ps.stateFile completed) ?_
  split
  · exact ends_failed hpr hst hk
  · trivial

omit hpr hst hw in
/-- The key that gave the first fingerprints gives all of them. -/
theorem exists_pendingFingerprints (prep : PreparedCreate print) (config : DesiredConfigPath) :
    ∃ fingerprints, pendingFingerprints prep.installation config = .ok fingerprints := by
  have hc := prep.computed
  unfold pendingFingerprints at hc ⊢
  cases hk : prep.installation.fingerprintKey with
  | error reason =>
    rw [hk] at hc
    cases hc
  | ok digestPlan => exact ⟨_,rfl⟩

theorem ends_selectConfig : Retains c ps print (selectConfig desc req prep ps s) w := by
  unfold selectConfig
  cases req.config with
  | none => exact ends_complete hpr hst hw
  | some config =>
    have hk : Kept ps (after c (.validateExplicitConfig ps.checkout config) w) := hw.asked _ rfl
    rw [Retains,Ends,serves_bind]
    refine ends_call (.validateExplicitConfig ps.checkout config) ?_
    split
    · exact ends_failed hpr hst hk
    · next validated _ =>
      obtain ⟨fingerprints,hf⟩ := exists_pendingFingerprints prep validated
      rw [hf]
      exact ends_complete hpr ⟨hst.operation,hst.source⟩ hk

theorem ends_bindPermissions : Retains c ps print (bindPermissions desc req prep ps s) w := by
  have hb : Kept ps (after c (.bindCreatedWorkspace s req.explicitName) w) :=
    ⟨hw.cloned,hw.unremoved,fun _ _ => rfl⟩
  unfold bindPermissions
  rw [Retains,Ends,serves_bind]
  refine ends_call (.bindCreatedWorkspace s req.explicitName) ?_
  split
  · exact ends_failed hpr hst hb
  · rw [serves_bind]
    refine ends_call .isCancelled ?_
    split
    · exact ends_failed hpr hst (hb.asked .isCancelled rfl)
    · exact ends_selectConfig hpr hst (hb.asked .isCancelled rfl)

theorem ends_afterClone : Retains c ps print (afterClone desc req prep ps s) w := by
  have hk : Kept ps (after c (.inspectDirectory ps.checkout) w) := hw.asked _ rfl
  unfold afterClone
  rw [Retains,Ends,serves_bind]
  refine ends_call (.inspectDirectory ps.checkout) ?_
  split
  · exact ends_failed hpr hst hk
  · exact ends_failed hpr hst hk
  · exact ends_bindPermissions hpr hst hk

end recordable

/-- The reservation is taken back, or everything is kept. -/
def Settled (paths : WorkspacePaths) (print : Text → Option Text) (w : World) : Prop :=
  Reclaimed paths w ∨ w.cloned = true ∧ Retained paths print w

theorem checkout_inside : ps.root <+: ps.checkout := (prefix_append _ _).trans (prefix_append _ _)

theorem ends_cloneInto (hpr : PrintsStably print) (hst : Recordable prep s)
    (ho : Owns ps owned) (hw : Clean w) :
    Ends c (fun _ _ => True) (fun _ => Settled ps print)
      (cloneInto desc req prep ps owned s) w := by
  unfold cloneInto
  rw [Ends,serves_bind]
  refine ends_call (.cloneRepository req.source ps.checkout) ?_
  split
  · next git hg =>
    have hg : (c w.clock).outcome = .error git := hg
    have hc : Clean (after c (.cloneRepository req.source ps.checkout) w) := by
      refine ⟨?_,hw.unremoved⟩
      change (c w.clock).outcome.isOk = false
      rw [hg]
      rfl
    have hr : ∀ r ∈ [(Removal.checkout, ps.checkout),(Removal.state, ps.stateFile)],
        ps.root <+: r.2 := by
      simp [checkout_inside,WorkspacePaths.stateFile]
    unfold rollbackCloneFailure
    rw [serves_bind,serves_attempt]
    exact (ends_removeAndRollback ho hr hc.bounded).mono (fun _ h => h)
      (fun _ _ h => .inl h) fun _ _ h => .inl h
  · next hg =>
    have hg : (c w.clock).outcome = .ok () := hg
    have hk : Kept ps (after c (.cloneRepository req.source ps.checkout) w) := by
      refine ⟨?_,hw.unremoved,fun _ _ => rfl⟩
      change (c w.clock).outcome.isOk = true
      rw [hg]
      rfl
    exact (ends_afterClone hpr hst hk).fails fun _ _ h => .inr h

theorem ends_createWorkspace {cr : Path} (hpr : PrintsStably print)
    (hw : Untouched ⟨cr,prep.name⟩ bef w) :
    Ends c (fun _ _ => True) (fun _ t => Untouched ⟨cr,prep.name⟩ bef t ∨
        Settled ⟨cr,prep.name⟩ print t ∧ bef.node (WorkspacePaths.root ⟨cr,prep.name⟩) = none)
      (createWorkspace desc req prep cr) w := by
  unfold createWorkspace
  rw [Ends,serves_bind]
  apply serves_expect
  rw [serves_attempt]
  refine (ends_reserveWorkspace hw).mono (fun _ h => h) ?_ fun _ _ h => ⟨nofun,fun _ _ =>
    h.imp_right fun h => ⟨.inl h.1,h.2⟩⟩
  rintro owned t ⟨ho,ht,hn⟩
  refine ⟨?_,nofun⟩
  rintro _ ⟨⟩
  -- from here on every failure is one of a workspace that is new
  suffices hre : Ends c (fun _ _ => True) (fun _ => Settled ⟨cr,prep.name⟩ print) _ t from
    hre.fails fun _ _ h => .inr ⟨h,hn⟩
  have ha : Ends c (fun _ => Clean) (fun _ => Clean)
      (expect (call (CreateCall.acquire (WorkspacePaths.lockFile ⟨cr,prep.name⟩)))
        CreateWorkspaceError.lock) t :=
    .expect (ends_call (.acquire _) ⟨ht.uncloned,ht.unremoved⟩)
  rw [Ends,serves_bind]
  refine (ends_guarded_clean ho ha).mono (fun _ h => h) ?_ fun _ _ h => .inl h
  intro _ u hu
  rw [serves_bind]
  have hc : Clean (after c (.persistWorkspaceState
      (WorkspacePaths.stateFile ⟨cr,prep.name⟩) prep.initialState) u) :=
    ⟨hu.uncloned,hu.unremoved⟩
  refine ends_call (.persistWorkspaceState _ prep.initialState) ?_
  split
  · unfold rollbackInitialStateFailure
    rw [serves_bind,serves_attempt]
    have hr : ∀ r ∈ [(Removal.state, WorkspacePaths.stateFile ⟨cr,prep.name⟩)],
        WorkspacePaths.root ⟨cr,prep.name⟩ <+: r.2 := by
      simp [WorkspacePaths.stateFile]
    exact (ends_removeAndRollback ho hr hc.bounded).mono (fun _ h => h)
      (fun _ _ h => .inl h) fun _ _ h => .inl h
  · exact ends_cloneInto hpr ⟨rfl,rfl⟩ ho hc

theorem undone_of_untouched (hw : Untouched ps bef w) : Undone ps bef w := by
  refine ⟨?_,fun _ => hw.same⟩
  intro p hp
  rw [hw.unremoved] at hp
  cases hp

theorem undone_of_reclaimed (hw : Reclaimed ps w) (hn : bef.node ps.root = none) :
    Undone ps bef w := by
  refine ⟨?_,?_⟩
  · intro p hp
    exact ⟨hw.inside p hp,FileTree.node_eq_none_of_below hn (hw.inside p hp)⟩
  · intro hs p hp
    have hg : w.tree.node ps.root = none := by
      rcases hw.gone with ht | hg
      · rw [hs] at ht
        cases ht
      · exact hg
    rw [FileTree.node_eq_none_of_below hg hp,FileTree.node_eq_none_of_below hn hp]

end

/-- A creation that fails before Git has succeeded is undone, and one that fails later keeps
everything and records the failure, whatever the file system, Git, the credential binding and
the user do. -/
theorem failure_recoverable {print : Text → Option Text} (hprint : PrintsStably print)
    (prepared : PreparedCreate print) (request : CreateWorkspaceRequest)
    (describe : CreateWorkspaceError → Text) (cdenvRoot : Path) (course : Course) (before : Tree)
    (error : CreateWorkspaceError) (after : World)
    (hrun : serve (server course) (createWorkspace describe request prepared cdenvRoot)
      (World.before before) = (some (.error error), after)) :
    (after.cloned = false → Undone ⟨cdenvRoot,prepared.name⟩ before after) ∧
      (after.cloned = true → Retained ⟨cdenvRoot,prepared.name⟩ print after) := by
  have hb : Untouched ⟨cdenvRoot,prepared.name⟩ before (World.before before) :=
    ⟨⟨rfl,rfl⟩,fun _ _ => rfl⟩
  have he : Ends course _ _ (createWorkspace describe request prepared cdenvRoot)
      (World.before before) := ends_createWorkspace hprint hb
  unfold Ends Serves at he
  rw [hrun] at he
  rcases he with hun | ⟨hr | ⟨hc,hre⟩,hn⟩
  · refine ⟨fun _ => undone_of_untouched hun,fun hc => ?_⟩
    rw [hun.uncloned] at hc
    cases hc
  · refine ⟨fun _ => undone_of_reclaimed hr hn,fun hc => ?_⟩
    rw [hr.uncloned] at hc
    cases hc
  · refine ⟨fun hu => ?_,fun _ => hre⟩
    rw [hc] at hu
    cases hu

def sampleTree : Tree where
  nodes := OrderedMap.empty.insert [] .directory
  closed := by
    intro p q n hq hpq hne
    rw [OrderedMap.get?_insert] at hq
    split_ifs at hq with hroot
    · rw [← hroot,List.prefix_nil] at hpq
      exact (hne (hpq.trans hroot)).elim
    · cases hq

def sampleTimestamp : StateTimestamp := ⟨"2024-05-01T10:00:00Z",by decide⟩

def sampleConfig : DesiredConfigPath := ⟨".devcontainer/devcontainer.json",by decide⟩

def sampleInstallation : Installation where
  id := sampleToken
  fingerprintKey := .ok fun _ _ => sampleDigest

def samplePrepared : PreparedCreate fun _ => none where
  installation := sampleInstallation
  name := ⟨"a",by decide⟩
  sanitizedSource := "git@example.com:a"
  timestamp := sampleTimestamp
  profile := sampleToken
  desiredConfig := sampleConfig
  fingerprints := ⟨sampleDigest,sampleDigest,sampleDigest⟩
  operation := ⟨.creating,some "0f",some sampleTimestamp.value,by decide⟩
  sanitized := ⟨"git@example.com:a",by decide⟩
  computed := rfl
  creating := rfl
  started := rfl

def sampleCourse : Course := fun _ =>
  { failure := none
    lateFailure := none
    writeFailure := none
    gone := []
    cancelled := false
    outcome := .error "denied"
    outsider := id
    validated := .ok sampleConfig }

def sampleRequest : CreateWorkspaceRequest where
  source := "git@example.com:a"
  explicitName := false
  config := none

def sampleRun : Option (Except CreateWorkspaceError CreatedWorkspace) × World :=
  serve (server sampleCourse) (createWorkspace (fun _ => []) sampleRequest samplePrepared [])
    (World.before sampleTree)

theorem failedClone_undone :
    sampleRun.1 = some (.error (.git "denied")) ∧ sampleRun.2.troubled = false ∧
      Undone ⟨[],samplePrepared.name⟩ sampleTree sampleRun.2 := by
  have hr : sampleRun.1 = some (.error (.git "denied")) := by decide +kernel
  have hu : sampleRun.2.cloned = false := by decide +kernel
  have hs : PrintsStably fun _ => none := nofun
  refine ⟨hr,by decide +kernel,?_⟩
  exact (failure_recoverable hs samplePrepared sampleRequest _ [] sampleCourse sampleTree _
    sampleRun.2 (Prod.ext hr rfl)).1 hu

end Cdenv.WorkspaceCreation
