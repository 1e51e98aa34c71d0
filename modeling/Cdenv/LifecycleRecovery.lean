import Cdenv.LifecycleDirectory

/-!
# Lifecycle runs over crashes

Calls of the runner and of cancellation follow one another on one state directory, with
crashes and failures anywhere. The checkpoint is always at most one group behind the log. What
carries the proofs is that it lags only while its phase is one from which no group is started.
-/
namespace Cdenv.AgentLifecycle
open TextScan Fallible Interaction Program List

section
variable {request : LifecycleRunRequest} {course c : Course} {w : World}
variable {state : LifecycleRunnerState}

theorem World.At.recorded (h : w.At request state) : w.Recorded request := by
  unfold World.Recorded
  rw [h.file]
  exact ⟨h.plan,h.within,.inl h.log⟩

theorem World.At.of_same {w' : World} (h : w.At request state) (hs : w'.Same w) :
    w'.At request state :=
  ⟨hs.1.trans h.file,h.plan,h.within,hs.2.trans h.log⟩

variable {next : LifecycleRunnerState}

/-- Another state of the same group fits the same log. -/
theorem World.At.fits_of_eq (h : w.At request state) (hp : next.plan = state.plan)
    (hg : next.group = state.group) : Fits request next w.log where
  plan := hp.trans h.plan
  within := by
    obtain ⟨hs,hc⟩ := Group.mk.inj hg
    rw [hs,hc]
    exact h.within
  log := .inl (by rw [hg]; exact h.log)

/-- Once the group is recorded as running it may be executed, and whatever comes of it fits
every record of this group that no runner resumes. -/
theorem World.At.fits_executed {m : Moment} (h : w.At request state)
    (hp : next.plan = state.plan) (hg : next.group = state.group)
    (hph : ¬(next.phase = .before ∨ next.phase = .after)) :
    Fits request next (w.log++m.events state.group) where
  plan := hp.trans h.plan
  within := (h.fits_of_eq hp hg).within
  log := by
    refine .inr ⟨hph,?_⟩
    rw [hg,h.log]
    unfold Moment.events
    split
    · exact .inr (by simp)
    · exact .inl rfl

variable {α : Type} {m : Runner α}

/-- A last write: nothing is started after it. -/
theorem safely_last {I : α → World → Prop} (ho : w.Recorded request) (hn : Fits request state w.log)
    (hl : ∀ w', w'.Recorded request → Safely request c I m w') :
    Safely request c I (do storeState state; m) w := by
  rw [Safely,serves_bind]
  refine safely_storeState ho hn ?_
  intro w' hf hlo
  exact hl w' (World.recorded_of_file hf (hlo ▸ hn))

section

variable (h : w.At request state)
include h

theorem safely_executeCommand {cmd : LifecycleCommand}
    {I : Except ExecutionFailure Unit → World → Prop} (hp : state.phase = .running)
    (hI : ∀ m : Moment, ∀ w' : World, w'.file = some state →
      w'.log = w.log++m.events state.group → I m.execution w') :
    Safely request c I
      (call (RunnerCall.executeCommand state.stageIndex state.commandIndex cmd)) w := by
  have he : ∀ m : Moment, Fits request state (w.log++m.events state.group) := by
    intro m
    apply h.fits_executed rfl rfl
    rw [hp]
    decide
  exact serves_question (q := .executeCommand _ _ _)
    (fun _ => ⟨h.recorded.of_same ⟨rfl,rfl⟩,World.recorded_of_file h.file (he _)⟩)
    (hI _ _ h.file rfl)

theorem World.At.log_succeeded {log : List GroupEvent}
    (hl : log = w.log++[.started state.group,.succeeded state.group]) :
    log = history (groupsBefore request ⟨state.stageIndex,state.commandIndex+1⟩) := by
  rw [groupsBefore_succ_command,history_concat,hl,h.log]
  simp [LifecycleRunnerState.group]

theorem safely_runCommands {stg : LifecycleStage} {cmds : List LifecycleCommand}
    (hc : state.commandIndex+cmds.length ≤ commandCount request state.stageIndex) :
    Safely request c (fun flow w => match flow with
      | .finished _ => w.Recorded request
      | .through next => w.At request next ∧ next.stageIndex = state.stageIndex ∧
          next.commandIndex = state.commandIndex+cmds.length)
      (runCommands stg cmds state) w := by
  induction cmds generalizing state w with
  | nil => exact ⟨h,rfl,rfl⟩
  | cons cmd xs ih =>
    unfold runCommands
    rw [Safely,serves_bind]
    refine safely_quiet (q := .cancelExists) rfl h.recorded fun w₁ hs => ?_
    have h₁ := h.of_same hs
    split
    · exact safely_last h₁.recorded (h₁.fits_of_eq rfl rfl) fun _ hr => hr
    · rw [serves_bind]
      refine safely_storeState h₁.recorded (h₁.fits_of_eq rfl rfl) ?_
      intro w₂ hf₂ hl₂
      have h₂ : w₂.At request { state with phase := .running } :=
        ⟨hf₂,h.plan,h.within,hl₂.trans h₁.log⟩
      rw [serves_bind]
      refine safely_executeCommand h₂ rfl ?_
      intro m w₃ hf₃ hl₃
      have hr₃ := World.recorded_of_file hf₃ (hl₃ ▸ h₂.fits_executed rfl rfl nofun)
      cases he : m.execution with
      | ok u =>
        have hle : state.commandIndex+1+xs.length ≤ commandCount request state.stageIndex := by
          rw [length_cons] at hc
          omega
        have hl : w₃.log = history (groupsBefore request ⟨state.stageIndex,state.commandIndex+1⟩) :=
          h₂.log_succeeded (by rw [hl₃,Moment.events,he])
        have hw : state.commandIndex+1 ≤ commandCount request state.stageIndex := by
          omega
        rw [serves_bind]
        refine safely_storeState hr₃ ⟨h.plan,hw,.inl hl⟩ ?_
        intro w₄ hf₄ hl₄
        refine Serves.mono (fun _ hk => hk) ?_ (fun _ _ hfa => hfa)
          (ih ⟨hf₄,h.plan,hw,hl₄.trans hl⟩ hle)
        intro flow w₅ hf
        cases flow with
        | finished next => exact hf
        | through next =>
          refine ⟨hf.1,hf.2.1,hf.2.2.trans ?_⟩
          simp only [length_cons]
          omega
      | error e =>
        have hfi : ∀ next : LifecycleRunnerState, next.plan = state.plan →
            next.group = state.group → ¬(next.phase = .before ∨ next.phase = .after) →
            Fits request next w₃.log := by
          intro next hpl hg hp
          rw [hl₃]
          exact h₂.fits_executed hpl hg hp
        cases e with
        | cancelled =>
          refine safely_last hr₃ (hfi _ rfl rfl ?_) ?_
          · split <;> nofun
          · intro w₄ hr₄
            split
            all_goals exact hr₄
        | error reason =>
          exact safely_last hr₃ (hfi _ rfl rfl nofun) fun _ hr => hr

theorem safely_runStages {plans : List LifecycleStagePlan}
    (hp : request.stages.drop state.stageIndex = plans) :
    Safely request c (fun _ => World.Recorded request) (runStages plans state) w := by
  induction plans generalizing state w with
  | nil =>
    refine safely_last h.recorded (h.fits_of_eq rfl rfl) ?_
    intro w₁ hr
    rw [Safely,serves_bind]
    exact safely_quiet (q := .removeCancel) rfl hr fun _ hsa => hr.of_same hsa
  | cons plan xs ih =>
    have hpl : request.stages[state.stageIndex]? = some plan := by
      rw [← head?_drop,hp]
      rfl
    have hco : commandCount request state.stageIndex = plan.commands.length := by
      rw [commandCount,hpl]
      rfl
    have hw := h.within
    unfold runStages
    refine (safely_runCommands h (by rw [length_drop]; omega)).bind ?_
    intro flow w₁ hf
    cases flow with
    | finished next => exact hf
    | through next =>
      obtain ⟨h₁,hs,hc⟩ := hf
      have he : next.commandIndex = commandCount request next.stageIndex := by
        rw [hc,length_drop,hs]
        omega
      have hl : w₁.log = history (groupsBefore request ⟨next.stageIndex+1,0⟩) := by
        rw [groupsBefore_succ_stage,← he]
        exact h₁.log
      rw [serves_bind]
      refine safely_storeState h₁.recorded ⟨h₁.plan,Nat.zero_le _,.inl hl⟩ ?_
      intro w₂ hf₂ hl₂
      refine ih ⟨hf₂,h₁.plan,Nat.zero_le _,hl₂.trans hl⟩ ?_
      simp only [hs]
      rw [← tail_drop,hp]
      rfl

end

variable {I : LifecycleRunnerState → World → Prop}

theorem safely_loadState (h : w.Recorded request)
    (hI : ∀ state w', w'.file = some state → w'.Recorded request → I state w') :
    Safely request c I loadState w := by
  refine serves_expect (safely_quiet (q := .loadState) rfl h fun w' hs => ?_)
  refine ⟨?_,fun _ _ => h.of_same hs⟩
  intro state ha
  have hl := Moment.loadState_eq_ok ha
  exact hI state w' (hs.1.trans hl) (h.of_same hs)

theorem reply_stateExists (hc : c.Sees) : (w.reply c .stateExists).1 = w.file.isSome := by
  simp [World.reply,Moment.answer,World.tick,hc w.clock]

theorem safely_loadOrCreate (hc : c.Sees) (h : w.Recorded request) :
    Safely request c (fun state w => w.file = some state ∧ w.Recorded request)
      (loadOrCreate request) w := by
  unfold loadOrCreate
  rw [Safely,serves_bind]
  refine safely_quiet (q := .stateExists) rfl h fun w₁ hs => ?_
  have h₁ := h.of_same hs
  split
  · exact safely_loadState h₁ fun state w' hf hr => ⟨hf,hr⟩
  case isFalse ha =>
    have hn : w.file = none := by
      rw [reply_stateExists hc] at ha
      simpa using ha
    have hl : w₁.log = [] := by
      unfold World.Recorded at h₁
      rwa [hs.1,hn] at h₁
    have hfi : Fits request (initialState request) w₁.log := ⟨rfl,Nat.zero_le _,.inl hl⟩
    rw [serves_bind]
    refine safely_storeState h₁ hfi ?_
    intro w₂ hf₂ hl₂
    exact ⟨hf₂,World.recorded_of_file hf₂ (hl₂ ▸ hfi)⟩

theorem World.Recorded.inOrder (h : w.Recorded request) :
    InOrder request w.log ∧ (starts w.log).Nodup := by
  unfold World.Recorded at h
  split at h
  · rw [h]
    exact ⟨throughout_nil,nodup_nil⟩
  · exact h.inOrder

/-- The phase of an abandoned checkpoint is one that no runner resumes. -/
theorem abandonedPhase_stops :
    ¬(abandonedPhase state = .before ∨ abandonedPhase state = .after) := by
  unfold abandonedPhase
  split <;> nofun

theorem World.Recorded.fits (h : w.Recorded request) (hf : w.file = some state) :
    Fits request state w.log := by
  unfold World.Recorded at h
  rwa [hf] at h

theorem safely_settleInterrupted (h : w.Recorded request) (hf : w.file = some state) :
    Safely request c (fun next w => w.file = some next ∧ w.Recorded request ∧
      next.phase ≠ .running) (settleInterrupted state) w := by
  unfold settleInterrupted
  split
  case isTrue hr =>
    have hfi := h.fits hf
    have hs : Fits request { state with
        phase := abandonedPhase state, runnerPid := none, failure := some "interrupted" }
        w.log := by
      refine ⟨hfi.plan,hfi.within,?_⟩
      rcases hfi.log with hl | ⟨-,hl⟩
      · exact .inl hl
      · exact .inr ⟨abandonedPhase_stops,hl⟩
    rw [Safely,serves_bind]
    refine safely_storeState h hs ?_
    intro w₁ hf₁ hl₁
    refine ⟨hf₁,World.recorded_of_file hf₁ (hl₁ ▸ hs),?_⟩
    unfold abandonedPhase
    split <;> nofun
  case isFalse hr => exact ⟨hf,h,hr⟩

theorem safely_runLocked (pid : ℕ) (hc : c.Sees) (h : w.Recorded request) :
    Safely request c (fun _ => World.Recorded request) (runLocked pid request) w := by
  refine (safely_loadOrCreate hc h).bind ?_
  rintro state w₁ ⟨hf₁,h₁⟩
  unfold resume
  split
  · exact h₁
  · refine (safely_settleInterrupted h₁ hf₁).bind ?_
    rintro next w₂ ⟨hf₂,h₂,hr⟩
    split
    · exact h₂
    split
    · exact h₂
    · rename_i hi he
      -- Only a checkpoint at rest between two groups is left.
      have hp : next.phase = .before ∨ next.phase = .after := by
        cases hne : next.phase <;> simp_all
      have hf := h₂.fits hf₂
      have hl : w₂.log = history (groupsBefore request next.group) := by
        rcases hf.log with hl | ⟨hno,-⟩
        · exact hl
        · exact absurd hp hno
      have hn : Fits request { next with runnerPid := some pid } w₂.log :=
        ⟨hf.plan,hf.within,.inl hl⟩
      rw [serves_bind]
      refine safely_storeState h₂ hn ?_
      intro w₃ hf₃ hl₃
      have h₃ : w₃.At request { next with runnerPid := some pid } :=
        ⟨hf₃,hf.plan,hf.within,hl₃.trans hl⟩
      rw [serves_bind]
      refine serves_expect (safely_quiet (q := .loadEnvironment) rfl h₃.recorded fun w₄ hs => ?_)
      exact ⟨fun _ _ => safely_runStages (h₃.of_same hs) rfl,fun _ _ => h₃.recorded.of_same hs⟩

end

/-- The call is killed at one of its questions. -/
def Course.Kills (course : Course) : Prop := ∃ n, (course n).fate ≠ .survives

/-- The failure of an access, a write or the lock that the call meets. -/
def Course.Fails (course : Course) (e : LifecycleError) : Prop :=
  ∃ n, (∃ failure, (course n).accessFailure = some failure ∧ e = failure.toError) ∨
    ((course n).writeFailure ≠ none ∧ e = .stateIo) ∨
    ((course n).lockTaken = true ∧ e = .alreadyRunning)

/-- A property of checkpoint and log that the outer part of a call keeps, and what follows from
it when the call is killed or fails there. -/
structure Framed (course : Course) (J K : World → Prop) (F : LifecycleError → World → Prop) :
    Prop where
  quiet : ∀ w w' : World, w'.Same w → J w → J w'
  killed : course.Kills → ∀ w, J w → K w
  failed : ∀ e, course.Fails e → ∀ w, J w → F e w

section
variable {ag : Agent} {request : LifecycleRunRequest} {course c : Course} {w : World}
variable {J K : World → Prop} {F : LifecycleError → World → Prop}

theorem Framed.question {q : RunnerCall} {I : RunnerAnswer q → World → Prop}
    (hf : Framed c J K F) (hq : isQuiet q = true) (h : J w)
    (hI : I (w.reply c q).1 (w.reply c q).2) : Serves (server c) K I F (call q) w := by
  refine serves_question (fun hfa => ?_) hI
  exact ⟨hf.killed ⟨_,hfa⟩ _ (hf.quiet w _ ⟨rfl,rfl⟩ h),
    hf.killed ⟨_,hfa⟩ _ (hf.quiet w _ (quiet_of_isQuiet hq _ _) h)⟩

theorem Moment.access_eq_error {m : Moment} {failure : AccessFailure}
    (h : m.access = .error failure) : m.accessFailure = some failure := by
  unfold Moment.access at h
  split at h
  · cases h
  · rename_i heq
    cases h
    exact heq

theorem Framed.access {I : Unit → World → Prop} (hf : Framed c J K F)
    (h : J w) (hI : I () (w.tick (c w.clock))) :
    Serves (server c) K I F prepareDirectory w ∧ Serves (server c) K I F openLock w := by
  have hfa : ∀ e, (c w.clock).access = .error e → F e.toError (w.tick (c w.clock)) := fun e he =>
    hf.failed _ ⟨_,.inl ⟨e,Moment.access_eq_error he,rfl⟩⟩ _ (hf.quiet w _ ⟨rfl,rfl⟩ h)
  exact ⟨serves_expect (hf.question (q := .prepareDirectory) rfl h ⟨fun _ _ => hI,hfa⟩),
    serves_expect (hf.question (q := .openLock) rfl h ⟨fun _ _ => hI,hfa⟩)⟩

variable {state : LifecycleRunnerState}

theorem Framed.loadState (hfr : Framed c J K F) (h : J w) (hfi : w.file = some state)
    (hI : I state (w.tick (c w.clock))) : Serves (server c) K I F loadState w := by
  have ha : (w.reply c .loadState).1 =
      (c w.clock).accessFailure.elim (.ok state) .error := by
    simp only [World.reply,Moment.answer,World.tick,hfi]
    cases (c w.clock).accessFailure <;> rfl
  refine serves_expect (hfr.question (q := .loadState) rfl h ?_)
  rw [ha]
  cases hfa : (c w.clock).accessFailure with
  | none =>
    refine ⟨fun fs hf => ?_,fun _ hf => by cases hf⟩
    cases hf
    exact hI
  | some failure =>
    refine ⟨fun _ hf => (by cases hf),fun fs hf => ?_⟩
    cases hf
    exact hfr.failed _ ⟨_,.inl ⟨failure,hfa,rfl⟩⟩ _ (hfr.quiet w _ ⟨rfl,rfl⟩ h)

variable {pid : ℕ}

/-- A run whose request is valid comes down to its locked part. -/
theorem Framed.runLifecycle (hf : Framed c J K F) (h : J w) (hu : w.locked = false)
    (hv : validateRequest ag request = .ok ())
    (hlo : ∀ w' : World, w'.Same w → Serves (server c) K
      (fun state w => J w ∧ ∀ w' : World, w'.Same w → I state w')
      (fun e w => J w ∧ ∀ w' : World, w'.Same w → F e w') (runLocked pid request) w') :
    Serves (server c) K I F (runLifecycle ag pid request) w := by
  unfold AgentLifecycle.runLifecycle checked
  rw [hv]
  refine serves_bind.mpr (serves_pure.mpr (serves_bind.mpr ?_))
  refine (hf.access h ?_).1
  have h₁ := hf.quiet w (w.tick (c w.clock)) ⟨rfl,rfl⟩ h
  generalize hw₁ : w.tick (c w.clock) = w₁ at h₁
  rw [serves_bind]
  refine (hf.access h₁ ?_).2
  have h₂ := hf.quiet w₁ (w₁.tick (c w₁.clock)) ⟨rfl,rfl⟩ h₁
  generalize hw₂ : w₁.tick (c w₁.clock) = w₂ at h₂
  have hs : w₂.Same w := by rw [← hw₂,← hw₁]; exact ⟨rfl,rfl⟩
  have hfr : w₂.locked = false := by rw [← hw₂,← hw₁]; exact hu
  rw [serves_bind]
  refine hf.question (q := .tryLock) rfl h₂ ?_
  split
  · refine serves_always (Serves.mono (fun _ hk => hk) ?_ ?_ (hlo _ hs))
    · rintro state w₃ ⟨h₃,hI⟩
      exact hf.question (q := .unlock) rfl h₃ (hI _ ⟨rfl,rfl⟩)
    · rintro e w₃ ⟨h₃,hF⟩
      exact hf.question (q := .unlock) rfl h₃ (hF _ ⟨rfl,rfl⟩)
  · rename_i ht
    have hl : (c w₂.clock).lockTaken = true := by
      simpa [World.reply,Moment.answer,World.tick,hfr] using ht
    exact hf.failed _ ⟨_,.inr (.inr ⟨hl,rfl⟩)⟩ _ (hf.quiet w₂ _ ⟨rfl,rfl⟩ h₂)

theorem framed_recorded : Framed c (World.Recorded request) (World.Recorded request)
    (fun _ => World.Recorded request) where
  quiet _ _ hs h := h.of_same hs
  killed _ _ h := h
  failed _ _ _ h := h

theorem safely_runLifecycle (hc : c.Sees) (h : w.Recorded request) (hu : w.locked = false)
    (hv : validateRequest ag request = .ok ()) :
    Safely request c (fun _ => World.Recorded request) (runLifecycle ag pid request) w := by
  refine framed_recorded.runLifecycle h hu hv fun w' hs => ?_
  exact (safely_runLocked pid hc (h.of_same hs)).mono (fun _ hk => hk)
    (fun _ _ h₁ => ⟨h₁,fun _ => h₁.of_same⟩) fun _ _ h₁ => ⟨h₁,fun _ => h₁.of_same⟩

end

section
variable {ag : Agent} {request : LifecycleRunRequest} {course c : Course} {w : World}

/-- The program asks quiet questions only. -/
abbrev AsksQuietly {α : Type} (m : Runner α) : Prop :=
  Abides (fun _ _ => True) Quiet (fun _ => True) m

theorem asksQuietly_call (q : RunnerCall) (hq : isQuiet q = true) : AsksQuietly (call q) :=
  abides_call (quiet_of_isQuiet hq) fun _ _ => trivial

theorem asksQuietly_expect {E : Type} {m : Runner (Except E α)} {e : E → LifecycleError}
    (h : AsksQuietly m) : AsksQuietly (expect m e) :=
  Abides.bind h fun a _ => by cases a <;> trivial

/-- A question whose answer may be a failure, and what follows it. -/
theorem AsksQuietly.after {E β : Type} {q : Runner (Except E α)} {e : E → LifecycleError}
    {m : α → Runner β} (hq : AsksQuietly q) (hm : ∀ a, AsksQuietly (m a)) :
    AsksQuietly (expect q e >>= m) :=
  Abides.bind (asksQuietly_expect hq) fun a _ => hm a

/-- Both calls begin with the checks and the directory. -/
theorem asksQuietly_checked {r : Except LifecycleError Unit} (hm : AsksQuietly m) :
    AsksQuietly (do checked r; prepareDirectory; m) := by
  refine Abides.bind (R := fun _ => True) ?_ fun _ _ => ?_
  · cases r <;> trivial
  · exact (asksQuietly_call .prepareDirectory rfl).after fun _ => hm

theorem asksQuietly_inspectLifecycle : AsksQuietly (inspectLifecycle ag request) := by
  refine asksQuietly_checked ((asksQuietly_call .loadState rfl).after fun state => ?_)
  split
  · exact abides_fail
  refine (asksQuietly_call .openLock rfl).after fun _ => ?_
  refine Abides.bind (R := fun _ => True) ?_ fun _ _ => trivial
  refine Abides.bind (asksQuietly_call .tryLock rfl) fun locked _ => ?_
  split
  · exact Abides.bind (asksQuietly_call .unlock rfl) fun _ _ => trivial
  · trivial

theorem asksQuietly_awaitRunner (polls : ℕ) : AsksQuietly (awaitRunner ag request polls) := by
  induction polls with
  | zero =>
    refine Abides.bind asksQuietly_inspectLifecycle fun insp _ => ?_
    split
    · trivial
    split
    · exact Abides.bind (asksQuietly_call (.terminate _) rfl) fun _ _ => asksQuietly_inspectLifecycle
    · exact asksQuietly_inspectLifecycle
  | succ polls ih =>
    refine Abides.bind asksQuietly_inspectLifecycle fun insp _ => ?_
    split
    · trivial
    · exact ih

theorem asksQuietly_cancelLifecycle (polls : ℕ) : AsksQuietly (cancelLifecycle ag polls request) :=
  asksQuietly_checked ((asksQuietly_call .writeCancel rfl).after fun _ => asksQuietly_awaitRunner polls)

theorem AsksQuietly.kept (h : AsksQuietly m) : (serve (server c) m w).2.Same w := by
  have hk : ∀ q (w' : World), Quiet q → w'.Same w → (server c q w').2.Same w := by
    intro q w' hq hw'
    have hqu := hq (c w'.clock) (w'.tick (c w'.clock))
    have ha : (server c q w').2 = w'.tick (c w'.clock) ∨ (server c q w').2 = (w'.reply c q).2 := by
      cases hf : (c w'.clock).fate <;> simp [server,World.reply,hf]
    rcases ha with ha | ha <;> rw [ha]
    · exact hw'
    · exact ⟨hqu.1.trans hw'.1,hqu.2.trans hw'.2⟩
  have hs := Abides.serves (s := w) (J := (World.Same · w)) h ⟨rfl,rfl⟩
    fun q w' hq hw' => ⟨hk q w' hq hw',fun _ _ => trivial⟩
  exact Serves.serve (P := fun _ (w' : World) => w'.Same w)
    (hs.mono (fun _ h => h) (fun _ _ h => h.2) fun _ _ h => h)

end

section
variable {ag : Agent} {request : LifecycleRunRequest} {w : World}

theorem perform_of_invalid {e : LifecycleError} (h : validateRequest ag request = .error e)
    (call : Call) : perform ag request w call = w.unlocked := by
  cases call with
  | run pid c =>
    unfold perform runCall runLifecycle checked
    rw [h]
    rfl
  | cancel polls c =>
    unfold perform cancelLifecycle checked
    rw [h]
    rfl

theorem recorded_perform (h : w.Recorded request) {call : Call} (hc : call.Sees) :
    (perform ag request w call).Recorded request := by
  cases hv : validateRequest ag request with
  | error e =>
    rw [perform_of_invalid hv]
    exact h.of_same ⟨rfl,rfl⟩
  | ok u =>
    cases call with
    | run pid c =>
      exact Serves.serve (P := fun _ => World.Recorded request)
        (safely_runLifecycle hc (h.of_same ⟨rfl,rfl⟩) rfl hv)
    | cancel polls c =>
      exact h.of_same (AsksQuietly.kept (asksQuietly_cancelLifecycle polls))

theorem recorded_performAll (h : w.Recorded request) {calls : List Call}
    (hc : ∀ call ∈ calls, call.Sees) :
    (performAll ag request w calls).Recorded request := by
  induction calls generalizing w with
  | nil => exact h
  | cons call xs ih =>
    obtain ⟨hca,hxs⟩ := forall_mem_cons.mp hc
    exact ih (recorded_perform h hca) hxs

/-- A checkpoint is there only if the agent takes the request. -/
theorem valid_of_file {calls : List Call}
    (h : (performAll ag request World.fresh calls).file = some state) :
    validateRequest ag request = .ok () := by
  cases hv : validateRequest ag request with
  | ok u => rfl
  | error e =>
    have hf : ∀ w : World, (performAll ag request w calls).file = w.file := by
      intro w
      clear h
      induction calls generalizing w with
      | nil => rfl
      | cons call xs ih =>
        refine (ih _).trans ?_
        rw [perform_of_invalid hv]
        rfl
    rw [hf] at h
    cases h

end

/-- A one-time group has an unknown result: it is recorded as running, or as indeterminate. -/
def World.Unknown (request : LifecycleRunRequest) (log : List GroupEvent) (w : World) : Prop :=
  w.log = log ∧ ∃ state, w.file = some state ∧ state.plan = request ∧
    (state.phase = .indeterminate ∨
      state.phase = .running ∧ (currentStage state).any (·.isOneTime) = true)

section
variable {ag : Agent} {request : LifecycleRunRequest} {course c : Course} {w : World}
variable {log : List GroupEvent}

theorem World.Unknown.of_same {w' : World} (h : w.Unknown request log) (hs : w'.Same w) :
    w'.Unknown request log := by
  unfold World.Unknown at h ⊢
  rwa [hs.1,hs.2]

variable (request course c log) in
/-- The program leaves the result unknown, and says why it stopped if it did not return. -/
abbrev Refuses {α : Type} (I : α → World → Prop) (m : Runner α) (w : World) : Prop :=
  Serves (server course) (fun w => w.Unknown request log ∧ course.Kills) I
    (fun e w => w.Unknown request log ∧ (e = .indeterminate ∨ course.Fails e)) m w

theorem framed_unknown : Framed c (World.Unknown request log)
    (fun w => w.Unknown request log ∧ c.Kills)
    (fun e w => w.Unknown request log ∧ (e = .indeterminate ∨ c.Fails e)) where
  quiet _ _ hs h := h.of_same hs
  killed hk _ h := ⟨h,hk⟩
  failed _ hf _ h := ⟨h,.inr hf⟩

/-- A checkpoint that says running is made indeterminate, and nothing else happens. -/
theorem unknown_settleInterrupted (h : w.Unknown request log) (hf : w.file = some state) :
    Refuses request c log (fun next w => w.Unknown request log ∧ next.phase = .indeterminate)
      (settleInterrupted state) w := by
  obtain ⟨hl,fs,hfo,hpl,hp⟩ := id h
  cases hf.symm.trans hfo
  unfold settleInterrupted
  split
  case isFalse hr =>
    refine ⟨h,?_⟩
    rcases hp with hp | ⟨hp,-⟩
    · exact hp
    · exact absurd hp hr
  case isTrue hr =>
    have hi : abandonedPhase state = .indeterminate := by
      rcases hp with hp | ⟨-,ho⟩
      · rw [hp] at hr
        cases hr
      · rw [abandonedPhase,if_pos ho]
    have hw : ∀ w' : World, w'.log = w.log → w'.file = w.file ∨ w'.file = some { state with
          phase := abandonedPhase state, runnerPid := none,
          failure := some "interrupted" } → w'.Unknown request log := by
      intro w' hl' hf'
      rcases hf' with hf' | hf'
      · exact h.of_same ⟨hf',hl'⟩
      · exact ⟨hl'.trans hl,_,hf',hpl,.inl hi⟩
    rw [Refuses,serves_bind]
    refine serves_storeState (fun hft w' hl' hf' => ?_) (fun w' hl' hf' => ?_)
      (fun hfa w' hl' hf' => ?_)
    · exact ⟨hw w' hl' hf',_,hft⟩
    · exact ⟨hw w' hl' (.inr hf'),hi⟩
    · exact ⟨hw w' hl' hf',.inr ⟨_,.inr (.inl ⟨hfa,rfl⟩)⟩⟩

theorem unknown_runLocked (hc : c.Sees) (h : w.Unknown request log) :
    Refuses request c log (fun _ _ => False) (runLocked pid request) w := by
  have hf := @framed_unknown request c log
  obtain ⟨-,state,hfi,hpl,-⟩ := id h
  unfold runLocked loadOrCreate
  rw [Refuses,serves_bind,serves_bind]
  refine hf.question (q := .stateExists) rfl h ?_
  have h₁ := hf.quiet w (w.tick (c w.clock)) ⟨rfl,rfl⟩ h
  have hfo : (w.reply c .stateExists).1 = true := by
    rw [reply_stateExists hc,hfi]
    rfl
  rw [if_pos hfo]
  refine hf.loadState h₁ hfi ?_
  unfold resume
  rw [if_neg (not_not.mpr hpl)]
  refine Serves.bind (unknown_settleInterrupted (hf.quiet _ _ ⟨rfl,rfl⟩ h₁) hfi) ?_
  rintro next w₂ ⟨h₂,hp⟩
  rw [if_pos hp]
  exact ⟨h₂,.inl rfl⟩

theorem unknown_runLifecycle (hc : c.Sees) (h : w.Unknown request log) (hu : w.locked = false)
    (hv : validateRequest ag request = .ok ()) :
    Refuses request c log (fun _ _ => False) (runLifecycle ag pid request) w := by
  have hf := @framed_unknown request c log
  refine hf.runLifecycle h hu hv fun w' hs => ?_
  refine Serves.mono (fun _ hk => hk) (fun _ _ hfa => hfa.elim) ?_
    (unknown_runLocked hc (hf.quiet _ _ hs h))
  rintro e w₁ ⟨h₁,he⟩
  exact ⟨h₁,fun w₂ hs₂ => ⟨hf.quiet _ _ hs₂ h₁,he⟩⟩

/-- The run is killed, or says that the result is unknown, or reports what it failed at. -/
def Refused (course : Course) : Option (Except LifecycleError LifecycleRunnerState) → Prop
  | none => course.Kills
  | some (.error e) => e = .indeterminate ∨ course.Fails e
  | some (.ok _) => False

theorem refused_runCall {pid : ℕ} (hc : c.Sees) (h : w.Unknown request log)
    (hv : validateRequest ag request = .ok ()) :
    Refused c (runCall ag request pid c w).1 ∧
      (runCall ag request pid c w).2.Unknown request log := by
  refine Serves.serve (P := fun r (w : World) => Refused c r ∧ w.Unknown request log) ?_
  exact Serves.mono (fun _ => And.symm) (fun _ _ => False.elim) (fun _ _ => And.symm)
    (unknown_runLifecycle hc (h.of_same ⟨rfl,rfl⟩) rfl hv)

theorem unknown_performAll (h : w.Unknown request log)
    (hv : validateRequest ag request = .ok ()) {calls : List Call}
    (hc : ∀ call ∈ calls, call.Sees) : (performAll ag request w calls).Unknown request log := by
  induction calls generalizing w with
  | nil => exact h
  | cons call xs ih =>
    obtain ⟨hca,hxs⟩ := forall_mem_cons.mp hc
    refine ih ?_ hxs
    cases call with
    | run pid c => exact (refused_runCall hca h hv).2
    | cancel polls c =>
      exact h.of_same (AsksQuietly.kept (asksQuietly_cancelLifecycle polls))

end

/-- The last run was interrupted while a one-time group was recorded as running. -/
def World.Interrupted (w : World) : Prop :=
  ∃ state, w.file = some state ∧ state.phase = .running ∧
    (currentStage state).any (·.isOneTime) = true

/-- Over any history of calls that can look for the checkpoint, every group is started at
most once and in the order of the plan, when all groups before it have succeeded. After an
interruption no later run starts anything, and it returns that the result is unknown unless
it is killed or one of its own accesses, writes or its lock fails. -/
theorem once_in_order (agent : Agent) (request : LifecycleRunRequest) (calls : List Call)
    (hcalls : ∀ call ∈ calls, call.Sees) :
    (starts (performAll agent request World.fresh calls).log).Nodup ∧
      InOrder request (performAll agent request World.fresh calls).log ∧
      ((performAll agent request World.fresh calls).Interrupted → ∀ later pid course,
          (∀ call ∈ later, call.Sees) → course.Sees →
          (runCall agent request pid course
              (performAll agent request World.fresh (calls++later))).2.log =
            (performAll agent request World.fresh calls).log ∧
          Refused course (runCall agent request pid course
            (performAll agent request World.fresh (calls++later))).1) := by
  have he : World.fresh.Recorded request := by
    rfl
  have hr := @recorded_performAll agent request _ he _ hcalls
  refine ⟨hr.inOrder.2,hr.inOrder.1,?_⟩
  rintro ⟨state,hf,hp,ho⟩ later pid course hla hco
  have hu : (performAll agent request World.fresh calls).Unknown request
      (performAll agent request World.fresh calls).log :=
    ⟨rfl,state,hf,(hr.fits hf).plan,.inr ⟨hp,ho⟩⟩
  have hv := valid_of_file hf
  have hl := unknown_performAll hu hv hla
  rw [performAll,foldl_append]
  obtain ⟨hre,ha⟩ := @refused_runCall agent request course _ _ pid hco hl hv
  exact ⟨ha.1,hre⟩

section sample

def killedCourse : Course := fun n => if n = 9 then { fate := .killedAfter } else {}

/-- A run that is killed while its command executes. -/
def killedRun : Call := .run 7 killedCourse

theorem once_in_order_killedRun :
    (performAll sampleAgent sampleRequest World.fresh [killedRun]).Interrupted ∧
      Refused (fun _ => {}) (runCall sampleAgent sampleRequest 8 (fun _ => {})
        (performAll sampleAgent sampleRequest World.fresh ([killedRun]++[killedRun]))).1 := by
  have hi : (performAll sampleAgent sampleRequest World.fresh [killedRun]).Interrupted :=
    ⟨_,rfl,rfl,rfl⟩
  have hs : ∀ call ∈ [killedRun], call.Sees := by
    intro call hc
    rw [mem_singleton.mp hc]
    intro n
    unfold killedCourse
    split <;> rfl
  have ho := (once_in_order sampleAgent sampleRequest [killedRun] hs).2.2 hi [killedRun] 8
    (fun _ => {}) hs fun _ => rfl
  exact ⟨hi,ho.2⟩

/-- A run that cannot look for the checkpoint overwrites it and starts again. -/
example : (starts (performAll sampleAgent sampleRequest World.fresh
    [killedRun,.run 8 fun _ => { stateUnseen := true }]).log).length = 2 := rfl

/-- A later run that cannot record the interruption does not say that the result is unknown. -/
theorem interruption_not_recorded :
    (performAll sampleAgent sampleRequest World.fresh [killedRun]).Interrupted ∧
      (runCall sampleAgent sampleRequest 8 (fun _ => { writeFailure := some .write })
        (performAll sampleAgent sampleRequest World.fresh [killedRun])).1 =
          some (.error .stateIo) :=
  ⟨⟨_,rfl,rfl,rfl⟩,rfl⟩

end sample
end Cdenv.AgentLifecycle
