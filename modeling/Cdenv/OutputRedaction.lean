import Cdenv.BoundedLoop
import Cdenv.TextScan
import Mathlib.Data.List.Destutter
import Mathlib.Data.List.Lex
import Mathlib.Data.List.Sort
import Mathlib.Data.Prod.Lex

/-!
# Redaction of captured output

The output of a process comes in chunks. A secret is replaced as soon as it is there,
also where it is only the beginning of a longer one. So the result depends on the chunks exactly
if one secret begins another.

The text that an environment value reads as, with replacements for what is not UTF-8, is a
parameter.
-/
namespace Cdenv.OutputRedaction
open List

structure EnvironmentVariable where
  value : Bytes
  sensitive : Bool

structure ProcessRequest where
  redactions : List Bytes
  environment : List EnvironmentVariable

/-- The secrets, none of them empty, from the longest to the shortest. -/
structure Redactions where
  values : List Bytes
  nonempty : [] ∉ values
  sorted : values.Pairwise fun left right => right.length ≤ left.length

/-- Longer values come first, and values of one length in their order. -/
def sortKey (value : Bytes) : ℕᵒᵈ ×ₗ List ℕ :=
  toLex (OrderDual.toDual value.length, value.map UInt8.toNat)

/-- The texts to hide, without repetitions. -/
def collectRedactions (toStringLossy : Bytes → Bytes) (request : ProcessRequest) : Redactions where
  values :=
    let values := request.redactions.filter (· ≠ []) ++
      ((request.environment.filter (·.sensitive)).map (toStringLossy ·.value)).filter (· ≠ [])
    (values.insertionSort fun left right => sortKey left ≤ sortKey right).destutter (· ≠ ·)
  nonempty hmem := by
    have hvalue := (destutter_sublist _ _).subset hmem
    simp at hvalue
  sorted := by
    refine ((pairwise_insertionSort _ _).sublist (destutter_sublist _ _)).imp ?_
    intro left right hle
    rcases Prod.Lex.le_iff.mp hle with hlt | heq
    · exact le_of_lt (OrderDual.toDual_lt_toDual.mp hlt)
    · exact le_of_eq (OrderDual.toDual_inj.mp heq.1).symm

def marker : Bytes := [91,82,69,68,65,67,84,69,68,93]

section
variable (secrets : Redactions) (eof : Bool)

/-- What may still become a secret is held back, and the longest secret at the front is replaced
by a marker. -/
def redactStep (s : Bytes × Bytes) : (Bytes × Bytes) ⊕ (Bytes × Bytes) :=
  match secrets.values.find? (· <+: s.2), s.2 with
  | some secret, _ => .inl (s.1++marker, s.2.drop secret.length)
  | none, [] => .inr s
  | none, byte::rest =>
    if !eof && secrets.values.any (s.2 <+: ·) then .inr s else .inl (s.1++[byte], rest)

variable {secrets} in
theorem of_find? {pending sec : Bytes} (h : secrets.values.find? (· <+: pending) = some sec) :
    sec ∈ secrets.values ∧ sec <+: pending :=
  ⟨mem_of_find?_eq_some h,by simpa using find?_some h⟩

def redactLoop : Loop (Bytes × Bytes) (Bytes × Bytes) where
  step := redactStep secrets eof
  measure s := s.2.length
  decreases := by
    intro s t h
    unfold redactStep at h
    split at h
    · next hfind =>
      cases h
      obtain ⟨hmem,hpre⟩ := of_find? hfind
      have hle := hpre.length_le
      have hpositive := length_pos_iff.mpr (ne_of_mem_of_not_mem hmem secrets.nonempty)
      simp only [length_drop]
      omega
    · cases h
    · next byte rest _ hpending =>
      split_ifs at h
      cases h
      rw [hpending]
      exact Nat.lt_succ_self _

/-- The output of one call, and what stays pending. -/
def redactChunk (bytes pending : Bytes) : Bytes × Bytes :=
  if secrets.values.isEmpty then (pending++bytes, [])
  else (redactLoop secrets eof).run ([], pending++bytes)

/-- The outputs of all calls: one for every chunk and the last one at the end of the stream. -/
def redactStream (pending : Bytes) : List Bytes → Bytes
  | [] => (redactChunk secrets true [] pending).1
  | chunk::rest =>
    (redactChunk secrets false chunk pending).1 ++
      redactStream (redactChunk secrets false chunk pending).2 rest

/-- Every leftmost-longest occurrence of a secret in the stream is replaced. -/
inductive Redacted : Bytes → Bytes → Prop
  | done : Redacted [] []
  | secret {secret rest output : Bytes} (hmem : secret ∈ secrets.values)
      (hlongest : ∀ other ∈ secrets.values, other <+: secret++rest → other.length ≤ secret.length)
      (hrest : Redacted rest output) : Redacted (secret++rest) (marker++output)
  | byte {byte : UInt8} {rest output : Bytes} (hnone : ∀ other ∈ secrets.values,
      ¬ other <+: byte::rest) (hrest : Redacted rest output) :
      Redacted (byte::rest) (byte::output)

def PrefixFree : Prop :=
  ∀ secret ∈ secrets.values, ∀ other ∈ secrets.values, secret <+: other → secret = other

end

variable {secs : Redactions} {eof : Bool}

theorem Redacted.ne_nil {str out : Bytes} (h : Redacted secs str out)
    (hs : str ≠ []) : out ≠ [] := by
  cases h with
  | done => exact (hs rfl).elim
  | secret => simp [marker]
  | byte => simp

theorem Redacted.unique {str out other : Bytes} (h : Redacted secs str out)
    (h' : Redacted secs str other) : out = other := by
  induction h generalizing other with
  | done =>
    generalize hs : [] = str at h'
    cases h' with
    | done => rfl
    | secret hm =>
      rw [(nil_eq_append_iff.mp hs).1] at hm
      exact (secs.nonempty hm).elim
    | byte => cases hs
  | @secret secret xs out hm hl hr ih =>
    generalize hs : secret++xs = str at h'
    cases h' with
    | done =>
      rw [(append_eq_nil_iff.mp hs).1] at hm
      exact (secs.nonempty hm).elim
    | @secret secret' xs' out' hm' hl' hr' =>
      have hle := le_antisymm (hl' secret hm ⟨xs,hs⟩) (hl secret' hm' ⟨xs',hs.symm⟩)
      obtain ⟨rfl,rfl⟩ := append_inj hs hle
      rw [ih hr']
    | byte hn => exact (hn secret hm ⟨xs,hs⟩).elim
  | @byte byte xs out hn hr ih =>
    generalize hs : byte::xs = str at h'
    cases h' with
    | done => cases hs
    | @secret secret xs' _ hm => exact (hn secret hm ⟨xs',hs.symm⟩).elim
    | byte _ hr' =>
      cases hs
      rw [ih hr']

/-- What has come out of `stream` so far: whatever follows it, a redaction of what is pending
completes one of the whole. At the end of the stream nothing follows. -/
def Progress (secrets : Redactions) (eof : Bool) (stream : Bytes) (s : Bytes × Bytes) : Prop :=
  ∀ tail output, (eof = true → tail = []) → Redacted secrets (s.2++tail) output →
    Redacted secrets (stream++tail) (s.1++output)

theorem Progress.step (hfr : PrefixFree secs) {str : Bytes} {s t : Bytes × Bytes}
    (h : Progress secs eof str s) (hs : redactStep secs eof s = .inl t) :
    Progress secs eof str t := by
  intro tl out ht hou
  unfold redactStep at hs
  split at hs
  · next hf =>
    cases hs
    obtain ⟨hm,xs,hr⟩ := of_find? hf
    rw [append_assoc]
    apply h tl _ ht
    rw [← hr,drop_left] at hou
    rw [← hr,append_assoc]
    refine .secret hm ?_ hou
    intro b ho hle
    -- both begin the same text, so that one of them begins the other
    rcases prefix_or_prefix_of_prefix hle (prefix_append _ _) with hle | hle
    · exact hle.length_le
    · exact (congrArg length (hfr _ hm b ho hle)).ge
  · cases hs
  · next byte xs hf hp =>
    split_ifs at hs with hw
    cases hs
    rw [append_assoc]
    apply h tl _ ht
    rw [hp]
    refine .byte ?_ hou
    intro b ho hle
    have hn := hp ▸ fun hle => find?_eq_none.mp hf b ho (decide_eq_true hle)
    rcases prefix_or_prefix_of_prefix hle (prefix_append (byte::xs) tl) with hle' | hle'
    · exact hn hle'
    · cases eof with
      | true =>
        rw [ht rfl] at hle
        exact hn (append_nil (byte::xs) ▸ hle)
      | false =>
        rw [hp] at hw
        exact hw (any_eq_true.mpr ⟨b,ho,decide_eq_true hle'⟩)

theorem progress_redactChunk (hf : PrefixFree secs) (bs pend : Bytes) :
    Progress secs eof (pend++bs) (redactChunk secs eof bs pend) ∧
      (eof = true → (redactChunk secs eof bs pend).2 = []) := by
  unfold redactChunk
  split_ifs with he
  · refine ⟨?_,fun _ => rfl⟩
    intro tl out _ ho
    induction pend++bs with
    | nil => exact ho
    | cons byte xs ih =>
      refine .byte ?_ ih
      intro b hot
      rw [isEmpty_iff.mp he] at hot
      cases hot
  · have hst : Progress secs eof (pend++bs) ([], pend++bs) := fun tl out _ ho => ho
    apply (redactLoop secs eof).run_invariant
      (Q := fun r => Progress secs eof (pend++bs) r ∧ (eof = true → r.2 = []))
      (fun s t h hs => h.step hf hs) _ hst
    intro s r h hs
    change redactStep secs eof s = .inr r at hs
    unfold redactStep at hs
    split at hs
    · cases hs
    · next hp =>
      cases hs
      exact ⟨h,fun _ => hp⟩
    · split_ifs at hs with hw
      cases hs
      refine ⟨h,fun heo => ?_⟩
      rw [heo] at hw
      cases hw

theorem redacted_redactStream (hf : PrefixFree secs) (cks : List Bytes) (pend : Bytes) :
    Redacted secs (pend++cks.flatten) (redactStream secs pend cks) := by
  induction cks generalizing pend with
  | nil =>
    obtain ⟨hp,hd⟩ := @progress_redactChunk _ true hf [] pend
    have hr := hp [] [] (fun _ => rfl)
    simp only [hd rfl,append_nil] at hr
    rw [flatten_nil,append_nil]
    exact hr .done
  | cons ck xs ih =>
    rw [flatten_cons,← append_assoc]
    exact (progress_redactChunk hf ck pend).1 _ _ nofun (ih _)

theorem find?_secret {secret : Bytes} (hm : secret ∈ secs.values) :
    secs.values.find? (· <+: secret) = some secret := by
  have hso : (secs.values.find? (· <+: secret)).isSome :=
    find?_isSome.mpr ⟨secret,hm,decide_eq_true prefix_rfl⟩
  obtain ⟨fs,hf⟩ := Option.isSome_iff_exists.mp hso
  obtain ⟨hp,bef,aft,hv,hb⟩ := find?_eq_some_iff_append.mp hf
  have hl : secret.length ≤ fs.length := by
    have hs := secs.sorted
    rw [hv] at hm hs
    rcases mem_append.mp hm with hm | hm
    · simpa using hb secret hm
    · rcases mem_cons.mp hm with rfl | hm
      · exact le_rfl
      · exact rel_of_pairwise_cons (pairwise_append.mp hs).2.1 hm
  rw [hf,(of_decide_eq_true hp).eq_of_length_le hl]

/-- A chunk that is a secret is replaced at once, whatever follows. -/
theorem redactChunk_secret {sec : Bytes} (hm : sec ∈ secs.values) :
    redactChunk secs eof sec [] = (marker, []) := by
  have hs : redactStep secs eof ([], sec) = .inl (marker, []) := by
    simp [redactStep,find?_secret hm]
  have hd : redactStep secs eof (marker, []) = .inr (marker, []) := by
    have hn : secs.values.find? (· <+: ([] : Bytes)) = none := by
      simpa using fun sec hm => ne_of_mem_of_not_mem hm secs.nonempty
    simp only [redactStep,hn]
  unfold redactChunk
  rw [if_neg fun he => not_mem_nil (isEmpty_iff.mp he ▸ hm)]
  exact ((redactLoop secs eof).run_next hs).trans ((redactLoop secs eof).run_done hd)

theorem redactStream_iff (toStringLossy : Bytes → Bytes) (request : ProcessRequest) :
    (∀ first second : List Bytes, first.flatten = second.flatten →
      redactStream (collectRedactions toStringLossy request) [] first =
          redactStream (collectRedactions toStringLossy request) [] second ∧
        Redacted (collectRedactions toStringLossy request) first.flatten
          (redactStream (collectRedactions toStringLossy request) [] first)) ↔
      PrefixFree (collectRedactions toStringLossy request) := by
  constructor
  · intro h sec hsc b ho hp
    obtain ⟨xs,rfl⟩ := hp
    have hs := (h [sec,xs] [sec++xs] (by simp)).1
    change _++redactStream _ _ [xs] = _++redactStream _ _ [] at hs
    rw [redactChunk_secret hsc,redactChunk_secret ho,append_right_inj] at hs
    by_contra hne
    have hr : xs ≠ [] := fun hn => hne (by simp [hn])
    exact (h [xs] [xs] rfl).2.ne_nil (by simpa using hr) (hs.trans ((h [] [] rfl).2.unique .done))
  · intro hfr first second hs
    have hf := redacted_redactStream hfr first []
    have hse := redacted_redactStream hfr second []
    rw [← hs] at hse
    exact ⟨hf.unique hse,hf⟩

/-- The chunks decide what comes out where one secret begins another. -/
theorem chunks_differ :
    redactStream (collectRedactions id ⟨[[97],[97,98]],[]⟩) [] [[97],[98]] = marker++[98] ∧
      redactStream (collectRedactions id ⟨[[97],[97,98]],[]⟩) [] [[97,98]] = marker := by
  decide

end Cdenv.OutputRedaction
