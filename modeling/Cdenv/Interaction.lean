import Mathlib.Data.List.Basic

/-!
# Programs that question the outside

What answers a program is no part of it. What holds along every branch of the program holds
against every outside. Where the answers come from a state that the questions change, a server
answers.
-/
namespace Cdenv.Interaction
open List
universe u v w

/-- A program asks questions one at a time; each answer decides how it goes on, until it returns
or fails. -/
inductive Program {Q : Type u} (A : Q → Type v) (ε : Type w) (α : Type v) where
  | done (result : Except ε α)
  | ask (q : Q) (next : A q → Program A ε α)

abbrev Event {Q : Type u} (A : Q → Type v) := (q : Q) × A q

abbrev Conversation {Q : Type u} (A : Q → Type v) := List (Event A)

/-- An outside that may do anything is a function of the whole conversation so far. -/
abbrev Outside {Q : Type u} (A : Q → Type v) := Conversation A → (q : Q) → A q

/-- Every event stands in this relation to the events before it. -/
def Throughout {ω : Type*} (P : List ω → ω → Prop) (h : List ω) : Prop :=
  ∀ before e after, h = before++e::after → P before e

section
variable {ω : Type*} {P : List ω → ω → Prop}

theorem throughout_nil : Throughout P [] := by
  intro bef e aft h
  simp at h

theorem throughout_concat {h : List ω} {e : ω} :
    Throughout P (h++[e]) ↔ Throughout P h ∧ P h e := by
  constructor
  · intro ha
    constructor
    · rintro bef e' aft rfl
      exact ha bef e' (aft++[e]) (by simp)
    · exact ha h e [] rfl
  · rintro ⟨hb,hl⟩ bef e' aft heq
    rcases eq_nil_or_concat aft with rfl | ⟨xs,l,rfl⟩
    · obtain ⟨rfl,h'⟩ := append_inj' heq rfl
      cases h'
      exact hl
    · have hs : h++[e] = (bef++e'::xs)++[l] := by simpa using heq
      exact hb bef e' xs (append_inj' hs rfl).1

end

namespace Program
variable {Q : Type u} {A : Q → Type v} {ε : Type w} {α β : Type v}

def andThen : Program A ε α → (α → Program A ε β) → Program A ε β
  | .done (.ok a), f => f a
  | .done (.error e), _ => .done (.error e)
  | .ask q next, f => .ask q fun a => (next a).andThen f

instance : Monad (Program A ε) where
  pure a := .done (.ok a)
  bind := andThen

def call (q : Q) : Program A ε (A q) := .ask q fun a => .done (.ok a)

def fail (e : ε) : Program A ε α := .done (.error e)

/-- An answer that reports a failure ends the program. -/
def expect {E : Type v} (m : Program A ε (Except E α)) (failure : E → ε) : Program A ε α := do
  match ← m with
  | .ok a => pure a
  | .error e => fail (failure e)

/-- Go on with the result, be it a failure. -/
def attempt {ε : Type v} {ε' : Type w} : Program A ε α → Program A ε' (Except ε α)
  | .done result => .done (.ok result)
  | .ask q next => .ask q fun a => (next a).attempt

/-- Ask the question last, whatever the program comes to. -/
def always (last : Q) : Program A ε α → Program A ε α
  | .done result => .ask last fun _ => .done result
  | .ask q next => .ask q fun a => (next a).always last

/-- The conversation and the result, from the conversation before. -/
def talk (outside : Outside A) : Program A ε α → Conversation A → Except ε α × Conversation A
  | .done result, h => (result, h)
  | .ask q next, h => talk outside (next (outside h q)) (h++[⟨q,outside h q⟩])

/-- The result where a question always has the same answer. -/
def answered (answer : (q : Q) → A q) : Program A ε α → Except ε α
  | .done result => result
  | .ask q next => answered answer (next (answer q))

variable {m : Program A ε α} {f : α → Program A ε β}

theorem answered_bind {an : (q : Q) → A q} :
    answered an (m >>= f) = answered an m >>= fun a => answered an (f a) := by
  induction m with
  | done r => cases r <;> rfl
  | ask q next ih => exact ih _

/-- Whatever is answered, the program returns with a conversation of the first kind or
fails with one of the second. -/
def Ensures (I : α → Conversation A → Prop) (F : ε → Conversation A → Prop) :
    Program A ε α → Conversation A → Prop
  | .done (.ok a), h => I a h
  | .done (.error e), h => F e h
  | .ask q next, h => ∀ a, Ensures I F (next a) (h++[⟨q,a⟩])

section
variable {I : α → Conversation A → Prop} {F : ε → Conversation A → Prop}
variable {m : Program A ε α} {h : Conversation A}
variable {J : β → Conversation A → Prop} {f : α → Program A ε β} {a : α}

theorem ensures_pure : Ensures I F (pure a) h ↔ I a h := Iff.rfl

variable {q : Q}

theorem ensures_call {I : A q → Conversation A → Prop} :
    Ensures I F (call q) h ↔ ∀ a, I a (h++[⟨q,a⟩]) := Iff.rfl

theorem ensures_bind :
    Ensures J F (m >>= f) h ↔ Ensures (fun a h => Ensures J F (f a) h) F m h := by
  induction m generalizing h with
  | done r => cases r <;> exact Iff.rfl
  | ask q next ih => exact forall_congr' fun a => ih a

variable {I' : α → Conversation A → Prop} {F' : ε → Conversation A → Prop}

theorem Ensures.mono (hI : ∀ a h, I a h → I' a h) (hF : ∀ e h, F e h → F' e h)
    (hm : Ensures I F m h) : Ensures I' F' m h := by
  induction m generalizing h with
  | done r =>
    cases r with
    | ok a => exact hI a h hm
    | error e => exact hF e h hm
  | ask q next ih => exact fun a => ih a (hm a)

theorem Ensures.bind (hm : Ensures I F m h) (hf : ∀ a h, I a h → Ensures J F (f a) h) :
    Ensures J F (m >>= f) h :=
  ensures_bind.mpr (hm.mono hf fun _ _ hfa => hfa)

theorem Ensures.and (hm : Ensures I F m h) (hm' : Ensures I' F' m h) :
    Ensures (fun a h => I a h ∧ I' a h) (fun e h => F e h ∧ F' e h) m h := by
  induction m generalizing h with
  | done r => cases r <;> exact ⟨hm,hm'⟩
  | ask q next ih => exact fun a => ih a (hm a) (hm' a)

variable {E : Type v}

theorem ensures_expect {m : Program A ε (Except E α)} {fl : E → ε}
    (hm : Ensures (fun an h => (∀ a, an = .ok a → I a h) ∧
      ∀ e, an = .error e → F (fl e) h) F m h) : Ensures I F (expect m fl) h := by
  refine hm.bind ?_
  rintro (e | a) h ⟨hok,he⟩
  · exact he e rfl
  · exact hok a rfl

end

variable {h : Conversation A}

theorem ensures_attempt {ε : Type v} {ε' : Type w} {m : Program A ε α}
    {I : Except ε α → Conversation A → Prop} {F : ε' → Conversation A → Prop} :
    Ensures I F m.attempt h ↔ Ensures (fun a => I (.ok a)) (fun e => I (.error e)) m h := by
  induction m generalizing h with
  | done r => cases r <;> exact Iff.rfl
  | ask q next ih => exact forall_congr' fun a => ih a

theorem ensures_extends (m : Program A ε α) (h : Conversation A) :
    Ensures (fun _ h' => ∃ more, h' = h++more) (fun _ h' => ∃ more, h' = h++more) m h := by
  induction m generalizing h with
  | done r => cases r <;> exact ⟨[],(append_nil h).symm⟩
  | ask q next ih =>
    intro a
    refine (ih a (h++[⟨q,a⟩])).mono ?_ ?_
    all_goals
      rintro - _ ⟨more,rfl⟩
      exact ⟨⟨q,a⟩::more,by rw [append_assoc,singleton_append]⟩

theorem Ensures.extends {I : α → Conversation A → Prop} {F : ε → Conversation A → Prop}
    (hm : Ensures I F m h) : Ensures (fun a h' => I a h' ∧ ∃ more, h' = h++more) F m h :=
  (hm.and (ensures_extends m h)).mono (fun _ _ hb => hb) fun _ _ hb => hb.1

section
variable {m : Program A ε α} {h : Conversation A} {outside : Outside A}

/-- What every branch ensures holds against every outside. -/
theorem Ensures.talk {P : Except ε α → Conversation A → Prop} (outside : Outside A)
    (hm : Ensures (fun a => P (.ok a)) (fun e => P (.error e)) m h) :
    P (Program.talk outside m h).1 (Program.talk outside m h).2 := by
  induction m generalizing h with
  | done r =>
    cases r with
    | ok a | error e => exact hm
  | ask q next ih => exact ih _ (hm _)

/-- The conversation is the one this outside holds. -/
def Answers (outside : Outside A) (h : Conversation A) : Prop :=
  Throughout (fun before e => outside before e.1 = e.2) h

theorem answers_talk (hb : Answers outside h) : Answers outside (Program.talk outside m h).2 := by
  induction m generalizing h with
  | done r => exact hb
  | ask q next ih => exact ih _ (throughout_concat.mpr ⟨hb,rfl⟩)

/-- One branch of the program: these answers lead to this result. -/
inductive Runs : Program A ε α → Conversation A → Except ε α → Prop
  | done (result : Except ε α) : Runs (.done result) [] result
  | ask {q : Q} {next : A q → Program A ε α} {a : A q} {rest : Conversation A}
      {result : Except ε α} (h : Runs (next a) rest result) :
      Runs (.ask q next) (⟨q,a⟩::rest) result

variable {xs : Conversation A} {r : Except ε α} {f : α → Program A ε β}

theorem runs_talk (outside : Outside A) (m : Program A ε α) (h : Conversation A) :
    ∃ xs, (Program.talk outside m h).2 = h++xs ∧ Runs m xs (Program.talk outside m h).1 := by
  induction m generalizing h with
  | done r => exact ⟨[],by rw [Program.talk,append_nil],.done r⟩
  | ask q next ih =>
    obtain ⟨xs,ht,hr⟩ := ih (outside h q) (h++[⟨q,outside h q⟩])
    refine ⟨⟨q,outside h q⟩::xs,?_,.ask hr⟩
    rw [Program.talk,ht,append_assoc,singleton_append]

theorem runs_done {last : Except ε α} : Runs (A := A) (.done last) xs r ↔ xs = [] ∧ r = last := by
  constructor
  · intro hr
    cases hr
    exact ⟨rfl,rfl⟩
  · rintro ⟨rfl,rfl⟩
    exact .done _

theorem runs_pure : Runs (pure a) xs r ↔ xs = [] ∧ r = .ok a := runs_done

theorem runs_fail {e : ε} : Runs (fail e) xs r ↔ xs = [] ∧ r = .error e := runs_done

theorem runs_call {r : Except ε (A q)} : Runs (call q) xs r ↔ ∃ a, xs = [⟨q,a⟩] ∧ r = .ok a := by
  constructor
  · intro hr
    cases hr with
    | ask hd =>
      cases hd
      exact ⟨_,rfl,rfl⟩
  · rintro ⟨a,rfl,rfl⟩
    exact .ask (.done _)

theorem runs_bind_ok {b : β} : Runs (m >>= f) xs (.ok b) ↔ ∃ a fst snd, xs = fst++snd ∧
      Runs m fst (.ok a) ∧ Runs (f a) snd (.ok b) := by
  induction m generalizing xs with
  | done r =>
    cases r with
    | ok a =>
      constructor
      · intro hr
        exact ⟨a,[],xs,rfl,.done _,hr⟩
      · rintro ⟨_,_,_,rfl,⟨⟩,hr⟩
        exact hr
    | error e =>
      constructor
      · exact nofun
      · rintro ⟨_,_,_,_,⟨⟩,_⟩
  | ask q next ih =>
    constructor
    · intro hr
      cases hr with
      | ask hn =>
        obtain ⟨a,fst,snd,rfl,hf,hs⟩ := (ih _).mp hn
        exact ⟨a,_::fst,snd,rfl,.ask hf,hs⟩
    · rintro ⟨a,fst,snd,rfl,hf,hs⟩
      cases hf with
      | ask hn => exact .ask ((ih _).mpr ⟨a,_,snd,rfl,hn,hs⟩)

theorem runs_expect_ok {m : Program A ε (Except E α)} {fl : E → ε} :
    Runs (expect m fl) xs (.ok a) ↔ Runs m xs (.ok (.ok a)) := by
  unfold expect
  rw [runs_bind_ok]
  constructor
  · rintro ⟨an,fst,snd,rfl,hf,hs⟩
    cases an with
    | ok b =>
      obtain ⟨rfl,hb⟩ := runs_pure.mp hs
      cases hb
      rwa [append_nil]
    | error e => cases (runs_fail.mp hs).2
  · intro hr
    exact ⟨.ok a,xs,[],(append_nil xs).symm,hr,.done _⟩

/-- An outside that gives a branch's answers takes the program down that branch. -/
theorem Runs.talk (hr : Runs m xs r) (ha : Answers outside (h++xs)) :
    Program.talk outside m h = (r, h++xs) := by
  induction hr generalizing h with
  | done r => rw [append_nil,Program.talk]
  | @ask q next a xs r hr ih =>
    have hf := ha h ⟨q,a⟩ xs rfl
    rw [← singleton_append,← append_assoc] at ha ⊢
    rw [Program.talk,hf]
    exact ih ha

end

/-- As long as its answers are of the one kind the program asks only questions of the other,
and what it then returns is as said. -/
def Abides (P : (q : Q) → A q → Prop) (S : Q → Prop) (R : α → Prop) : Program A ε α → Prop
  | .done (.ok a) => R a
  | .done (.error _) => True
  | .ask q next => S q ∧ ∀ a, P q a → Abides P S R (next a)

section
variable {P : (q : Q) → A q → Prop} {S : Q → Prop} {R : α → Prop} {T : β → Prop}
variable {m : Program A ε α} {f : α → Program A ε β}

theorem abides_fail {e : ε} : Abides P S R (fail e) := trivial

theorem abides_call {R : A q → Prop} (hq : S q) (ha : ∀ a, P q a → R a) :
    Abides P S R (call q : Program A ε (A q)) :=
  ⟨hq,ha⟩

theorem Abides.bind (hm : Abides P S R m) (hf : ∀ a, R a → Abides P S T (f a)) :
    Abides P S T (m >>= f) := by
  induction m with
  | done r =>
    cases r with
    | ok a => exact hf a hm
    | error e => trivial
  | ask q next ih => exact ⟨hm.1,fun a ha => ih a (hm.2 a ha)⟩

theorem abides_expect {m : Program A ε (Except E α)} {fl : E → ε}
    (hm : Abides P S (fun an => ∀ a, an = .ok a → R a) m) :
    Abides P S R (expect m fl) := by
  refine hm.bind fun an ha => ?_
  cases an with
  | error e => trivial
  | ok a => exact ha a rfl

theorem Abides.always {l : Q} (hm : Abides P S R m) (hl : S l) : Abides P S R (m.always l) := by
  induction m with
  | done r =>
    cases r with
    | ok a => exact ⟨hl,fun _ _ => hm⟩
    | error e => exact ⟨hl,fun _ _ => trivial⟩
  | ask q next ih => exact ⟨hm.1,fun a ha => ih a (hm.2 a ha)⟩

/-- If all answers are of the one kind, so are the questions of the other. -/
theorem Abides.asks {outside : Outside A} (hm : Abides P S R m) (hb : ∀ e ∈ h, S e.1)
    (ha : ∀ e ∈ (talk outside m h).2, P e.1 e.2) : ∀ e ∈ (talk outside m h).2, S e.1 := by
  induction m generalizing h with
  | done r => exact hb
  | ask q next ih =>
    have han : P q (outside h q) := by
      apply ha ⟨q,outside h q⟩
      obtain ⟨xs,ht,_⟩ := runs_talk outside (next (outside h q)) (h++[⟨q,outside h q⟩])
      rw [talk,ht]
      simp
    exact ih _ (hm.2 _ han) (forall_mem_append.mpr ⟨hb,forall_mem_singleton.mpr hm.1⟩) ha

end

/-- The answer, unless the program is cut off, and the state that the question leaves. -/
abbrev Server (σ : Type*) (A : Q → Type v) := (q : Q) → σ → Option (A q) × σ

section served
variable {σ : Type*} {srv : Server σ A} {s t : σ}

/-- Where a question is left unanswered, the program is cut off, as by a crash, with whatever the
question has done to the state. -/
def serve (server : Server σ A) : Program A ε α → σ → Option (Except ε α) × σ
  | .done result, s => (some result, s)
  | .ask q next, s =>
    match server q s with
    | (some a, t) => serve server (next a) t
    | (none, t) => (none, t)

theorem serve_ask {next : A q → Program A ε α} : serve srv (.ask q next) s =
    match srv q s with
    | (some a, t) => serve srv (next a) t
    | (none, t) => (none, t) := by
  rw [serve]

theorem serve_bind : serve srv (m >>= f) s =
    match serve srv m s with
    | (some (.ok a), t) => serve srv (f a) t
    | (some (.error e), t) => (some (.error e), t)
    | (none, t) => (none, t) := by
  induction m generalizing s with
  | done r => cases r <;> rfl
  | ask q next ih =>
    change serve srv (.ask q fun a => next a >>= f) s = _
    rw [serve_ask,serve_ask]
    cases srv q s with
    | mk an t =>
      cases an with
      | some a => exact ih a
      | none => rfl

/-- The program is cut off in a state of the first kind, or returns in one of the second, or
fails in one of the third. -/
def Serves (server : Server σ A) (K : σ → Prop) (I : α → σ → Prop) (F : ε → σ → Prop)
    (m : Program A ε α) (s : σ) : Prop :=
  match serve server m s with
  | (some (.ok a), t) => I a t
  | (some (.error e), t) => F e t
  | (none, t) => K t

variable {K : σ → Prop} {I : α → σ → Prop} {J : β → σ → Prop} {F : ε → σ → Prop}
variable {m : Program A ε α} {f : α → Program A ε β}

theorem Serves.serve {P : Option (Except ε α) → σ → Prop}
    (h : Serves srv (P none) (fun a => P (some (.ok a))) (fun e => P (some (.error e))) m s) :
    P (Program.serve srv m s).1 (Program.serve srv m s).2 := by
  unfold Serves at h
  split at h
  all_goals next hs =>
      rw [hs]
      exact h

variable {F' : ε → σ → Prop}

theorem Serves.mono {K' : σ → Prop} {I' : α → σ → Prop} (hK : ∀ t, K t → K' t)
    (hI : ∀ a t, I a t → I' a t) (hF : ∀ e t, F e t → F' e t) (h : Serves srv K I F m s) :
    Serves srv K' I' F' m s := by
  unfold Serves at h ⊢
  split at h
  · exact hI _ _ h
  · exact hF _ _ h
  · exact hK _ h

theorem serves_pure : Serves srv K I F (pure a) s ↔ I a s := Iff.rfl

theorem serves_call {I : A q → σ → Prop} : Serves srv K I F (call q) s ↔
      match srv q s with
      | (some a, t) => I a t
      | (none, t) => K t := by
  unfold Serves call
  rw [serve_ask]
  cases srv q s with
  | mk an t => cases an <;> exact Iff.rfl

theorem serves_bind : Serves srv K J F (m >>= f) s ↔
      Serves srv K (fun a t => Serves srv K J F (f a) t) F m s := by
  unfold Serves
  rw [serve_bind]
  rcases serve srv m s with ⟨_ | _ | _,t⟩ <;> exact Iff.rfl

theorem Serves.bind (hm : Serves srv K I F m s)
    (hf : ∀ a t, I a t → Serves srv K J F (f a) t) : Serves srv K J F (m >>= f) s :=
  serves_bind.mpr (hm.mono (fun _ h => h) hf fun _ _ h => h)

theorem Serves.fails (h : Serves srv K I F m s) (hF : ∀ e t, F e t → F' e t) :
    Serves srv K I F' m s :=
  h.mono (fun _ h => h) (fun _ _ h => h) hF

theorem serves_expect {m : Program A ε (Except E α)} {fl : E → ε}
    (h : Serves srv K (fun an t => (∀ a, an = .ok a → I a t) ∧
      ∀ e, an = .error e → F (fl e) t) F m s) :
    Serves srv K I F (expect m fl) s := by
  refine h.bind ?_
  rintro (e | a) t ⟨hok,he⟩
  · exact he e rfl
  · exact hok a rfl

/-- What holds whatever is answered. -/
theorem Serves.expect {P : σ → Prop} {m : Program A ε (Except E α)} {e : E → ε}
    (h : Serves srv K (fun _ => P) (fun _ => P) m s) :
    Serves srv K (fun _ => P) (fun _ => P) (expect m e) s :=
  serves_expect (h.mono (fun _ h => h) (fun _ _ h => ⟨fun _ _ => h,fun _ _ => h⟩) fun _ _ h => h)

/-- A property of the state that the questions of the one kind keep, with answers of the
other. -/
theorem Abides.serves {P : (q : Q) → A q → Prop} {S : Q → Prop} {R : α → Prop} {J : σ → Prop}
    (hm : Abides P S R m) (hs : J s)
    (hse : ∀ q s, S q → J s → J (srv q s).2 ∧ ∀ a, (srv q s).1 = some a → P q a) :
    Serves srv J (fun a s => R a ∧ J s) (fun _ => J) m s := by
  induction m generalizing s with
  | done r =>
    cases r with
    | ok a => exact ⟨hm,hs⟩
    | error e => exact hs
  | ask q next ih =>
    have hn := hse q s hm.1 hs
    unfold Serves
    rw [serve_ask]
    cases ha : srv q s with
    | mk an t =>
      rw [ha] at hn
      cases an with
      | some a => exact ih a (hm.2 a (hn.2 a rfl)) hn.1
      | none => exact hn.1

theorem serves_always {l : Q} (h : Serves srv K (fun a t => Serves srv K (fun _ => I a) F
      (call l) t) (fun e t => Serves srv K (fun _ => F e) F (call l) t) m s) :
    Serves srv K I F (m.always l) s := by
  induction m generalizing s with
  | done r =>
    unfold Program.always Serves
    rw [serve_ask]
    cases r with
    | ok _ | error _ =>
      have h := serves_call.mp h
      cases hs : srv l s with
      | mk an t => rw [hs] at h; cases an <;> exact h
  | ask q next ih =>
    unfold Program.always
    unfold Serves at h ⊢
    rw [serve_ask] at h ⊢
    cases hs : srv q s with
    | mk an t =>
      rw [hs] at h
      cases an with
      | some a => exact ih a h
      | none => exact h

theorem serves_forM {ι : Type*} {J : σ → Prop} {f : ι → Program A ε PUnit} {l : List ι}
    (hf : ∀ i ∈ l, ∀ t, J t → Serves srv K (fun _ => J) F (f i) t) (hs : J s) :
    Serves srv K (fun _ => J) F (l.forM f) s := by
  induction l generalizing s with
  | nil => exact hs
  | cons i xs ih =>
    change Serves srv K _ F (f i >>= fun _ => xs.forM f) s
    rw [serves_bind]
    have hi := hf i mem_cons_self s hs
    have hr := (forall_mem_cons.mp hf).2
    exact hi.mono (fun _ ht => ht) (fun _ t ht => ih hr ht) fun _ _ ht => ht

theorem serves_attempt {ε : Type v} {ε' : Type w} {m : Program A ε α} {s : σ}
    {I : Except ε α → σ → Prop} {F : ε' → σ → Prop} :
    Serves srv K I F m.attempt s ↔
      Serves srv K (fun a => I (.ok a)) (fun e => I (.error e)) m s := by
  induction m generalizing s with
  | done r => cases r <;> exact Iff.rfl
  | ask q next ih =>
    unfold Serves Program.attempt
    rw [serve_ask,serve_ask]
    cases srv q s with
    | mk an t =>
      cases an with
      | some a => exact ih a
      | none => exact Iff.rfl

end served

end Program
end Cdenv.Interaction
