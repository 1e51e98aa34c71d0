import Cdenv.Fallible
import Cdenv.OrderedMap
import Cdenv.TextScan

/-!
# Credential grants

Enabling, adjusting and disabling return the changed grants, or the error with the
grants untouched. What is allowed after any sequence of operations is read off those of
them that succeeded.
-/
namespace Cdenv.Credentials
open TextScan Fallible

inductive CredentialCapability where
  | gitHttps | sshAgent | gitIdentity

inductive CredentialPolicyError where
  | originsRequired | httpsDisabled | tooManyOrigins | invalidSocketSelector
deriving DecidableEq

def maxHttpsOrigins : ℕ := 64

/-- The canonical text; how a URL is brought into it is left to the URL library. -/
abbrev HttpsOrigin := Text

/-- `auto`, or an absolute path in which no part is empty, `.` or `..`. -/
def isSelector (value : Text) : Bool :=
  value == "auto" ||
    (value.head? == some '/' && byteLength value ≤ 4096 && !value.any isControl &&
      (value.splitOn '/').tail.all fun part =>
        part != [] && part != "." && part != "..")

structure SshAgentSelector where
  value : Text
  valid : isSelector value = true
deriving DecidableEq

namespace SshAgentSelector

def automatic : SshAgentSelector := ⟨"auto",by decide +kernel⟩

def explicitPath (selector : SshAgentSelector) : Option Text :=
  if selector.value = "auto" then none else some selector.value

def fromStr (value : Text) : Except CredentialPolicyError SshAgentSelector :=
  if h : isSelector value = true then .ok ⟨value,h⟩ else .error .invalidSocketSelector

end SshAgentSelector

/-- The capabilities a user has consented to for one workspace: Git lookups for a list of exact
HTTPS origins, one selected SSH agent, and author identity defaults. -/
structure CredentialGrants where
  gitHttps : Option (OrderedSet HttpsOrigin)
  sshAgent : Option SshAgentSelector
  gitIdentity : Bool
deriving DecidableEq

namespace CredentialGrants

def none : CredentialGrants := ⟨Option.none,Option.none,false⟩

def enabled (grants : CredentialGrants) : CredentialCapability → Bool
  | .gitHttps => grants.gitHttps.isSome
  | .sshAgent => grants.sshAgent.isSome
  | .gitIdentity => grants.gitIdentity

def allows (grants : CredentialGrants) (origin : HttpsOrigin) : Bool :=
  grants.gitHttps.any fun origins => origins.contains origin

def isEmpty (grants : CredentialGrants) : Bool :=
  grants.gitHttps.isNone && grants.sshAgent.isNone && !grants.gitIdentity

def bounded (grants : CredentialGrants) : Bool :=
  grants.gitHttps.all fun origins => origins.size ≤ maxHttpsOrigins

def validate (grants : CredentialGrants) : Except CredentialPolicyError Unit :=
  require grants.bounded .tooManyOrigins

/-- The result of a method, and the grants that it leaves. -/
abbrev Outcome := Except CredentialPolicyError Unit × CredentialGrants

/-- The grants that a method leaves if it succeeds. -/
def Outcome.committed (outcome : Outcome) : Except CredentialPolicyError CredentialGrants :=
  outcome.1.map fun _ => outcome.2

def enableHttps (grants : CredentialGrants) (origins : List HttpsOrigin) : Outcome :=
  if grants.gitHttps.isNone && origins.isEmpty then (.error .originsRequired, grants)
  else
    let desired := OrderedSet.extend (grants.gitHttps.getD OrderedMap.empty) origins
    if desired.size > maxHttpsOrigins then (.error .tooManyOrigins, grants)
    else (.ok (), { grants with gitHttps := some desired })

/-- The origins that are not in the list, in their order. -/
def retainOthers (granted : OrderedSet HttpsOrigin) (origins : List HttpsOrigin) :
    OrderedSet HttpsOrigin :=
  ⟨granted.entries.filter fun p => !origins.contains p.1,granted.sorted.filter _⟩

def adjustOrigins (grants : CredentialGrants) (origins : List HttpsOrigin) (allow : Bool) :
    Outcome :=
  if grants.gitHttps.isNone then (.error .httpsDisabled, grants)
  else if origins.isEmpty then (.error .originsRequired, grants)
  else if allow then grants.enableHttps origins
  else (.ok (), { grants with gitHttps := grants.gitHttps.map (retainOthers · origins) })

def enableSshAgent (grants : CredentialGrants) (selector : SshAgentSelector) :
    CredentialGrants := { grants with sshAgent := some selector }

def enableIdentity (grants : CredentialGrants) : CredentialGrants :=
  { grants with gitIdentity := true }

def disable (grants : CredentialGrants) : CredentialCapability → CredentialGrants
  | .gitHttps => { grants with gitHttps := Option.none }
  | .sshAgent => { grants with sshAgent := Option.none }
  | .gitIdentity => { grants with gitIdentity := false }

variable {gs : CredentialGrants}

theorem allows_iff {o : HttpsOrigin} :
    gs.allows o = true ↔ ∃ os, gs.gitHttps = some os ∧ o ∈ os.keys := by
  simp only [allows,Option.any_eq_true,OrderedMap.contains_iff]

theorem validate_eq_ok : gs.validate = .ok () ↔ gs.bounded = true := by
  simp only [validate,require_eq_ok]

theorem size_retainOthers_le (gd : OrderedSet HttpsOrigin) (os : List HttpsOrigin) :
    (retainOthers gd os).size ≤ gd.size :=
  List.length_filter_le _ _

theorem bounded_disable (hg : gs.bounded = true) (cap : CredentialCapability)
    : (gs.disable cap).bounded = true := by
  cases cap with
  | gitHttps => rfl
  | sshAgent | gitIdentity => exact hg

end CredentialGrants

open List

inductive GrantOperation where
  | enableHttps (origins : List HttpsOrigin)
  | adjustOrigins (origins : List HttpsOrigin) (allow : Bool)
  | enableSshAgent (selector : SshAgentSelector)
  | enableIdentity
  | disable (capability : CredentialCapability)

namespace GrantOperation

def perform (grants : CredentialGrants) : GrantOperation → CredentialGrants.Outcome
  | enableHttps origins => grants.enableHttps origins
  | adjustOrigins origins allow => grants.adjustOrigins origins allow
  | enableSshAgent selector => (.ok (), grants.enableSshAgent selector)
  | enableIdentity => (.ok (), grants.enableIdentity)
  | disable capability => (.ok (), grants.disable capability)

def capability : GrantOperation → CredentialCapability
  | enableHttps _ | adjustOrigins .. => .gitHttps
  | enableSshAgent _ => .sshAgent
  | enableIdentity => .gitIdentity
  | disable capability => capability

def Adds (origin : HttpsOrigin) : GrantOperation → Prop
  | enableHttps origins | adjustOrigins origins true => origin ∈ origins
  | _ => False

/-- The operation removes the origin, or disables HTTPS altogether. -/
def Removes (origin : HttpsOrigin) : GrantOperation → Prop
  | adjustOrigins origins false => origin ∈ origins
  | disable .gitHttps => True
  | _ => False

def after (grants : CredentialGrants) : List GrantOperation → CredentialGrants
  | [] => grants
  | op::rest => after (op.perform grants).2 rest

def succeeded (grants : CredentialGrants) : List GrantOperation → List GrantOperation
  | [] => []
  | op::rest =>
    let next := succeeded (op.perform grants).2 rest
    if (op.perform grants).1.isOk then op::next else next

/-- Some operation of the list adds the origin, and no later one removes it. -/
def LastAdded (origin : HttpsOrigin) (ops : List GrantOperation) : Prop :=
  ∃ earlier op later, ops = earlier++op::later ∧ Adds origin op ∧ ∀ o ∈ later, ¬Removes origin o

structure Others (capability : CredentialCapability) (grants next : CredentialGrants) : Prop where
  gitHttps : capability ≠ .gitHttps → next.gitHttps = grants.gitHttps
  sshAgent : capability ≠ .sshAgent → next.sshAgent = grants.sshAgent
  gitIdentity : capability ≠ .gitIdentity → next.gitIdentity = grants.gitIdentity

/-- What an operation does that succeeds. -/
structure Effect (op : GrantOperation) (grants next : CredentialGrants) : Prop where
  others : Others op.capability grants next
  bounded : grants.bounded = true → next.bounded = true
  allows : ∀ origin, next.allows origin = true ↔
    Adds origin op ∨ grants.allows origin = true ∧ ¬Removes origin op

variable {gs next : CredentialGrants} {op : GrantOperation} {og : HttpsOrigin}
variable {ops : List GrantOperation}

theorem effect_gitHttps {os : OrderedSet HttpsOrigin} (hop : op.capability = .gitHttps)
    (hs : gs.bounded = true → os.size ≤ maxHttpsOrigins)
    (hk : ∀ og, og ∈ os.keys ↔ Adds og op ∨ gs.allows og = true ∧ ¬Removes og op) :
    Effect op gs { gs with gitHttps := some os } :=
  ⟨⟨fun h => (h hop).elim,fun _ => rfl,fun _ => rfl⟩,fun h => decide_eq_true (hs h),
    fun og => OrderedMap.contains_iff.trans (hk og)⟩

theorem enableHttps_cases (gs : CredentialGrants) (os : List HttpsOrigin) :
    (∃ e, gs.enableHttps os = (.error e, gs)) ∨
      ∃ next, gs.enableHttps os = (.ok (), next) ∧ Effect (enableHttps os) gs next := by
  unfold CredentialGrants.enableHttps
  dsimp only
  split_ifs with hf hsi
  · exact .inl ⟨_,rfl⟩
  · exact .inl ⟨_,rfl⟩
  · refine .inr ⟨_,rfl,effect_gitHttps rfl (fun _ => Nat.not_lt.mp hsi) fun og => ?_⟩
    rw [OrderedSet.mem_extend]
    refine or_congr_right ?_
    cases hs : gs.gitHttps with
    | none => simp [CredentialGrants.allows,hs,OrderedMap.keys,OrderedMap.empty]
    | some gd => simp [CredentialGrants.allows,hs,OrderedMap.contains_iff,Removes]

theorem adjustOrigins_cases (gs : CredentialGrants) (os : List HttpsOrigin) (allow : Bool) :
    (∃ e, gs.adjustOrigins os allow = (.error e, gs)) ∨
      ∃ next, gs.adjustOrigins os allow = (.ok (), next) ∧
        Effect (adjustOrigins os allow) gs next := by
  unfold CredentialGrants.adjustOrigins
  cases hs : gs.gitHttps with
  | none => exact .inl ⟨_,rfl⟩
  | some gd =>
    simp only [Option.isNone_some,Bool.false_eq_true,if_false]
    split_ifs with hem ha
    · exact .inl ⟨_,rfl⟩
    · cases ha
      refine (enableHttps_cases gs os).imp_right ?_
      rintro ⟨next,hn,he⟩
      exact ⟨next,hn,he.others,he.bounded,he.allows⟩
    · cases Bool.not_eq_true _ ▸ ha
      refine .inr ⟨_,rfl,effect_gitHttps rfl ?_ fun og => ?_⟩
      · intro hb
        rw [CredentialGrants.bounded,hs] at hb
        exact (CredentialGrants.size_retainOthers_le gd os).trans (of_decide_eq_true hb)
      · simp [Adds,Removes,CredentialGrants.allows,hs,OrderedMap.contains_iff,
          CredentialGrants.retainOthers,OrderedMap.keys]

theorem perform_cases (op : GrantOperation) (gs : CredentialGrants) :
    (∃ e, op.perform gs = (.error e, gs)) ∨
      ∃ next, op.perform gs = (.ok (), next) ∧ Effect op gs next := by
  cases op with
  | enableHttps origins => exact enableHttps_cases gs origins
  | adjustOrigins origins allow => exact adjustOrigins_cases gs origins allow
  | enableSshAgent selector =>
    exact .inr ⟨_,rfl,⟨fun _ => rfl,fun h => (h rfl).elim,fun _ => rfl⟩,id,fun _ => by
      simp [Adds,Removes,CredentialGrants.allows,CredentialGrants.enableSshAgent]⟩
  | enableIdentity =>
    exact .inr ⟨_,rfl,⟨fun _ => rfl,fun _ => rfl,fun h => (h rfl).elim⟩,id,fun _ => by
      simp [Adds,Removes,CredentialGrants.allows,CredentialGrants.enableIdentity]⟩
  | disable capability =>
    refine .inr ⟨_,rfl,?_,(CredentialGrants.bounded_disable · capability),fun _ => ?_⟩
    · cases capability <;> constructor <;> simp [capability,CredentialGrants.disable]
    · cases capability <;>
        simp [Adds,Removes,CredentialGrants.allows,CredentialGrants.disable]

theorem effect_of_committed (op : GrantOperation) (h : (op.perform gs).committed = .ok next) :
    Effect op gs next := by
  rcases perform_cases op gs with ⟨e,he⟩ | ⟨_,hn,hef⟩
  · rw [he] at h
    cases h
  · rw [hn] at h
    cases h
    exact hef

theorem bounded_after (h : gs.bounded = true) : (after gs ops).bounded = true := by
  induction ops generalizing gs with
  | nil => exact h
  | cons op xs ih =>
    rw [after]
    rcases perform_cases op gs with ⟨e,he⟩ | ⟨next,hn,hef⟩
    · rw [he]
      exact ih h
    · rw [hn]
      exact ih (hef.bounded h)

theorem lastAdded_cons : LastAdded og (op::ops) ↔
      LastAdded og ops ∨ Adds og op ∧ ∀ o ∈ ops, ¬Removes og o := by
  constructor
  · rintro ⟨earlier,added,lt,heq,ha,hl⟩
    rcases cons_eq_append_iff.mp heq with ⟨rfl,heq⟩ | ⟨xs,rfl,rfl⟩
    · cases heq
      exact .inr ⟨ha,hl⟩
    · exact .inl ⟨xs,added,lt,rfl,ha,hl⟩
  · rintro (⟨earlier,added,lt,rfl,ha,hl⟩ | ⟨ha,hl⟩)
    · exact ⟨op::earlier,added,lt,rfl,ha,hl⟩
    · exact ⟨[],op,ops,rfl,ha,hl⟩

/-- What is allowed was added last, or was allowed before and never removed. -/
theorem allows_after : (after gs ops).allows og = true ↔ LastAdded og (succeeded gs ops) ∨
      gs.allows og = true ∧ ∀ o ∈ succeeded gs ops, ¬Removes og o := by
  induction ops generalizing gs with
  | nil => simp [after,succeeded,LastAdded]
  | cons op xs ih =>
    rw [after,ih,succeeded]
    rcases perform_cases op gs with ⟨e,he⟩ | ⟨next,hn,hef⟩
    · rw [he]
      rfl
    · rw [hn]
      change _ ↔ LastAdded og (op::succeeded next xs) ∨ _ ∧ ∀ o ∈ op::_, _
      rw [hef.allows,lastAdded_cons,forall_mem_cons]
      tauto

/-- Grants are what the operations that succeeded made them: within the bound, changed by no
failing operation and by no operation on another capability, and allowing what was last added. -/
theorem grants_follow_operations (ops : List GrantOperation) : (after .none ops).bounded = true ∧
      (∀ (op : GrantOperation) e, (op.perform (after .none ops)).1 = .error e →
        (op.perform (after .none ops)).2 = after .none ops) ∧
      (∀ origins allow, (after .none ops).enabled .gitHttps = false →
        ((adjustOrigins origins allow).perform (after .none ops)).2.enabled .gitHttps = false) ∧
      (∀ op : GrantOperation, Others op.capability (after .none ops) (op.perform (after .none ops)).2) ∧
      ∀ origin, (after .none ops).allows origin = true ↔
        LastAdded origin (succeeded .none ops) := by
  have hc := fun op => perform_cases op (after .none ops)
  refine ⟨bounded_after rfl,?_,?_,?_,?_⟩
  · intro op e he
    rcases hc op with ⟨e',he'⟩ | ⟨next,hn,-⟩
    · rw [he']
    · rw [hn] at he
      cases he
  · intro origins allow hd
    have hno := Option.isSome_eq_false_iff.mp hd
    simp [perform,CredentialGrants.adjustOrigins,hno,hd]
  · intro op
    rcases hc op with ⟨e,he⟩ | ⟨next,hn,hef⟩
    · rw [he]
      exact ⟨fun _ => rfl,fun _ => rfl,fun _ => rfl⟩
    · rw [hn]
      exact hef.others
  · intro origin
    rw [allows_after]
    simp [CredentialGrants.allows,CredentialGrants.none]

end GrantOperation
end Cdenv.Credentials
