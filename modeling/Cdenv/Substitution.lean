import Cdenv.BoundedLoop
import Cdenv.Fallible
import Cdenv.OrderedMap
import Cdenv.TextScan
import Mathlib.Tactic.Ring

/-!
# Staged variable substitution

Host-side expressions are replaced while planning.
-/
namespace Cdenv.Substitution
open TextScan

inductive SubstitutionProperty where
  | name | buildArgument | runArgument | workspaceFolder | workspaceMount | mount | containerEnv
  | remoteEnv | containerUser | remoteUser | lifecycleCommand | customization | featureEntrypoint

def SubstitutionProperty.allowsDevcontainerId : SubstitutionProperty → Bool
  | .buildArgument => false
  | _ => true

def SubstitutionProperty.allowsContainerEnv : SubstitutionProperty → Bool
  | .remoteEnv | .lifecycleCommand => true
  | _ => false

inductive SubstitutionError where
  | malformed (property : SubstitutionProperty)
  | disallowed (property : SubstitutionProperty) (variableName : Text)
  | unsupported (property : SubstitutionProperty) (variableName : Text)

/-- One pass of long division of a big-endian byte string by 32. -/
def divide32 : ℕ → List ℕ → List ℕ × ℕ
  | carry, [] => ([], carry)
  | carry, byte::bytes =>
    let value := carry*256+byte
    let rest := divide32 (value % 32) bytes
    (value / 32::rest.1, rest.2)

/-- The number a big-endian byte string denotes. -/
def bigEndian : List ℕ → ℕ
  | [] => 0
  | byte::bytes => byte*256^bytes.length+bigEndian bytes

theorem divide32_length (carry : ℕ) (bs : List ℕ) : (divide32 carry bs).1.length = bs.length := by
  induction bs generalizing carry with
  | nil => rfl
  | cons byte bs ih => simp [divide32,ih]

theorem divide32_spec (carry : ℕ) (bytes : List ℕ) :
    bigEndian (divide32 carry bytes).1*32+(divide32 carry bytes).2 =
      carry*256^bytes.length+bigEndian bytes := by
  induction bytes generalizing carry with
  | nil => simp [divide32,bigEndian]
  | cons byte bytes ih =>
    have h := ih ((carry*256+byte) % 32)
    have hv := Nat.div_add_mod (carry*256+byte) 32
    simp only [divide32,bigEndian,divide32_length,List.length_cons,pow_succ]
    generalize (carry*256+byte) / 32 = q at *
    generalize (carry*256+byte) % 32 = m at *
    generalize 256^bytes.length = p at *
    calc (q*p+bigEndian (divide32 m bytes).1)*32+(divide32 m bytes).2
        = q*p*32+(bigEndian (divide32 m bytes).1*32+(divide32 m bytes).2) := by ring
      _ = (32*q+m)*p+bigEndian bytes := by rw [h]; ring
      _ = carry*(p*256)+(byte*p+bigEndian bytes) := by rw [hv]; ring

theorem bigEndian_pos {bytes : List ℕ} (h : ∃ byte ∈ bytes, byte ≠ 0) : 0 < bigEndian bytes := by
  induction bytes with
  | nil => simp at h
  | cons byte bytes ih =>
    simp only [bigEndian]
    by_cases hb : byte = 0
    · have := ih (by simpa [hb] using h)
      omega
    · have := Nat.mul_pos (Nat.pos_of_ne_zero hb)
        (Nat.pow_pos (n := bytes.length) (by decide : 0 < 256))
      omega

def base32Digit (n : ℕ) : Char := "0123456789abcdefghijklmnopqrstuv".toList.getD n '0'

/-- Digits come out least significant first; the quotient shrinks every pass. -/
def base32Loop : Loop (List ℕ × Text) Text where
  step s :=
    if s.1.any (· != 0) then
      let pass := divide32 0 s.1
      .inl (pass.1, s.2++[base32Digit pass.2])
    else .inr s.2
  measure s := bigEndian s.1
  decreases := by
    intro s t h
    dsimp only at h
    split_ifs at h with hs
    cases h
    have hpos := bigEndian_pos (by simpa using hs)
    have hspec := divide32_spec 0 s.1
    dsimp only
    omega

def base32BigInteger (bytes : List ℕ) : Text :=
  let output := base32Loop.run (bytes, [])
  (output++List.replicate (52 - output.length) '0').reverse

/-- Injected values available while planning on the host. -/
structure HostSubstitutionInputs where
  (localWorkspaceFolder containerWorkspaceFolder : Text)
  localEnv : OrderedMap Text Text := .empty
  identityLabels : OrderedMap Text Text := .empty

/-- Container environment expressions stay typed until the environment of the running container is
known. -/
inductive Segment where
  | literal (value : Text)
  | containerEnv (name default : Text)
deriving DecidableEq

/-- A host-resolved value that may still need the container environment. -/
structure DeferredString where
  segments : List Segment
deriving DecidableEq

def Segment.resolve (containerEnv : OrderedMap Text Text) : Segment → Text
  | .literal value => value
  | .containerEnv name default => (containerEnv.get? name).getD default

def DeferredString.resolve (d : DeferredString) (containerEnv : OrderedMap Text Text) : Text :=
  d.segments.flatMap (Segment.resolve containerEnv)

def basename (path : Text) : Text := afterLast '/' (trimEndMatches '/' path)

def environmentExpression (property : SubstitutionProperty) (fields : Text) :
    Except SubstitutionError (Text × Text) :=
  match splitOnce ':' fields with
  | some (name, default) => if name = [] then .error (.malformed property) else .ok (name, default)
  | none => if fields = [] then .error (.malformed property) else .ok (fields, [])

def expressionName (expression : Text) : Text := untilFirst ':' expression

section
variable (digest : OrderedMap Text Text → List ℕ)

/-- The identity hash is SHA-256 over the JSON text of the labels, both from outside crates, and
enters as the parameter `digest`. -/
def devcontainerId (labels : OrderedMap Text Text) : Text := base32BigInteger (digest labels)

/-- What one expression stands for: a replacement text, or a deferred lookup. -/
def replacement (property : SubstitutionProperty) (context : HostSubstitutionInputs)
    (expression : Text) : Except SubstitutionError Segment :=
  if expression = "localWorkspaceFolder" then
    .ok (.literal context.localWorkspaceFolder)
  else if expression = "localWorkspaceFolderBasename" then
    .ok (.literal (basename context.localWorkspaceFolder))
  else if expression = "containerWorkspaceFolder" then
    .ok (.literal context.containerWorkspaceFolder)
  else if expression = "containerWorkspaceFolderBasename" then
    .ok (.literal (basename context.containerWorkspaceFolder))
  else if expression = "devcontainerId" then
    if property.allowsDevcontainerId then
      .ok (.literal (devcontainerId digest context.identityLabels))
    else .error (.disallowed property "devcontainerId")
  else
    match stripPrefix "localEnv:" expression with
    | some fields => do
      let (name, default) ← environmentExpression property fields
      return .literal ((context.localEnv.get? name).getD default)
    | none =>
      match stripPrefix "containerEnv:" expression with
      | some fields =>
        if property.allowsContainerEnv then do
          let (name, default) ← environmentExpression property fields
          return .containerEnv name default
        else .error (.disallowed property "containerEnv")
      | none => .error (.unsupported property (expressionName expression))

/-- Remaining input, pending literal and finished segments. -/
structure Scan where
  (input literal : Text)
  segments : List Segment

def Scan.push (s : Scan) (rest : Text) : Segment → Scan
  | .literal value => ⟨rest,s.literal++value,s.segments⟩
  | .containerEnv name default =>
    ⟨rest,[],
      (if s.literal = [] then s.segments else s.segments++[.literal s.literal]) ++
        [.containerEnv name default]⟩

def Scan.finish (s : Scan) : DeferredString :=
  ⟨if s.literal = [] ∧ s.segments ≠ [] then s.segments else s.segments++[.literal s.literal]⟩

@[simp] theorem Scan.push_input (s : Scan) (rest : Text) (g : Segment) :
    (s.push rest g).input = rest := by
  cases g <;> rfl

def scanStep (property : SubstitutionProperty) (context : HostSubstitutionInputs) (s : Scan) :
    Scan ⊕ Except SubstitutionError DeferredString :=
  match s.input with
  | [] => .inr (.ok s.finish)
  | '$':: '$':: '\x7b'::rest => .inl (s.push rest (.literal "$\x7b"))
  | '$':: '\x7b'::rest =>
    match splitOnce '\x7d' rest with
    | none => .inr (.error (.malformed property))
    | some (expression, after) =>
      match replacement digest property context expression with
      | .error e => .inr (.error e)
      | .ok segment => .inl (s.push after segment)
  | c::rest => .inl (s.push rest (.literal [c]))

theorem scanStep_decreases {prop : SubstitutionProperty} {ctx : HostSubstitutionInputs}
    {s t : Scan} (h : scanStep digest prop ctx s = .inl t) :
    t.input.length < s.input.length := by
  unfold scanStep at h
  split at h
  · cases h
  · next he =>
    cases h
    simp [he]
    omega
  · next xs he =>
    split at h
    · cases h
    · next expression aft hs =>
      split at h
      · cases h
      · cases h
        have := congrArg List.length (splitOnce_spec hs).1
        simp only [List.length_append,List.length_cons] at this
        simp only [Scan.push_input,he,List.length_cons]
        omega
  · next he =>
    cases h
    simp [he]

/-- One loop over the remaining input, with the pending literal and the finished segments as its
accumulators. -/
def scan (property : SubstitutionProperty) (context : HostSubstitutionInputs) :
    Loop Scan (Except SubstitutionError DeferredString) where
  step := scanStep digest property context
  measure s := s.input.length
  decreases := scanStep_decreases digest

def substituteHost (property : SubstitutionProperty) (input : Text)
    (context : HostSubstitutionInputs) : Except SubstitutionError DeferredString :=
  (scan digest property context).run ⟨input,[],[]⟩

end

end Cdenv.Substitution
