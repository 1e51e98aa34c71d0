import Cdenv.RuntimePlanning

/-!
# The tokens of a substitution

The input alone decides what the scanner reads: `Tokenizes` cuts it from left to
right into single characters, escapes and expressions, before any value is known.
A run of the scanner then fails where a token has no value and otherwise strings the
values together. Text in which every expression is escaped reads as itself, and a user
that is substituted a second time, as the default of the remote user is, stays itself
as long as it opens no expression.
-/
namespace Cdenv.Substitution
open TextScan Fallible List

inductive Token where
  | literal (c : Char)
  | escape
  | expression (text : Text)
  | unterminated (rest : Text)

/-- The first token and what follows it: an escape before an expression, an expression up to
the first closing brace, and otherwise one character. -/
def nextToken : Text → Option (Token × Text)
  | [] => none
  | '$':: '$':: '\x7b'::rest => some (.escape, rest)
  | '$':: '\x7b'::rest =>
    match splitOnce '\x7d' rest with
    | some (text, after) => some (.expression text, after)
    | none => some (.unterminated rest, [])
  | c::rest => some (.literal c, rest)

inductive Tokenizes : Text → List Token → Prop
  | nil : Tokenizes [] []
  | cons {input rest : Text} {token : Token} {tokens : List Token}
      (hnext : nextToken input = some (token, rest)) (h : Tokenizes rest tokens) :
      Tokenizes input (token::tokens)

variable {inp : Text}

theorem nextToken_length {xs : Text} {tk : Token} (h : nextToken inp = some (tk, xs)) :
    xs.length < inp.length := by
  unfold nextToken at h
  split at h
  · cases h
  · cases h
    simp only [length_cons]
    omega
  · split at h
    · next hs =>
      cases h
      have hl := congrArg length (splitOnce_spec hs).1
      simp only [length_append,length_cons] at hl ⊢
      omega
    · cases h
      simp
  · cases h
    simp

theorem exists_tokenizes (inp : Text) : ∃ tokens, Tokenizes inp tokens := by
  induction hn : inp.length using Nat.strongRecOn generalizing inp with
  | _ n ih =>
    subst hn
    cases hne : nextToken inp with
    | none =>
      unfold nextToken at hne
      split at hne
      · exact ⟨[],.nil⟩
      · cases hne
      · split at hne <;> cases hne
      · cases hne
    | some next =>
      obtain ⟨tokens,ht⟩ := ih _ (nextToken_length hne) next.2 rfl
      exact ⟨_,.cons hne ht⟩

variable {tokens : List Token}

theorem Tokenizes.unique {others : List Token} (h : Tokenizes inp tokens)
    (ho : Tokenizes inp others) : others = tokens := by
  induction h generalizing others with
  | nil =>
    cases ho with
    | nil => rfl
    | cons hn _ => cases hn
  | cons hn h ih =>
    cases ho with
    | nil => cases hn
    | cons hn' h' =>
      cases hn.symm.trans hn'
      rw [ih h']

section run
variable (digest : OrderedMap Text Text → List ℕ) (property prop : SubstitutionProperty)
variable (context : HostSubstitutionInputs) (containerEnv : OrderedMap Text Text)

def Token.piece : Token → Except SubstitutionError Segment
  | .literal c => .ok (.literal [c])
  | .escape => .ok (.literal "$\x7b")
  | .expression text => replacement digest property context text
  | .unterminated _ => .error (.malformed property)

def Token.value (token : Token) : Except SubstitutionError Text :=
  (token.piece digest property context).map (Segment.resolve containerEnv)

def denote : List Token → Except SubstitutionError Text
  | [] => .ok []
  | token::tokens => do
    return (← token.value digest property context containerEnv)++(← denote tokens)

def Scan.resolve (s : Scan) : Text :=
  s.segments.flatMap (Segment.resolve containerEnv)++s.literal

variable {digest property prop context containerEnv}

theorem Scan.resolve_push (s : Scan) (xs : Text) (g : Segment) :
    (s.push xs g).resolve containerEnv = s.resolve containerEnv++g.resolve containerEnv := by
  cases g with
  | literal v => simp [Scan.push,Scan.resolve,Segment.resolve]
  | containerEnv n default =>
    by_cases h : s.literal = [] <;> simp [Scan.push,Scan.resolve,Segment.resolve,h]

theorem Scan.resolve_finish (s : Scan) :
    s.finish.resolve containerEnv = s.resolve containerEnv := by
  unfold Scan.finish DeferredString.resolve
  split_ifs with h
  · simp [Scan.resolve,h.1]
  · simp [Scan.resolve,Segment.resolve]

/-- One step reads one token: it fails the run, or its value is pushed. -/
theorem scanStep_eq (s : Scan) : scanStep digest prop context s =
      match nextToken s.input with
      | none => .inr (.ok s.finish)
      | some (token, xs) =>
        match token.piece digest prop context with
        | .error e => .inr (.error e)
        | .ok g => .inl (s.push xs g) := by
  obtain ⟨inp,literal,sgs⟩ := s
  unfold scanStep
  dsimp only
  split
  · rfl
  · rfl
  · next xs =>
    simp only [nextToken]
    cases splitOnce '\x7d' xs <;> rfl
  · next c xs he ho =>
    rw [nextToken.eq_4 c xs he ho]
    rfl

theorem Tokenizes.run (h : Tokenizes inp tokens) (s : Scan) (hs : s.input = inp) :
    ((scan digest prop context).run s).map (·.resolve containerEnv) =
      (denote digest prop context containerEnv tokens).map (s.resolve containerEnv ++ ·) := by
  induction h generalizing s with
  | nil =>
    have hd : (scan digest prop context).step s = .inr (.ok s.finish) := by
      change scanStep digest prop context s = _
      rw [scanStep,hs]
    rw [Loop.run_done _ hd]
    exact congrArg Except.ok (s.resolve_finish.trans (append_nil _).symm)
  | @cons inp xs tk tokens hn h ih =>
    have hst := @scanStep_eq digest prop context s
    rw [hs,hn] at hst
    rw [denote,Token.value]
    cases hp : tk.piece digest prop context with
    | error e =>
      simp only [hp] at hst
      rw [Loop.run_done (scan digest prop context) hst]
      rfl
    | ok g =>
      simp only [hp] at hst
      rw [Loop.run_next (scan digest prop context) hst,ih _ (s.push_input xs g),Scan.resolve_push]
      cases denote digest prop context containerEnv tokens with
      | error e => rfl
      | ok t => exact congrArg Except.ok (append_assoc _ _ _)

theorem Tokenizes.substituteHost (h : Tokenizes inp tokens) :
    (substituteHost digest prop inp context).map (·.resolve containerEnv) =
      denote digest prop context containerEnv tokens := by
  refine (h.run ⟨inp,[],[]⟩ rfl).trans ?_
  cases denote digest prop context containerEnv tokens <;> rfl

/-- Two computations fail alike if their parts do. -/
theorem map_bind_congr {ε α β : Type} {x x' : Except ε α} {f f' : α → Except ε β}
    (hx : x.map (fun _ => ()) = x'.map fun _ => ())
    (hf : ∀ a a', (f a).map (fun _ => ()) = (f' a').map fun _ => ()) :
    (x >>= f).map (fun _ => ()) = (x' >>= f').map fun _ => () := by
  cases x with
  | error e =>
    cases x' with
    | error e' =>
      cases hx
      rfl
    | ok a' => cases hx
  | ok a =>
    cases x' with
    | error e' => cases hx
    | ok a' => exact hf a a'

/-- Whether an expression has a value does not depend on what the value is. -/
theorem replacement_map (context' : HostSubstitutionInputs) (t : Text) :
    (replacement digest prop context t).map (fun _ => ()) =
      (replacement digest prop context' t).map fun _ => () := by
  unfold replacement
  cases stripPrefix "localEnv:" t with
  | some fs =>
    dsimp only
    cases environmentExpression prop fs with
    | error e | ok field => split_ifs <;> rfl
  | none => split_ifs <;> rfl

theorem map_map_unit {ε α β : Type} (x : Except ε α) (f : α → β) :
    (x.map f).map (fun _ => ()) = x.map fun _ => () := by
  cases x <;> rfl

theorem denote_map (context' : HostSubstitutionInputs) (tokens : List Token) :
    (denote digest prop context containerEnv tokens).map (fun _ => ()) =
      (denote digest prop context' containerEnv tokens).map fun _ => () := by
  induction tokens with
  | nil => rfl
  | cons tk tokens ih =>
    refine map_bind_congr ?_ fun _ _ => map_bind_congr ih fun _ _ => rfl
    rw [Token.value,Token.value,map_map_unit,map_map_unit]
    cases tk with
    | expression t => exact replacement_map context' t
    | _ => rfl

/-- Every input is cut in one way, whatever the context; the context does not decide whether
the substitution fails; and what it yields is the values of the tokens, one after another. -/
theorem substituteHost_tokenwise (digest : OrderedMap Text Text → List ℕ)
    (property : SubstitutionProperty) (input : Text) :
    ∃ tokens, Tokenizes input tokens ∧ (∀ others, Tokenizes input others → others = tokens) ∧
      (∀ context context', (substituteHost digest property input context).map (fun _ => ()) =
        (substituteHost digest property input context').map fun _ => ()) ∧
      ∀ context containerEnv,
        (substituteHost digest property input context).map (·.resolve containerEnv) =
          denote digest property context containerEnv tokens := by
  obtain ⟨tokens,ht⟩ := exists_tokenizes input
  refine ⟨tokens,ht,fun others => ht.unique,?_,fun _ _ => ht.substituteHost⟩
  intro context context'
  have ho (c : HostSubstitutionInputs) :
      (Substitution.substituteHost digest property input c).map (fun _ => ()) =
        (denote digest property c .empty tokens).map fun _ => () := by
    rw [← map_map_unit _ (·.resolve .empty),ht.substituteHost]
  rw [ho context,ho context',denote_map context']

end run

/-- Every opening of an expression written as an escape. -/
def escapeExpressions : Text → Text
  | [] => []
  | '$':: '\x7b'::rest => '$':: '$':: '\x7b'::escapeExpressions rest
  | c::rest => c::escapeExpressions rest

theorem escapeExpressions_ne_open (s rest : Text) : escapeExpressions s ≠ '$':: '\x7b'::rest := by
  intro hr
  unfold escapeExpressions at hr
  split at hr
  · cases hr
  · cases hr
  · next c aft ho =>
    obtain ⟨rfl,ha⟩ := cons.inj hr
    -- the brace was there before
    unfold escapeExpressions at ha
    split at ha
    · cases ha
    · cases ha
    · cases ha
      exact ho _ rfl rfl

theorem tokenizes_escapeExpressions (s : Text) :
    ∃ tokens, Tokenizes (escapeExpressions s) tokens ∧ ∀ digest prop context containerEnv,
      denote digest prop context containerEnv tokens = .ok s := by
  fun_induction escapeExpressions s with
  | case1 => exact ⟨[],.nil,fun _ _ _ _ => rfl⟩
  | case2 xs ih =>
    obtain ⟨tokens,ht,hd⟩ := ih
    refine ⟨_,.cons rfl ht,fun digest prop context containerEnv => ?_⟩
    rw [denote,hd]
    rfl
  | case3 c xs ho ih =>
    obtain ⟨tokens,ht,hd⟩ := ih
    have hn : nextToken (c::escapeExpressions xs) = some (.literal c, escapeExpressions xs) := by
      apply nextToken.eq_4
      · exact fun aft _ => escapeExpressions_ne_open xs aft
      · rintro aft rfl ha
        have hne := escapeExpressions_ne_open ('$'::xs) aft
        rw [escapeExpressions.eq_3 '$' xs ho,ha] at hne
        exact hne rfl
    refine ⟨_,.cons hn ht,fun digest prop context containerEnv => ?_⟩
    rw [denote,hd]
    rfl

/-- An escaped text is itself, for every property and context. -/
theorem escaped_substitutes_to_itself (digest : OrderedMap Text Text → List ℕ)
    (property : SubstitutionProperty) (s : Text) (context : HostSubstitutionInputs) :
    ∃ d, substituteHost digest property (escapeExpressions s) context = .ok d ∧
      ∀ containerEnv, d.resolve containerEnv = s := by
  obtain ⟨tokens,ht,hde⟩ := tokenizes_escapeExpressions s
  have hr (containerEnv : OrderedMap Text Text) :=
    ht.substituteHost.trans (hde digest property context containerEnv)
  obtain ⟨d,hd,-⟩ := map_eq_ok.mp (hr .empty)
  refine ⟨d,hd,fun containerEnv => ?_⟩
  have h := hr containerEnv
  rw [hd] at h
  exact Except.ok.inj h

theorem escapeExpressions_of_plain {s : Text} (h : ¬ "$\x7b" <:+: s) : escapeExpressions s = s := by
  fun_induction escapeExpressions s with
  | case1 => rfl
  | case2 xs ih => exact absurd ⟨[],xs,rfl⟩ h
  | case3 c xs ho ih => rw [ih fun hr => h (hr.trans (suffix_cons c xs).isInfix)]

end Cdenv.Substitution

namespace Cdenv.RuntimePlanning
open TextScan Fallible Substitution

variable {digest : OrderedMap Text Text → List ℕ} {context : HostSubstitutionInputs}

/-- The text that the container user denotes, without an opening of an expression. -/
def DenotesPlainly (digest : OrderedMap Text Text → List ℕ) (raw : Text)
    (context : HostSubstitutionInputs) : Prop :=
  ∀ tokens text, Tokenizes raw tokens →
    denote digest .containerUser context .empty tokens = .ok text → ¬ "$\x7b" <:+: text

variable {user : ContainerUser}

theorem ContainerUser.parse_eq_some {v : Text} : parse v = some user ↔ v = user.value := by
  unfold parse
  split_ifs with h
  · exact ⟨fun heq => Option.some.inj heq ▸ rfl,fun heq => by subst heq; rfl⟩
  · refine ⟨nofun,fun heq => ?_⟩
    exact absurd user.accepted (heq ▸ h)

theorem planUser_eq_ok {prop msg : String} {sub : SubstitutionProperty}
    {raw : Text} (h : Tokenizes raw tokens) :
    planUser digest prop sub msg raw context = .ok user ↔
      denote digest sub context .empty tokens = .ok user.value := by
  have hi {value : Text} : immediateSubstitution digest prop.toList sub raw context = .ok value ↔
        denote digest sub context .empty tokens = .ok value := by
    rw [← h.substituteHost,immediateSubstitution]
    cases substituteHost digest sub raw context with
    | error e => exact ⟨nofun,nofun⟩
    | ok d => simp [Except.mapError,Except.map]
  simp only [planUser,bind_eq_ok,orFail_eq_ok,hi,ContainerUser.parse_eq_some]
  constructor
  · rintro ⟨_,hd,rfl⟩
    exact hd
  · exact fun hd => ⟨_,hd,rfl⟩

section users
variable (digest : OrderedMap Text Text → List ℕ) (effective : EffectiveMetadata)

/-- The two steps of `planRuntime` that plan the users. -/
def planContainerUser (inputs : RuntimePlanningInputs) (context : HostSubstitutionInputs) :
    Except PlanningError ContainerUser :=
  planUser digest "$.containerUser" .containerUser "invalid effective container user"
    (rawContainerUser effective inputs) context

def planRemoteUser (containerUser : ContainerUser) (context : HostSubstitutionInputs) :
    Except PlanningError ContainerUser :=
  planUser digest "$.remoteUser" .remoteUser "invalid effective remote user"
    (effective.remoteUser.getD containerUser.value) context

end users

/-- Where no remote user is set, the planned container user is substituted once more. It is
planned again as long as the text it denotes opens no expression. -/
theorem remoteUser_default {effective : EffectiveMetadata} {inputs : RuntimePlanningInputs}
    {user : ContainerUser} (hnone : effective.remoteUser = none)
    (hplanned : planContainerUser digest effective inputs context = .ok user)
    (hplain : DenotesPlainly digest (rawContainerUser effective inputs) context) :
    planRemoteUser digest effective user context = .ok user := by
  obtain ⟨tokens,ht⟩ := exists_tokenizes (rawContainerUser effective inputs)
  have hu := (planUser_eq_ok ht).mp hplanned
  obtain ⟨again,ha,hs⟩ := tokenizes_escapeExpressions user.value
  rw [escapeExpressions_of_plain (hplain tokens _ ht hu)] at ha
  rw [planRemoteUser,hnone,Option.getD_none]
  exact (planUser_eq_ok ha).mpr (hs digest .remoteUser context .empty)

section sample

/-- The container user is the user of the host, as the environment names it. -/
def sampleMetadata : EffectiveMetadata := { containerUser := some "$\x7blocalEnv:USER\x7d" }

def sampleContext (user : String) : HostSubstitutionInputs where
  localWorkspaceFolder := "/w"
  containerWorkspaceFolder := "/w"
  localEnv := OrderedMap.empty.insert "USER" user.toList

def sampleInputs : RuntimePlanningInputs := { localWorkspaceFolder := "/w" }

theorem remoteUser_default_dev :
    ∃ user, planContainerUser (fun _ => []) sampleMetadata sampleInputs (sampleContext "dev") =
        .ok user ∧
      planRemoteUser (fun _ => []) sampleMetadata user (sampleContext "dev") = .ok user := by
  have hp : planContainerUser (fun _ => []) sampleMetadata sampleInputs
      (sampleContext "dev") = .ok ⟨"dev",by decide⟩ := by decide +kernel
  refine ⟨_,hp,remoteUser_default rfl hp ?_⟩
  intro tokens t hto ht
  cases (Tokenizes.cons rfl .nil).unique hto
  cases ht
  decide

/-- The name of the user looks like an expression: the container user is planned, and planning
the remote user fails. -/
theorem remoteUser_default_fails :
    ∃ user, planContainerUser (fun _ => []) sampleMetadata sampleInputs
        (sampleContext "$\x7bu\x7d") = .ok user ∧
      planRemoteUser (fun _ => []) sampleMetadata user (sampleContext "$\x7bu\x7d") =
        .error (failure "$.remoteUser" .substitution "unsupported or malformed substitution") :=
  ⟨⟨"$\x7bu\x7d",by decide⟩,by decide +kernel,by decide +kernel⟩

end sample
end Cdenv.RuntimePlanning
