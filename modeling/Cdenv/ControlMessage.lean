import Cdenv.ControlLoop
import Cdenv.JsonSize

/-!
# The reconcile request on the wire

A change of the credential grants reaches a running supervisor as one line of JSON, which the
supervisor reads up to a fixed number of bytes. The grants have bounds of their own: the number of
origins, the length of a host name, the length of a socket path. Those bounds allow a request that
is longer than the line may be, and such a request is refused like an unauthenticated one.
-/
namespace Cdenv.ControlMessage
open TextScan Identity WorkspaceRecord ForwardingSupervisor Credentials ControlLoop JsonText List
open JsonRecord (encodeFields encodeUnsigned)

def forwardingSupervisorProtocol : ℕ := 1

def encodeOrigins : Option (OrderedSet HttpsOrigin) → Json
  | none => .null
  | some origins => .array (OrderedMap.keys origins |>.map .string)

def encodeSelector : Option SshAgentSelector → Json
  | none => .null
  | some selector => .string selector.value

def grantFields : List Text := ["gitHttps","sshAgent","gitIdentity"].map String.toList

def encodeGrants (grants : CredentialGrants) : Json :=
  encodeFields grantFields [encodeOrigins grants.gitHttps,encodeSelector grants.sshAgent,
    .bool grants.gitIdentity]

def reconcileFields : List Text := ["revision","grants"].map String.toList

def encodeCommand : ControlCommand → Json
  | .status => .string "status"
  | .down => .string "down"
  | .reconcile revision grants => encodeFields ["reconcile"]
      [encodeFields reconcileFields [encodeUnsigned revision,encodeGrants grants]]

def requestFields : List Text :=
  ["command","installation","workspace","generation","hostBuildId","agentBuildId",
    "agentProtocol","supervisorProtocol","token"].map String.toList

def encodeRequest (request : ControlRequest) : Json :=
  encodeFields requestFields [encodeCommand request.command,
    .string request.claim.installation.value,.string request.claim.workspace.value,
    encodeUnsigned request.claim.generation.value,.string request.claim.hostBuildId.value,
    .string request.claim.agentBuildId.value,encodeUnsigned request.claim.agentProtocol.value,
    encodeUnsigned request.supervisorProtocol,.string request.token]

def writeRequest (request : ControlRequest) : List UInt8 :=
  utf8 (render (encodeRequest request))++[newline]

def reconcileRequest (token : Text) (claim : SupervisorClaim) (revision : ℕ)
    (grants : CredentialGrants) : ControlRequest :=
  ⟨.reconcile revision grants,claim,forwardingSupervisorProtocol,token⟩

/-- The supervisor's end of the exchange. The peer then waits for the answer. -/
def exchange (request : ControlRequest) : Connection :=
  ⟨true,writeRequest request,.silent,true⟩

def Delivered (decode : List UInt8 → Option ControlRequest) (request : ControlRequest) : Prop :=
  ∃ bytes, (exchange request).read = .bytes bytes ∧ parseRequest decode bytes = some request

theorem throughNewline_append {l : List UInt8} (h : newline ∉ l) (xs : List UInt8) :
    throughNewline (l++newline::xs) = l++[newline] := by
  induction l with
  | nil => rw [nil_append,throughNewline,if_pos rfl,nil_append]
  | cons byte l ih =>
    rw [mem_cons,not_or] at h
    obtain ⟨hb,hr⟩ := h
    rw [cons_append,throughNewline,if_neg (Ne.symm hb),ih hr,cons_append]

section
variable {request : ControlRequest} {decode : List UInt8 → Option ControlRequest}

theorem not_mem_encodeGrants (gs : CredentialGrants) : '\n' ∉ render (encodeGrants gs) := by
  apply not_mem_encodeFields
  simp only [forall_mem_cons]
  refine ⟨?_,?_,?_,fun _ h => absurd h not_mem_nil⟩
  · cases hg : gs.gitHttps with
    | none => decide
    | some os =>
      apply not_mem_array
      intro x hi
      obtain ⟨o,-,rfl⟩ := mem_map.mp hi
      exact not_mem_string o
  · cases hs : gs.sshAgent with
    | none => decide
    | some sel => exact not_mem_string sel.value
  · cases gs.gitIdentity <;> decide

theorem not_mem_encodeCommand (cmd : ControlCommand) : '\n' ∉ render (encodeCommand cmd) := by
  cases cmd with
  | status | down => exact not_mem_string _
  | reconcile rev gs =>
    apply not_mem_encodeFields
    rw [forall_mem_singleton]
    apply not_mem_encodeFields
    simp only [forall_mem_cons]
    exact ⟨not_mem_number rev,not_mem_encodeGrants gs,fun _ h => absurd h not_mem_nil⟩

theorem newline_not_mem : newline ∉ utf8 (render (encodeRequest request)) := by
  intro hm
  refine absurd (mem_utf8_newline hm) (not_mem_encodeFields ?_)
  simp only [forall_mem_cons]
  exact ⟨not_mem_encodeCommand _,not_mem_string _,not_mem_string _,not_mem_number _,
    not_mem_string _,not_mem_string _,not_mem_number _,not_mem_number _,not_mem_string _,
    fun _ h => absurd h not_mem_nil⟩

theorem delivered_of_short (hr : decode (writeRequest request) = some request)
    (hs : (writeRequest request).length ≤ maximumControlMessageBytes) :
    Delivered decode request := by
  have hw : (writeRequest request).take (maximumControlMessageBytes+1) =
      writeRequest request := take_of_length_le (by omega)
  have hl : newline ∈ writeRequest request := mem_append_right _ mem_cons_self
  refine ⟨writeRequest request,?_,?_⟩
  · unfold Connection.read exchange
    rw [hw,if_pos hl,writeRequest,throughNewline_append newline_not_mem]
  · unfold parseRequest
    rw [if_neg,hr]
    rw [writeRequest,getLast?_append,not_or]
    exact ⟨by rw [← writeRequest]; omega,by simp⟩

/-- The window of the read either ends before the line does, or holds the line and is one byte
too long. -/
theorem not_delivered_of_long (hlo : maximumControlMessageBytes < (writeRequest request).length) :
    ¬ Delivered decode request := by
  rintro ⟨bs,hb,hp⟩
  have hle : bs.length = maximumControlMessageBytes+1 := by
    unfold Connection.read exchange at hb
    dsimp only at hb
    split_ifs at hb with hl
    · have hw : (writeRequest request).length =
          (utf8 (render (encodeRequest request))).length+1 := by
        rw [writeRequest,length_append,length_singleton]
      by_cases hf : (utf8 (render (encodeRequest request))).length ≤ maximumControlMessageBytes
      · rw [take_of_length_le (by omega),writeRequest,throughNewline_append newline_not_mem] at hb
        cases hb
        rw [length_append,length_singleton]
        omega
      · rw [writeRequest,take_append_of_le_length (by omega)] at hl
        exact absurd (mem_of_mem_take hl) newline_not_mem
    · cases hb
      rw [length_take]
      omega
  unfold parseRequest at hp
  rw [if_pos (.inl (by omega))] at hp
  cases hp

end

def originsLength : Option (OrderedSet HttpsOrigin) → ℕ
  | none => 4
  | some origins =>
    (OrderedMap.keys origins |>.map quotedLength).sum+(OrderedMap.size origins - 1)+2

def selectorLength : Option SshAgentSelector → ℕ
  | none => 4
  | some selector => quotedLength selector.value

/-- What the grants, the identity and the token take, with 213 bytes around them. -/
def reconcileLength (token : Text) (claim : SupervisorClaim) (revision : ℕ)
    (grants : CredentialGrants) : ℕ :=
  213+(decimal revision).length+originsLength grants.gitHttps +
    selectorLength grants.sshAgent+(if grants.gitIdentity then 4 else 5) +
    quotedLength claim.installation.value+quotedLength claim.workspace.value +
    (decimal claim.generation.value).length+quotedLength claim.hostBuildId.value +
    quotedLength claim.agentBuildId.value+(decimal claim.agentProtocol.value).length +
    quotedLength token

theorem byteLength_encodeOrigins (origins : Option (OrderedSet HttpsOrigin)) :
    byteLength (render (encodeOrigins origins)) = originsLength origins := by
  cases origins with
  | none => rfl
  | some origins =>
    rw [encodeOrigins,byteLength_array,map_map,length_map,originsLength,
      OrderedMap.keys,length_map,OrderedMap.size]
    simp only [Function.comp_def,byteLength_string]

theorem sum_le_originsLength (os : OrderedSet HttpsOrigin) :
    ((OrderedMap.keys os).map quotedLength).sum ≤ originsLength (some os) := by
  rw [originsLength]
  omega

theorem originsLength_le (tk : Text) (cl : SupervisorClaim) (rev : ℕ) (grants : CredentialGrants) :
    originsLength grants.gitHttps ≤ reconcileLength tk cl rev grants := by
  rw [reconcileLength]
  omega

theorem byteLength_encodeSelector (selector : Option SshAgentSelector) :
    byteLength (render (encodeSelector selector)) = selectorLength selector := by
  cases selector with
  | none => rfl
  | some selector => rw [encodeSelector,render_string,byteLength_quote,selectorLength]

theorem byteLength_encodeGrants (gs : CredentialGrants) :
    byteLength (render (encodeGrants gs)) = 40+originsLength gs.gitHttps +
      selectorLength gs.sshAgent+(if gs.gitIdentity then 4 else 5) := by
  have hb : byteLength (render (.bool gs.gitIdentity)) =
      if gs.gitIdentity then 4 else 5 := by
    cases gs.gitIdentity <;> rfl
  have hn : (grantFields.map quotedLength).sum+2*grantFields.length+1 = 40 := by
    decide +kernel
  rw [encodeGrants,byteLength_encodeFields grantFields _ (by decide) rfl,hn]
  simp only [map_cons,map_nil,byteLength_encodeOrigins,byteLength_encodeSelector,
    hb,sum_cons,sum_nil]
  omega

theorem byteLength_reconcile (rev : ℕ) (gs : CredentialGrants) :
    byteLength (render (encodeCommand (.reconcile rev gs))) =
      37+(decimal rev).length+byteLength (render (encodeGrants gs)) := by
  have hna : (reconcileFields.map quotedLength).sum+2*reconcileFields.length+1 = 23 := by
    decide +kernel
  have hn : (["reconcile".toList].map quotedLength).sum+2*["reconcile".toList].length + 1 = 14 := by
    decide +kernel
  rw [encodeCommand,byteLength_encodeFields ["reconcile".toList] _ (by decide) rfl,hn,
    map_singleton,sum_singleton,byteLength_encodeFields reconcileFields _ (by decide) rfl,hna]
  simp only [map_cons,map_nil,byteLength_number,sum_cons,sum_nil]
  omega

theorem length_writeRequest (tk : Text) (cl : SupervisorClaim) (rev : ℕ)
    (grants : CredentialGrants) :
    (writeRequest (reconcileRequest tk cl rev grants)).length =
      reconcileLength tk cl rev grants := by
  have hn : (requestFields.map quotedLength).sum+2*requestFields.length+1 = 134 := by
    decide +kernel
  have hp : (decimal forwardingSupervisorProtocol).length = 1 := rfl
  rw [writeRequest,length_append,length_utf8,encodeRequest,
    byteLength_encodeFields requestFields _ (by decide) rfl,hn]
  simp only [reconcileRequest,map_cons,map_nil,byteLength_reconcile,
    byteLength_encodeGrants,byteLength_number,byteLength_string,sum_cons,sum_nil,
    hp,length_cons,length_nil,reconcileLength]
  omega

/-- A change of the grants is read by the supervisor exactly when what it carries leaves room for
the line. -/
theorem reconcile_delivered_iff (decode : List UInt8 → Option ControlRequest) (token : Text)
    (claim : SupervisorClaim) (revision : ℕ) (grants : CredentialGrants)
    (hread : decode (writeRequest (reconcileRequest token claim revision grants)) =
      some (reconcileRequest token claim revision grants)) :
    Delivered decode (reconcileRequest token claim revision grants) ↔
      reconcileLength token claim revision grants ≤ maximumControlMessageBytes := by
  rw [← length_writeRequest]
  constructor
  · intro hd
    by_contra hl
    exact not_delivered_of_long (Nat.lt_of_not_le hl) hd
  · exact delivered_of_short hread

def shortGrants : CredentialGrants :=
  ⟨some (.extend .empty ["https://example.com:443"]),some .automatic,false⟩

theorem reconcile_delivered_short : shortGrants.validate = .ok () ∧
      Delivered (fun _ => some (reconcileRequest "secret" sampleState.claim 2 shortGrants))
        (reconcileRequest "secret" sampleState.claim 2 shortGrants) :=
  ⟨by decide +kernel,(reconcile_delivered_iff _ _ _ _ _ rfl).mpr (by decide +kernel)⟩

/-- The host names that an origin may have, besides addresses. -/
def isDomainHost (host : Text) : Bool :=
  !host.isEmpty && byteLength host ≤ 253 &&
    (host.splitOn '.').all fun label =>
      !label.isEmpty && byteLength label ≤ 63 && label.head? != some '-' &&
        label.getLast? != some '-' && label.all fun c => c.isAlphanum || c == '-'

/-- Host names of four labels, as long as they may be, that differ in the first letter. -/
def longLabels (c : Char) : List Text :=
  [c::List.replicate 62 'a',List.replicate 63 'b',List.replicate 63 'c',List.replicate 61 'd']

def longHost (c : Char) : Text := ['.'].intercalate (longLabels c)

def longOrigin (c : Char) : HttpsOrigin := "https://"++(longHost c++":443")

def firstLetters : Text := "0123456789abcdefghijklmnopqrstuv"

theorem longHost_eq (c : Char) : longHost c = c::(List.replicate 62 'a' ++
    '.'::(List.replicate 63 'b'++ '.'::(List.replicate 63 'c' ++ '.'::List.replicate 61 'd'))) := by
  simp [longHost,longLabels,intercalate_cons_cons]

theorem isDomainHost_longHost {c : Char} (ha : c.isAlphanum = true)
    (has : c.val ≤ 127) : isDomainHost (longHost c) = true := by
  have hd : c ≠ '.' := by
    rintro rfl
    cases ha
  have hh : c ≠ '-' := by
    rintro rfl
    cases ha
  have hs := Char.utf8Size_eq_one_iff.mpr has
  have hsp : (longHost c).splitOn '.' = longLabels c := by
    refine splitOn_intercalate '.' ?_ (cons_ne_nil _ _)
    simp [longLabels,Ne.symm hd]
  have hl : (c::replicate 62 'a').getLast? = some 'a' := rfl
  unfold isDomainHost
  rw [hsp,longHost_eq]
  simp [-reduceReplicate,longLabels,byteLength,ha,hh,hs,hl]
  decide

theorem longOrigin_lt {c d : Char} (h : c < d) : longOrigin c < longOrigin d := by
  unfold longOrigin
  rw [longHost_eq,longHost_eq]
  apply append_left_lt
  exact cons_lt_cons_iff.mpr (.inl h)

theorem length_longOrigin (c : Char) : (longOrigin c).length = 265 := by
  unfold longOrigin
  rw [longHost_eq]
  simp [-reduceReplicate]

def longOrigins : OrderedSet HttpsOrigin where
  entries := firstLetters.map fun c => (longOrigin c, ())
  sorted := by
    rw [List.pairwise_map]
    have hletters : firstLetters.Pairwise (· < ·) := by decide +kernel
    exact hletters.imp longOrigin_lt

def longGrants : CredentialGrants := ⟨some longOrigins,none,false⟩

theorem sum_longOrigin (letters : List Char) :
    letters.length*267 ≤ ((letters.map longOrigin).map quotedLength).sum := by
  induction letters with
  | nil => rfl
  | cons c letters ih =>
    have hl := length_le_quotedLength (longOrigin c)
    rw [length_longOrigin] at hl
    calc (letters.length+1)*267 = 267+letters.length*267 := by ring
      _ ≤ quotedLength (longOrigin c)+((letters.map longOrigin).map quotedLength).sum :=
          Nat.add_le_add hl ih

/-- Half as many origins as are allowed, with names as long as are allowed, are not delivered. -/
theorem reconcile_undelivered :
    longGrants.validate = .ok () ∧ (∀ c ∈ firstLetters, isDomainHost (longHost c) = true) ∧
      ∀ decode, ¬ Delivered decode
        (reconcileRequest "secret" sampleState.claim 2 longGrants) := by
  refine ⟨rfl,?_,fun decode => not_delivered_of_long ?_⟩
  · intro c hc
    have hl : firstLetters.all (fun c => c.isAlphanum && c.val ≤ 127) = true := by decide +kernel
    have hs := Bool.and_eq_true_iff.mp (all_eq_true.mp hl c hc)
    exact isDomainHost_longHost hs.1 (of_decide_eq_true hs.2)
  · have hco : firstLetters.length = 32 := by decide +kernel
    have hs := sum_longOrigin firstLetters
    have ho := hs.trans (sum_le_originsLength longOrigins)
    rw [length_writeRequest]
    calc maximumControlMessageBytes < 32*267 := by decide
      _ ≤ originsLength longGrants.gitHttps := ho
      _ ≤ _ := originsLength_le _ _ _ _

end Cdenv.ControlMessage
