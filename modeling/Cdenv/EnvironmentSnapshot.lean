import Cdenv.FrameStream
import Cdenv.OrderedMap
import Mathlib.Order.Lattice
import Mathlib.Tactic.IntervalCases

/-!
# Environment snapshots

The agent keeps an environment as a magic, the number of entries and each name and value
behind its length. The decoder takes entries in any order, the encoder writes them by name.

A frame that starts in the noise of a shell's output would have to run through the magic of
the real one, whose zero bytes no name and no value may hold.
-/
namespace Cdenv.EnvironmentSnapshot
open Fallible BrokerProtocol BrokerFrame List

instance byteOrder : LinearOrder UInt8 := LinearOrder.lift' UInt8.toNat fun _ _ => UInt8.toNat_inj.mp

/-- `CDENV-ENV`, then `0 1 0`. -/
def snapshotMagic : Bytes := [67,68,69,78,86,45,69,78,86,0,1,0]
def maximumEntries : ℕ := 16*1024
def maximumEntryBytes : ℕ := 1024*1024
def maximumSnapshotBytes : ℕ := 16*1024*1024

inductive EnvironmentError where
  | snapshotTooLarge (bound : String)
  | malformedSnapshot (reason : String)
deriving DecidableEq

abbrev Environment := OrderedMap Bytes Bytes

/-- Names and values are any bytes an environment can hold. -/
def isEntry (name value : Bytes) : Bool :=
  !(name.isEmpty || name.contains 61 || name.contains 0 || value.contains 0)

def pushLength (bytes : Bytes) (length : ℕ) : Except EnvironmentError Bytes := do
  require (length < 2^32) (.snapshotTooLarge "length")
  return bytes++be32 length

/-- The total size is checked after each entry, by the decoder before all of them. -/
def pushEntry (bytes : Bytes) (entry : Bytes × Bytes) : Except EnvironmentError Bytes := do
  require (isEntry entry.1 entry.2) (.malformedSnapshot "invalid Unix environment entry")
  require (entry.1.length ≤ maximumEntryBytes && entry.2.length ≤ maximumEntryBytes)
    (.snapshotTooLarge "entry")
  let named ← pushLength bytes entry.1.length
  let valued ← pushLength (named++entry.1) entry.2.length
  require ((valued++entry.2).length ≤ maximumSnapshotBytes) (.snapshotTooLarge "total size")
  return valued++entry.2

/-- Magic, count and entries. -/
def encode (entries : Environment) : Except EnvironmentError Bytes := do
  require (entries.size ≤ maximumEntries) (.snapshotTooLarge "entry count")
  let bytes ← pushLength snapshotMagic entries.size
  entries.entries.foldlM pushEntry bytes

def take (length : ℕ) (rest : Bytes) : Except EnvironmentError (Bytes × Bytes) := do
  require (length ≤ rest.length) (.malformedSnapshot "truncated field")
  return (rest.take length, rest.drop length)

def takeLength : Bytes → Except EnvironmentError (ℕ × Bytes)
  | a::b::c::d::rest => .ok (fromBe32 a b c d, rest)
  | _ => .error (.malformedSnapshot "truncated field")

def takeField (rest : Bytes) : Except EnvironmentError (Bytes × Bytes) := do
  let length ← takeLength rest
  require (length.1 ≤ maximumEntryBytes) (.snapshotTooLarge "entry")
  take length.1 length.2

/-- As many entries as were counted. -/
def decodeEntries : ℕ → Environment → Bytes → Except EnvironmentError (Environment × Bytes)
  | 0, entries, rest => .ok (entries, rest)
  | count+1, entries, rest => do
    let name ← takeField rest
    let value ← takeField name.2
    require (isEntry name.1 value.1) (.malformedSnapshot "invalid Unix environment entry")
    require (!entries.contains name.1) (.malformedSnapshot "duplicate environment name")
    decodeEntries count (entries.insert name.1 value.1) value.2

/-- The size is checked before anything is read. -/
def decode (bytes : Bytes) : Except EnvironmentError Environment := do
  require (bytes.length ≤ maximumSnapshotBytes) (.snapshotTooLarge "total size")
  let magic ← take snapshotMagic.length bytes
  require (magic.1 == snapshotMagic) (.malformedSnapshot "wrong magic or version")
  let count ← takeLength magic.2
  require (count.1 ≤ maximumEntries) (.snapshotTooLarge "entry count")
  let decoded ← decodeEntries count.1 .empty count.2
  require decoded.2.isEmpty (.malformedSnapshot "trailing bytes")
  return decoded.1

def wireField (field : Bytes) : Bytes := be32 field.length++field

def wireEntry (entry : Bytes × Bytes) : Bytes := wireField entry.1++wireField entry.2

structure Storable (entry : Bytes × Bytes) : Prop where
  valid : isEntry entry.1 entry.2 = true
  name : entry.1.length ≤ maximumEntryBytes
  value : entry.2.length ≤ maximumEntryBytes

def snapshot (entries : List (Bytes × Bytes)) : Bytes :=
  snapshotMagic++be32 entries.length++entries.flatMap wireEntry

variable {bs out : Bytes}

theorem pushLength_eq_ok {length : ℕ} :
    pushLength bs length = .ok out ↔ length < 2^32 ∧ bs++be32 length = out := by
  simp only [pushLength,bind_eq_ok,require_eq_ok,pure_eq_ok,decide_eq_true_eq,exists_const]

theorem pushEntry_eq_ok {e : Bytes × Bytes} :
    pushEntry bs e = .ok out ↔ Storable e ∧ bs++wireEntry e = out ∧
      out.length ≤ maximumSnapshotBytes := by
  simp only [pushEntry,bind_eq_ok,require_eq_ok,pushLength_eq_ok,pure_eq_ok,Bool.and_eq_true,
    decide_eq_true_eq,wireEntry,wireField,append_assoc]
  constructor
  · rintro ⟨-,he,-,⟨hn,hv⟩,_,⟨-,rfl⟩,_,⟨-,rfl⟩,-,hs,rfl⟩
    simp only [append_assoc] at hs ⊢
    exact ⟨⟨he,hn,hv⟩,trivial,hs⟩
  · rintro ⟨⟨he,hn,hv⟩,rfl,hs⟩
    have hsm : maximumEntryBytes < 2^32 := by decide
    refine ⟨(),he,(),⟨hn,hv⟩,_,⟨by omega,rfl⟩,_,⟨by omega,rfl⟩,(),?_,?_⟩
    · simpa only [append_assoc] using hs
    · simp only [append_assoc]

theorem foldlM_pushEntry {es : List (Bytes × Bytes)} (hb : bs.length ≤ maximumSnapshotBytes) :
    es.foldlM pushEntry bs = .ok out ↔ (∀ e ∈ es, Storable e) ∧
      bs++es.flatMap wireEntry = out ∧ out.length ≤ maximumSnapshotBytes := by
  induction es generalizing bs with
  | nil =>
    simp only [foldlM_nil,pure_eq_ok,flatMap_nil,append_nil]
    constructor
    · rintro rfl
      exact ⟨nofun,rfl,hb⟩
    · exact fun h => h.2.1
  | cons e xs ih =>
    simp only [foldlM_cons,bind_eq_ok,pushEntry_eq_ok,forall_mem_cons,flatMap_cons]
    constructor
    · rintro ⟨_,⟨he,rfl,hs⟩,hr⟩
      obtain ⟨hst,ho,hl⟩ := (ih hs).mp hr
      exact ⟨⟨he,hst⟩,by rw [← ho,append_assoc],hl⟩
    · rintro ⟨⟨he,hst⟩,rfl,hl⟩
      have hs : (bs++wireEntry e).length ≤ maximumSnapshotBytes := by
        simp only [length_append] at hl ⊢
        omega
      refine ⟨_,⟨he,rfl,hs⟩,(ih hs).mpr ⟨hst,?_,hl⟩⟩
      rw [append_assoc]

theorem encode_eq_ok {es : Environment} : encode es = .ok out ↔ es.size ≤ maximumEntries ∧
      (∀ e ∈ es.entries, Storable e) ∧ snapshot es.entries = out ∧
      out.length ≤ maximumSnapshotBytes := by
  have hm : (snapshotMagic++be32 es.size).length ≤ maximumSnapshotBytes := by
    simp [snapshotMagic,be32,maximumSnapshotBytes]
  simp only [encode,bind_eq_ok,require_eq_ok,pushLength_eq_ok,decide_eq_true_eq]
  constructor
  · rintro ⟨-,hc,_,⟨-,rfl⟩,hf⟩
    exact ⟨hc,(foldlM_pushEntry hm).mp hf⟩
  · rintro ⟨hc,hr⟩
    have hs : maximumEntries < 2^32 := by decide
    exact ⟨(),hc,_,⟨by omega,rfl⟩,(foldlM_pushEntry hm).mpr hr⟩

theorem takeLength_eq_ok {rest : Bytes} {length : ℕ} :
    takeLength bs = .ok (length, rest) ↔ length < 2^32 ∧ bs = be32 length++rest := by
  constructor
  · intro h
    unfold takeLength at h
    split at h
    · cases h
      rw [FrameStream.be32_fromBe32]
      exact ⟨FrameStream.fromBe32_lt ..,rfl⟩
    · cases h
  · rintro ⟨hl,rfl⟩
    simp only [be32,takeLength,cons_append,nil_append]
    rw [fromBe32_be32 hl]

theorem takeField_eq_ok {f rest : Bytes} :
    takeField bs = .ok (f, rest) ↔ f.length ≤ maximumEntryBytes ∧ bs = wireField f++rest := by
  simp only [takeField,take,bind_eq_ok,require_eq_ok,pure_eq_ok,decide_eq_true_eq,
    Prod.exists,takeLength_eq_ok,Prod.mk.injEq,wireField]
  constructor
  · rintro ⟨length,aft,⟨-,rfl⟩,-,hb,-,hl,rfl,rfl⟩
    rw [length_take,Nat.min_eq_left hl,append_assoc,List.take_append_drop]
    exact ⟨hb,rfl⟩
  · rintro ⟨hb,rfl⟩
    have hs : maximumEntryBytes < 2^32 := by decide
    exact ⟨f.length,f++rest,⟨by omega,by rw [append_assoc]⟩,(),hb,(),by simp,by simp,by simp⟩

theorem decodeEntries_eq_ok {k : ℕ} {bef aft : Environment} {xs : Bytes} :
    decodeEntries k bef bs = .ok (aft, xs) ↔ ∃ es : List (Bytes × Bytes),
      es.length = k ∧ (∀ e ∈ es, Storable e) ∧
      bs = es.flatMap wireEntry++xs ∧
      aft.entries.Perm (es++bef.entries) := by
  induction k generalizing bef bs with
  | zero =>
    simp only [decodeEntries,Except.ok.injEq,Prod.mk.injEq]
    constructor
    · rintro ⟨rfl,rfl⟩
      exact ⟨[],rfl,nofun,rfl,.rfl⟩
    · rintro ⟨es,hc,-,rfl,hp⟩
      cases length_eq_zero_iff.mp hc
      exact ⟨(OrderedMap.eq_of_perm hp).symm,rfl⟩
  | succ k ih =>
    simp only [decodeEntries,bind_eq_ok,require_eq_ok,Prod.exists,takeField_eq_ok,
      Bool.not_eq_true',OrderedMap.contains_eq_false,ih]
    constructor
    · rintro ⟨n,_,⟨hn,rfl⟩,v,_,⟨hva,rfl⟩,-,hv,-,hf,es,rfl,hs,rfl,hp⟩
      refine ⟨(n, v)::es,rfl,?_,?_,?_⟩
      · exact forall_mem_cons.mpr ⟨⟨hv,hn,hva⟩,hs⟩
      · simp only [flatMap_cons,wireEntry,append_assoc]
      · have hi := (OrderedMap.perm_insert v hf).append_left es
        exact hp.trans (hi.trans perm_middle)
    · rintro ⟨_ | ⟨⟨n,v⟩,es⟩,hc,hs,rfl,hp⟩
      · cases hc
      obtain ⟨⟨hv,hn,hva⟩,hr⟩ := forall_mem_cons.mp hs
      have hno := (hp.map Prod.fst).nodup_iff.mp aft.keys_nodup
      have hf : n ∉ bef.keys := by
        intro hm
        rw [cons_append,map_cons,nodup_cons,map_append] at hno
        exact hno.1 (mem_append_right _ hm)
      have hi := (OrderedMap.perm_insert v hf).append_left es
      refine ⟨n,_,⟨hn,?_⟩,v,_,⟨hva,rfl⟩,(),hv,(),hf,es,
        Nat.succ.inj hc,hr,rfl,hp.trans (hi.trans perm_middle).symm⟩
      simp only [flatMap_cons,wireEntry,append_assoc]

theorem decode_eq_ok {env : Environment} : decode bs = .ok env ↔ ∃ entries : List (Bytes × Bytes),
      entries.length ≤ maximumEntries ∧ (∀ e ∈ entries, Storable e) ∧
      bs = snapshot entries ∧ bs.length ≤ maximumSnapshotBytes ∧
      env.entries.Perm entries := by
  have hsm : maximumEntries < 2^32 := by decide
  simp only [decode,take,bind_eq_ok,require_eq_ok,pure_eq_ok,decide_eq_true_eq,beq_iff_eq,
    Prod.exists,takeLength_eq_ok,decodeEntries_eq_ok,List.isEmpty_iff,Prod.mk.injEq]
  constructor
  · rintro ⟨-,hs,magic,_,⟨-,hl,rfl,rfl⟩,-,hm,_,_,⟨-,hc⟩,-,hb,_,_,⟨entries,rfl,hst,rfl,hp⟩,-,rfl,rfl⟩
    refine ⟨entries,hb,hst,?_,hs,?_⟩
    · rw [← List.take_append_drop snapshotMagic.length bs,hm,hc,snapshot]
      simp only [append_nil,append_assoc]
    · simpa [OrderedMap.empty] using hp
  · rintro ⟨entries,hb,hst,rfl,hs,hp⟩
    have hd : (snapshot entries).drop snapshotMagic.length =
        be32 entries.length++(entries.flatMap wireEntry++[]) := by
      simp only [snapshot,append_assoc,drop_left,append_nil]
    have ht : (snapshot entries).take snapshotMagic.length = snapshotMagic := by
      simp only [snapshot,append_assoc,take_left]
    refine ⟨(),hs,_,_,⟨(),?_,rfl,rfl⟩,(),ht,_,_,⟨?_,hd⟩,(),hb,_,_,
      ⟨entries,rfl,hst,rfl,?_⟩,(),rfl,rfl⟩
    · simp only [snapshot,append_assoc,length_append]
      omega
    · omega
    · simpa [OrderedMap.empty] using hp

/-- What is encoded is decoded, and what is decoded can be encoded again in as many bytes. -/
theorem snapshot_round_trip :
    (∀ environment bytes, encode environment = .ok bytes → decode bytes = .ok environment) ∧
      ∀ bytes environment, decode bytes = .ok environment →
        ∃ again, encode environment = .ok again ∧ again.length = bytes.length ∧
          decode again = .ok environment := by
  have hd : ∀ environment bytes, encode environment = .ok bytes →
      decode bytes = .ok environment := by
    intro environment bytes h
    obtain ⟨hc,hst,hb,hs⟩ := encode_eq_ok.mp h
    exact decode_eq_ok.mpr ⟨environment.entries,hc,hst,hb.symm,hs,.rfl⟩
  refine ⟨hd,?_⟩
  intro bytes environment h
  obtain ⟨es,hc,hst,rfl,hs,hp⟩ := decode_eq_ok.mp h
  have hl : (snapshot environment.entries).length = (snapshot es).length := by
    have hen := (hp.flatMap_right wireEntry).length_eq
    simp only [snapshot,length_append,hen,hp.length_eq]
  have he := encode_eq_ok.mpr ⟨hp.length_eq.trans_le hc,
      fun e hm => hst e (hp.mem_iff.mp hm),rfl,hl.trans_le hs⟩
  exact ⟨_,he,hl,hd _ _ he⟩

theorem snapshot_round_trip_unordered :
    ∃ again, encode (.ofList [([65], []),([66], [1])]) = .ok again ∧
      again.length = (snapshot [([66], [1]),([65], [])]).length ∧
      decode again = .ok (.ofList [([65], []),([66], [1])]) :=
  snapshot_round_trip.2 (snapshot [([66], [1]),([65], [])]) _ (by decide)

/-- The probe takes the first offset of a shell's output at which the rest decodes. -/
def decodeEmbedded : Bytes → Except EnvironmentError Environment
  | [] => .error (.malformedSnapshot "probe did not emit a valid frame")
  | byte::rest =>
    if snapshotMagic.isPrefixOf (byte::rest) then
      match decode (byte::rest) with
      | .ok entries => .ok entries
      | .error _ => decodeEmbedded rest
    else decodeEmbedded rest

structure Clean (field : Bytes) : Prop where
  zeroFree : 0 ∉ field
  bounded : field.length < 2^32

variable {field tail rest noise : Bytes} {flds : List Bytes}

theorem not_field (hf : Clean field) {a b c d : UInt8}
    (h : wireField field++tail = a::b::c::d::rest) (i : ℕ) (hi : i < fromBe32 a b c d)
    (hz : rest[i]? = some 0) : False := by
  simp only [wireField,be32,cons_append,nil_append,cons.injEq] at h
  obtain ⟨rfl,rfl,rfl,rfl,rfl⟩ := h
  rw [fromBe32_be32 hf.bounded] at hi
  rw [getElem?_append_left hi] at hz
  exact hf.zeroFree (mem_of_getElem? hz)

theorem le_fromBe32 (a b c d : UInt8) : d.toNat ≤ fromBe32 a b c d := by
  unfold fromBe32
  omega

/-- The beginning of every snapshot: the magic and two bytes of a small count. -/
def opening (rest : Bytes) : Bytes := snapshotMagic++0::0::rest

theorem not_fields_drop (h : ∀ field ∈ flds, Clean field) {j : ℕ} (hj : j ≤ 9) :
    flds.flatMap wireField ≠ (opening rest).drop j := by
  cases flds with
  | nil => interval_cases j <;> exact nofun
  | cons field flds =>
    intro heq
    have hf := h field mem_cons_self
    interval_cases j
    · exact not_field hf heq 5 (by decide) rfl
    · exact not_field hf heq 4 (by decide) rfl
    · exact not_field hf heq 3 (by decide) rfl
    · exact not_field hf heq 2 (by decide) rfl
    · exact not_field hf heq 1 (by decide) rfl
    · exact not_field hf heq 0 (by decide) rfl
    · exact not_field hf heq 1 (by decide) rfl
    all_goals exact not_field hf heq 0 (by decide) rfl

theorem not_fields_append (h : ∀ field ∈ flds, Clean field) :
    flds.flatMap wireField ≠ noise++opening rest := by
  induction flds generalizing noise with
  | nil => simp [opening,snapshotMagic]
  | cons field flds ih =>
    obtain ⟨hf,hfi⟩ := forall_mem_cons.mp h
    intro heq
    rw [flatMap_cons] at heq
    match noise with
    | [] => exact not_field hf heq 5 (by decide) rfl
    | [a] => exact not_field hf heq 6 (le_fromBe32 a 67 68 69 |>.trans_lt' (by decide)) rfl
    | [a,b] => exact not_field hf heq 7 (le_fromBe32 a b 67 68 |>.trans_lt' (by decide)) rfl
    | [a,b,c] => exact not_field hf heq 8 (le_fromBe32 a b c 67 |>.trans_lt' (by decide)) rfl
    | a::b::c::d::noise =>
      simp only [wireField,be32,cons_append,nil_append,cons.injEq] at heq
      obtain ⟨-,-,-,-,heq⟩ := heq
      rcases append_eq_append_iff.mp heq with ⟨more,-,ht⟩ | ⟨cut,hc,ho⟩
      · exact ih hfi ht
      · have hs : cut.length ≤ 9 := by
          by_contra hl
          have hz : cut[9]? = some 0 := by
            rw [← getElem?_append_left (not_le.mp hl),← ho]
            rfl
          exact hf.zeroFree (hc ▸ mem_append_right _ (mem_of_getElem? hz))
        exact not_fields_drop hfi hs (ho ▸ drop_left.symm)

theorem Storable.clean {e : Bytes × Bytes} (h : Storable e) : Clean e.1 ∧ Clean e.2 := by
  obtain ⟨hv,hn,hva⟩ := h
  have hs : maximumEntryBytes < 2^32 := by decide
  simp only [isEntry,Bool.not_eq_true',Bool.or_eq_false_iff,contains_eq_mem,
    decide_eq_false_iff_not] at hv
  exact ⟨⟨hv.1.2,by omega⟩,hv.2,by omega⟩

/-- No snapshot ends with another one. -/
theorem eq_nil_of_append_snapshot {es others : List (Bytes × Bytes)}
    (hco : es.length ≤ maximumEntries) (hot : ∀ e ∈ others, Storable e)
    (h : noise++snapshot es = snapshot others) : noise = [] := by
  obtain ⟨rest,ho⟩ : ∃ rest, snapshot es = opening rest := by
    have hs : es.length < 2^16 := hco.trans_lt (by decide)
    have hh : es.length / 2^24 = 0 ∧ es.length / 2^16 = 0 := by omega
    refine ⟨UInt8.ofNat (es.length / 2^8)::UInt8.ofNat es.length :: es.flatMap wireEntry,?_⟩
    rw [snapshot,be32,hh.1,hh.2,append_assoc]
    rfl
  have hc : ∀ field ∈ others.flatMap fun e => [e.1,e.2], Clean field := by
    simp only [mem_flatMap]
    rintro field ⟨e,he,hfi⟩
    obtain ⟨hn,hv⟩ := (hot e he).clean
    rcases mem_pair.mp hfi with rfl | rfl
    · exact hn
    · exact hv
  have hf : others.flatMap wireEntry = (others.flatMap fun e => [e.1,e.2]).flatMap wireField := by
    simp only [flatMap_assoc,flatMap_cons,flatMap_nil,append_nil]
    rfl
  rw [ho,snapshot,append_assoc,hf] at h
  rcases append_eq_append_iff.mp h with ⟨more,hm,hr⟩ | ⟨between,hb,hr⟩
  · by_contra hne
    obtain ⟨byte,noise,rfl⟩ := exists_cons_of_ne_nil hne
    cases more with
    | nil =>
      exact not_fields_drop hc (j := 4) (by decide) (congrArg (drop 4) hr.symm)
    | cons fst more =>
      -- the first byte of the magic stands nowhere else in it
      have hfr := (cons.inj hr).1.symm
      have ht : 67 ∈ snapshotMagic.tail := by
        rw [hm]
        exact mem_append_right _ (hfr ▸ mem_cons_self)
      exact absurd ht (by decide)
  · have hf := congrArg (drop 4) hr
    exfalso
    rcases between with _ | ⟨a,_ | ⟨b,_ | ⟨c,_ | ⟨d,between⟩⟩⟩⟩
    · exact not_fields_drop hc (j := 4) (by decide) hf
    · exact not_fields_drop hc (j := 3) (by decide) hf
    · exact not_fields_drop hc (j := 2) (by decide) hf
    · exact not_fields_drop hc (j := 1) (by decide) hf
    · exact not_fields_append hc hf

theorem decodeEmbedded_append (environment : Environment) (bytes noise : Bytes)
    (h : encode environment = .ok bytes) : decodeEmbedded (noise++bytes) = .ok environment := by
  obtain ⟨hc,hst,rfl,hs⟩ := encode_eq_ok.mp h
  have hd := decode_eq_ok.mpr ⟨environment.entries,hc,hst,rfl,hs,.rfl⟩
  induction noise with
  | nil =>
    change decodeEmbedded (67::_) = _
    rw [decodeEmbedded,if_pos (by rfl)]
    change (match decode (snapshot environment.entries) with | .ok _ => _ | .error _ => _) = _
    rw [hd]
  | cons byte noise ih =>
    rw [cons_append,decodeEmbedded]
    split_ifs
    · split
      · next fs hf =>
        obtain ⟨es,-,he,heq,-⟩ := decode_eq_ok.mp hf
        cases @eq_nil_of_append_snapshot (byte::noise) _ _ hc he heq
      · exact ih
    · exact ih

theorem decodeEmbedded_after_magic :
    decodeEmbedded (snapshotMagic++snapshot [([65], [66])]) = .ok (.ofList [([65], [66])]) :=
  decodeEmbedded_append _ _ snapshotMagic (by decide)

end Cdenv.EnvironmentSnapshot
