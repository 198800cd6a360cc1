import AgentObservability.Foundation.JsonReader
import AgentObservability.Foundation.Occurrence
import AgentObservability.Runtime.Singleton

/-!
# The metadata of a report reservation

A report build reserves the bytes it may write, and then binds the reservation to its
staging file. The record of this is one small JSON file that survives its owner, and a
record that cannot be read back would keep every later build out.

`serde_json` is a parameter: `fromSlice` reads a document. What the derived
`Serialize` and `Deserialize` make of a record and of a document is here.
-/

namespace AgentObservability.Runtime

open Foundation Foundation.Json

/-- `REPORT_RESERVATION_METADATA_ALLOWANCE`. -/
def reportReservationMetadataAllowance : ℕ := 4096

/-- `MAX_METADATA_BYTES`. -/
def maxMetadataBytes : ℕ := 512

/-- `MAX_BYTE_CEILING`. -/
def maxByteCeiling : ℕ := 20 * 1024 * 1024 * 1024

/-- `STAGING_PREFIX`, and `STAGING_FILE_PREFIX` of the store. -/
def stagingPrefix : String := ".report-view.sqlite3.staging."

/-- `ReservationError`, as far as a record can raise it. -/
inductive ReservationError where
  /-- `Corrupt`. -/
  | corrupt
  /-- `Capacity`. -/
  | capacity
  deriving DecidableEq, Repr

/-- `Kind`. -/
inductive Kind where
  | reportBuild
  deriving DecidableEq, Repr

/-- `StagingBinding`. -/
structure StagingBinding where
  rootDev : UInt64
  rootIno : UInt64
  parentDev : UInt64
  parentIno : UInt64
  fileDev : UInt64
  fileIno : UInt64
  name : String
  deriving DecidableEq, Repr

/-- `Metadata`. -/
structure Metadata where
  version : UInt8
  kind : Kind
  nonce : Nonce
  byteCeiling : UInt64
  staging : Option StagingBinding
  deriving DecidableEq

/-! ### The derived `Serialize` -/

/-- A number in JSON. -/
def u64Value (n : UInt64) : Value := .number (.posInt n)

/-- A byte in JSON. -/
def u8Value (n : UInt8) : Value := u64Value n.toUInt64

namespace StagingBinding

/-- The fields in JSON. -/
def toValue (binding : StagingBinding) : Value :=
  .object [("root_dev", u64Value binding.rootDev), ("root_ino", u64Value binding.rootIno),
    ("parent_dev", u64Value binding.parentDev), ("parent_ino", u64Value binding.parentIno),
    ("file_dev", u64Value binding.fileDev), ("file_ino", u64Value binding.fileIno), ("name", .string binding.name)]

end StagingBinding

/-- A kind in JSON. -/
def Kind.toValue : Kind → Value
  | .reportBuild => .string "report_build"

/-- A record in JSON, without the staging file where it has none. -/
def Metadata.toValue (metadata : Metadata) : Value :=
  .object ([("version", u8Value metadata.version), ("kind", metadata.kind.toValue),
    ("nonce", .array (metadata.nonce.1.map u8Value)), ("byte_ceiling", u64Value metadata.byteCeiling)] ++
    metadata.staging.toList.map fun binding => ("staging", binding.toValue))

/-! ### The derived `Deserialize` -/

/-- `u8`. -/
def u8Of (v : Value) : Option UInt8 := (v.asUnsigned 8).map UInt64.toUInt8

/-- `[u8; 32]`. -/
def nonceOf (v : Value) : Option Nonce := do
  let items ← v.asArray
  let bytes ← items.mapM u8Of
  if h : bytes.length = 32 then some ⟨bytes, h⟩ else none

/-- A unit variant, by its name or as an object. -/
def Kind.ofValue : Value → Option Kind
  | .string "report_build" => some .reportBuild
  | .object [("report_build", .null)] => some .reportBuild
  | _ => none

namespace StagingBinding

/-- The fields, all of them. -/
def ofValue (v : Value) : Option StagingBinding := do
  let field ← v.fields ["root_dev", "root_ino", "parent_dev", "parent_ino", "file_dev", "file_ino", "name"]
  let rootDev ← (← field "root_dev").asU64
  let rootIno ← (← field "root_ino").asU64
  let parentDev ← (← field "parent_dev").asU64
  let parentIno ← (← field "parent_ino").asU64
  let fileDev ← (← field "file_dev").asU64
  let fileIno ← (← field "file_ino").asU64
  let name ← (← field "name").asStr
  return { rootDev, rootIno, parentDev, parentIno, fileDev, fileIno, name }

end StagingBinding

/-- An optional binding, which may be left out or be `null`. -/
def stagingOf : Option Value → Option (Option StagingBinding)
  | none | some .null => some none
  | some v => (StagingBinding.ofValue v).map some

/-- A record from JSON. -/
def Metadata.ofValue (v : Value) : Option Metadata := do
  let field ← v.fields ["version", "kind", "nonce", "byte_ceiling", "staging"]
  let version ← u8Of (← field "version")
  let kind ← Kind.ofValue (← field "kind")
  let nonce ← nonceOf (← field "nonce")
  let byteCeiling ← (← field "byte_ceiling").asU64
  let staging ← stagingOf (field "staging")
  return { version, kind, nonce, byteCeiling, staging }

/-! ### Names of staging files -/

/-- The name that `create_staging_file` gives to a file. -/
def stagingName (pid : UInt32) (sequence : UInt64) : String :=
  stagingPrefix ++ toString pid.toNat ++ "." ++ toString sequence.toNat

/-- `str::parse::<u32>`. -/
def parseU32 (text : String) : Option UInt32 :=
  (parseU64 text).bind fun n => if n.toNat < 2 ^ 32 then some n.toUInt32 else none

/-- `valid_staging_name`. -/
def validStagingName (name : String) : Bool :=
  match stripPrefix stagingPrefix.toList name.toList with
  | none => false
  | some suffix =>
    match splitOnce '.' suffix with
    | none => false
    | some (pid, sequence) =>
      !pid.isEmpty && !sequence.isEmpty && !sequence.contains '.' &&
        (parseU32 (String.ofList pid)).any (fun value => toString value.toNat = String.ofList pid) &&
        (parseU64 (String.ofList sequence)).any fun value => toString value.toNat = String.ofList sequence

/-! ### Reading and writing -/

/-- `read`, of the bytes of the file. -/
def readMetadata (fromSlice : List UInt8 → Option Value) (bytes : List UInt8) :
    Except ReservationError (Option Metadata) :=
  if bytes.length = 0 then .error .corrupt
  else if maxMetadataBytes < bytes.length then .error .corrupt
  else
    match (fromSlice bytes).bind Metadata.ofValue with
    | none => .error .corrupt
    | some metadata =>
      if (metadata.version = 1 ∧ metadata.staging = none ∨ metadata.version = 2 ∧ metadata.staging.isSome) ∧
          metadata.nonce.1 ≠ List.replicate 32 0 ∧
          (1 ≤ metadata.byteCeiling.toNat ∧ metadata.byteCeiling.toNat ≤ maxByteCeiling) ∧
          metadata.staging.all fun binding => validStagingName binding.name then
        .ok (some metadata)
      else .error .corrupt

/-- The body that `publish_metadata` writes. -/
def metadataBody (metadata : Metadata) : Except ReservationError (List UInt8) :=
  let body := utf8 metadata.toValue.json
  if maxMetadataBytes < body.length then .error .corrupt else .ok body

namespace WriteReservation

/-- The record of `acquire`. -/
def acquire (nonce : Nonce) (byteCeiling : UInt64) : Except ReservationError Metadata :=
  if ¬ (1 ≤ byteCeiling.toNat ∧ byteCeiling.toNat ≤ maxByteCeiling) then .error .capacity
  else if nonce.1 = List.replicate 32 0 then .error .corrupt
  else .ok { version := 1, kind := .reportBuild, nonce, byteCeiling, staging := none }

/-- The record of `bind_staging`, with what `inspect_staging` has seen of the file. -/
def bindStaging (metadata : Metadata) (observed : StagingBinding) : Except ReservationError Metadata :=
  if metadata.staging.isSome ∨ metadata.version ≠ 1 ∨ metadata.byteCeiling.toNat < reportReservationMetadataAllowance then
    .error .corrupt
  else if !validStagingName observed.name then .error .corrupt
  else .ok { metadata with version := 2, staging := some observed }

end WriteReservation

/-! ### Names of staging files -/

theorem toList_stagingName (pid : UInt32) (sequence : UInt64) :
    (stagingName pid sequence).toList =
      stagingPrefix.toList ++ (Nat.toDigits 10 pid.toNat ++ '.' :: Nat.toDigits 10 sequence.toNat) := by
  simp [stagingName, Nat.toString_eq_repr, Nat.toList_repr]

theorem ofList_toDigits (n : ℕ) : String.ofList (Nat.toDigits 10 n) = toString n := by
  rw [Nat.toString_eq_repr, Nat.repr_eq_ofList_toDigits]

theorem not_mem_toDigits (n : ℕ) : '.' ∉ Nat.toDigits 10 n := by
  intro h
  exact absurd (Nat.isDigit_of_mem_toDigits (by decide) (by decide) h) (by decide)

theorem parseU32_toString (n : UInt32) : parseU32 (toString n.toNat) = some n := by
  have hparse := parseU64_toString n.toUInt64
  rw [UInt32.toNat_toUInt64] at hparse
  unfold parseU32
  rw [hparse]
  simp only [Option.bind_some, UInt32.toNat_toUInt64]
  rw [if_pos n.toNat_lt, UInt32.toUInt32_toUInt64]

theorem any_eq_some {α : Type} {o : Option α} {p : α → Bool} (h : o.any p = true) : ∃ a, o = some a ∧ p a = true := by
  cases o with
  | none => cases h
  | some a => exact ⟨a, rfl, h⟩

/-- **The names that are valid are those that a staging file is given.** -/
theorem validStagingName_iff {name : String} :
    validStagingName name = true ↔ ∃ pid sequence, name = stagingName pid sequence := by
  constructor
  · intro h
    unfold validStagingName at h
    cases hsuffix : stripPrefix stagingPrefix.toList name.toList with
    | none => rw [hsuffix] at h; cases h
    | some suffix =>
      simp only [hsuffix] at h
      cases hsplit : splitOnce '.' suffix with
      | none => rw [hsplit] at h; cases h
      | some parts =>
        obtain ⟨pid, sequence⟩ := parts
        simp only [hsplit, Bool.and_eq_true] at h
        obtain ⟨⟨-, hpid⟩, hsequence⟩ := h
        obtain ⟨p, -, hp⟩ := any_eq_some hpid
        obtain ⟨n, -, hn⟩ := any_eq_some hsequence
        have hp : Nat.toDigits 10 p.toNat = pid := by
          have htext := of_decide_eq_true hp
          rw [← ofList_toDigits] at htext
          exact String.ofList_inj.mp htext
        have hn : Nat.toDigits 10 n.toNat = sequence := by
          have htext := of_decide_eq_true hn
          rw [← ofList_toDigits] at htext
          exact String.ofList_inj.mp htext
        refine ⟨p, n, String.toList_inj.mp ?_⟩
        rw [toList_stagingName, hp, hn, ← splitOnce_eq_some hsplit]
        exact append_of_stripPrefix hsuffix
  · rintro ⟨pid, sequence, rfl⟩
    unfold validStagingName
    rw [toList_stagingName, stripPrefix_append]
    simp only
    rw [splitOnce_append (not_mem_toDigits _)]
    have hpid : Nat.toDigits 10 pid.toNat ≠ [] := Nat.toDigits_ne_nil
    have hsequence : Nat.toDigits 10 sequence.toNat ≠ [] := Nat.toDigits_ne_nil
    simp only [ofList_toDigits, parseU32_toString, parseU64_toString]
    simp [hpid, hsequence, not_mem_toDigits]

/-! ### A record and its document -/

theorem u8Of_u8Value (n : UInt8) : u8Of (u8Value n) = some n := by
  have hlt : n.toNat < 256 := n.toNat_lt
  simp [u8Of, u8Value, u64Value, Value.asUnsigned, Value.asU64, hlt]

theorem nonceOf_array (nonce : Nonce) : nonceOf (.array (nonce.1.map u8Value)) = some nonce := by
  have hbytes : (nonce.1.map u8Value).mapM u8Of = some nonce.1 := by
    induction nonce.1 with
    | nil => rfl
    | cons byte bytes ih => simp [List.mapM_cons, u8Of_u8Value, ih]
  unfold nonceOf
  simp only [Value.asArray, Option.bind_eq_bind, Option.bind_some, hbytes]
  rw [dif_pos nonce.2]

theorem StagingBinding.ofValue_toValue (binding : StagingBinding) :
    StagingBinding.ofValue binding.toValue = some binding := by
  unfold StagingBinding.ofValue StagingBinding.toValue
  rw [Value.fields_object (show _ = ["root_dev", "root_ino", "parent_dev", "parent_ino", "file_dev", "file_ino", "name"]
    from rfl) (by decide) (by decide)]
  rfl

/-- **A record is what its document says.** -/
theorem Metadata.ofValue_toValue (metadata : Metadata) : Metadata.ofValue metadata.toValue = some metadata := by
  obtain ⟨version, kind, nonce, byteCeiling, staging⟩ := metadata
  unfold Metadata.ofValue Metadata.toValue
  cases kind
  cases staging with
  | none =>
    rw [Value.fields_object (show _ = ["version", "kind", "nonce", "byte_ceiling"] from rfl) (by decide) (by decide)]
    simp [u8Of_u8Value, Kind.toValue, Kind.ofValue, nonceOf_array, u64Value, Value.asU64, stagingOf]
  | some binding =>
    have hbinding : stagingOf (some binding.toValue) = some (some binding) := by
      show (StagingBinding.ofValue binding.toValue).map some = _
      rw [binding.ofValue_toValue]
      rfl
    rw [Value.fields_object (show _ = ["version", "kind", "nonce", "byte_ceiling", "staging"] from rfl) (by decide)
      (by decide)]
    simp [u8Of_u8Value, Kind.toValue, Kind.ofValue, nonceOf_array, u64Value, Value.asU64, hbinding]

/-! ### The size of a record -/

theorem byteLength_u64Value (n : UInt64) : byteLength (u64Value n).json ≤ 20 :=
  byteLength_nat_le (by decide) (Nat.lt_trans n.toNat_lt (by decide))

theorem byteLength_u8Value (n : UInt8) : byteLength (u8Value n).json ≤ 3 := by
  have hlt := n.toNat_lt
  refine byteLength_nat_le (by decide) ?_
  rw [UInt8.toNat_toUInt64]
  omega

/-- The name of a staging file needs no escapes. -/
theorem byteLength_stagingName (pid : UInt32) (sequence : UInt64) :
    byteLength (Value.string (stagingName pid sequence)).json ≤ 62 := by
  have hall : (stagingPrefix.toList.all fun c => escape c = [c] ∧ c.utf8Size = 1) = true := by decide
  have hprefix : ∀ c ∈ stagingPrefix.toList, escape c = [c] ∧ c.utf8Size = 1 := fun c hc =>
    of_decide_eq_true (List.all_eq_true.mp hall c hc)
  have hdot : escape '.' = ['.'] ∧ ('.' : Char).utf8Size = 1 := by decide
  have hdigits : ∀ n, ∀ c ∈ Nat.toDigits 10 n, escape c = [c] ∧ c.utf8Size = 1 := fun n c hc =>
    escape_of_isDigit (Nat.isDigit_of_mem_toDigits (by decide) (by decide) hc)
  have hplain : ∀ c ∈ (stagingName pid sequence).toList, escape c = [c] ∧ c.utf8Size = 1 := by
    intro c hc
    rw [toList_stagingName] at hc
    rcases List.mem_append.mp hc with hc | hc
    · exact hprefix c hc
    · rcases List.mem_append.mp hc with hc | hc
      · exact hdigits _ c hc
      · rcases List.mem_cons.mp hc with rfl | hc
        · exact hdot
        · exact hdigits _ c hc
  have hsize : (stagingName pid sequence).utf8ByteSize = (stagingName pid sequence).toList.length := by
    have h := utf8ByteSize_of_ascii fun c hc => (hplain c hc).2
    rwa [String.ofList_toList] at h
  have hpid : (Nat.toDigits 10 pid.toNat).length ≤ 10 :=
    (Nat.length_toDigits_le_iff (by decide) (by decide)).mpr (Nat.lt_trans pid.toNat_lt (by decide))
  have hsequence : (Nat.toDigits 10 sequence.toNat).length ≤ 20 :=
    (Nat.length_toDigits_le_iff (by decide) (by decide)).mpr (Nat.lt_trans sequence.toNat_lt (by decide))
  have hlen : stagingPrefix.toList.length = 29 := by decide
  show byteLength (str (stagingName pid sequence)) ≤ 62
  rw [byteLength_str fun c hc => (hplain c hc).1, hsize, toList_stagingName, List.length_append, List.length_append,
    List.length_cons]
  omega

/-- The bytes of a member apart from its value. -/
def keySize (key : String) : ℕ := 3 + (String.ofList (key.toList.flatMap escape)).utf8ByteSize

theorem byteLength_toValue_binding {binding : StagingBinding} {pid : UInt32} {sequence : UInt64}
    (hname : binding.name = stagingName pid sequence) : byteLength binding.toValue.json ≤ 267 := by
  have hkeys : keySize "root_dev" = 11 ∧ keySize "root_ino" = 11 ∧ keySize "parent_dev" = 13 ∧
      keySize "parent_ino" = 13 ∧ keySize "file_dev" = 11 ∧ keySize "file_ino" = 11 ∧ keySize "name" = 7 := by decide
  unfold keySize at hkeys
  have hnumber := byteLength_u64Value
  have hsize := byteLength_stagingName pid sequence
  rw [← hname] at hsize
  unfold StagingBinding.toValue
  simp only [Value.json, Value.jsonMembers, byteLength_object, List.map_cons, List.map_nil, List.sum_cons, List.sum_nil,
    List.length_cons, List.length_nil] at hsize ⊢
  have := hnumber binding.rootDev
  have := hnumber binding.rootIno
  have := hnumber binding.parentDev
  have := hnumber binding.parentIno
  have := hnumber binding.fileDev
  have := hnumber binding.fileIno
  omega

theorem byteLength_nonce (nonce : Nonce) : byteLength (Value.array (nonce.1.map u8Value)).json ≤ 129 := by
  have hitems : Value.jsonItems (nonce.1.map u8Value) = nonce.1.map fun byte => (u8Value byte).json := by
    induction nonce.1 with
    | nil => rfl
    | cons byte bytes ih => rw [List.map_cons, Value.jsonItems, ih, List.map_cons]
  have hsum : ((nonce.1.map fun byte => (u8Value byte).json).map byteLength).sum ≤ 3 * nonce.1.length := by
    induction nonce.1 with
    | nil => exact Nat.le_refl _
    | cons byte bytes ih =>
      have := byteLength_u8Value byte
      rw [List.map_cons, List.map_cons, List.sum_cons, List.length_cons]
      omega
  have hlen := nonce.2
  rw [Value.json, hitems, byteLength_array, List.length_map]
  omega

/-- **A record is smaller than the reader allows**, whatever its numbers are. -/
theorem length_body {metadata : Metadata}
    (hname : ∀ binding ∈ metadata.staging, ∃ pid sequence, binding.name = stagingName pid sequence) :
    (utf8 metadata.toValue.json).length ≤ maxMetadataBytes := by
  have hkeys : keySize "version" = 10 ∧ keySize "kind" = 7 ∧ keySize "nonce" = 8 ∧ keySize "byte_ceiling" = 15 ∧
      keySize "staging" = 10 := by decide
  unfold keySize at hkeys
  have hkind : byteLength metadata.kind.toValue.json ≤ 14 := by
    cases metadata.kind
    decide
  have hversion := byteLength_u8Value metadata.version
  have hnonce := byteLength_nonce metadata.nonce
  have hceiling := byteLength_u64Value metadata.byteCeiling
  rw [length_utf8]
  unfold Metadata.toValue maxMetadataBytes
  cases hstaging : metadata.staging with
  | none =>
    simp only [Option.toList_none, List.map_nil, List.append_nil]
    rw [Value.json]
    simp only [Value.jsonMembers, byteLength_object, List.map_cons, List.map_nil, List.sum_cons, List.sum_nil,
      List.length_cons, List.length_nil]
    omega
  | some binding =>
    obtain ⟨pid, sequence, hbinding⟩ := hname binding hstaging
    have hsize := byteLength_toValue_binding hbinding
    simp only [Option.toList_some, List.map_cons, List.map_nil, List.cons_append, List.nil_append]
    rw [Value.json]
    simp only [Value.jsonMembers, byteLength_object, List.map_cons, List.map_nil, List.sum_cons, List.sum_nil,
      List.length_cons, List.length_nil]
    omega

/-! ### The codec -/

/-- What a reader of JSON does with a document that was printed. -/
def ReadsPrinted (fromSlice : List UInt8 → Option Value) : Prop :=
  ∀ v : Value, v.Plain → fromSlice (utf8 v.json) = some v

theorem plain_u64Value (n : UInt64) : (u64Value n).Plain := trivial

theorem plain_nonce (bytes : List UInt8) : Value.PlainItems (bytes.map u8Value) := by
  induction bytes with
  | nil => trivial
  | cons byte bytes ih => exact ⟨trivial, ih⟩

theorem plain_toValue (metadata : Metadata) : metadata.toValue.Plain := by
  have hnonce := plain_nonce metadata.nonce.1
  obtain ⟨version, kind, nonce, byteCeiling, staging⟩ := metadata
  cases kind
  cases staging with
  | none => exact ⟨trivial, trivial, hnonce, trivial, trivial⟩
  | some binding =>
    exact ⟨trivial, trivial, hnonce, trivial,
      ⟨trivial, trivial, trivial, trivial, trivial, trivial, trivial, trivial⟩, trivial⟩

/-- The record can be written, and is read back as it is. -/
def Readable (fromSlice : List UInt8 → Option Value) (metadata : Metadata) : Prop :=
  ∃ body, metadataBody metadata = .ok body ∧ body.length ≤ maxMetadataBytes ∧
    readMetadata fromSlice body = .ok (some metadata)

/-- What the reader asks of a record. -/
structure Metadata.Valid (metadata : Metadata) : Prop where
  version : metadata.version = 1 ∧ metadata.staging = none ∨ metadata.version = 2 ∧ metadata.staging.isSome = true
  nonce : metadata.nonce.1 ≠ List.replicate 32 0
  ceiling : 1 ≤ metadata.byteCeiling.toNat ∧ metadata.byteCeiling.toNat ≤ maxByteCeiling
  name : ∀ binding ∈ metadata.staging, ∃ pid sequence, binding.name = stagingName pid sequence

theorem Metadata.Valid.readable {fromSlice : List UInt8 → Option Value} (hreads : ReadsPrinted fromSlice)
    {metadata : Metadata} (h : metadata.Valid) : Readable fromSlice metadata := by
  have hlength := length_body h.name
  have hnonempty : (utf8 metadata.toValue.json).length ≠ 0 := by
    rw [length_utf8]
    unfold Metadata.toValue
    rw [Value.json, byteLength_object]
    omega
  have hname : metadata.staging.all (fun binding => validStagingName binding.name) = true := by
    cases hstaging : metadata.staging with
    | none => rfl
    | some binding => exact validStagingName_iff.mpr (h.name binding hstaging)
  refine ⟨utf8 metadata.toValue.json, if_neg (Nat.not_lt_of_le hlength), hlength, ?_⟩
  unfold readMetadata
  rw [if_neg hnonempty, if_neg (Nat.not_lt_of_le hlength), hreads _ (plain_toValue metadata)]
  simp only [Option.bind_some, Metadata.ofValue_toValue]
  rw [if_pos ⟨h.version, h.nonce, h.ceiling, hname⟩]

theorem readMetadata_eq_ok {fromSlice : List UInt8 → Option Value} {bytes : List UInt8} {metadata : Metadata}
    (h : readMetadata fromSlice bytes = .ok (some metadata)) : metadata.Valid := by
  unfold readMetadata at h
  split at h
  · cases h
  · split at h
    · cases h
    · split at h
      · cases h
      · split at h
        · rename_i hvalid
          cases h
          refine ⟨hvalid.1, hvalid.2.1, hvalid.2.2.1, fun binding hbinding => ?_⟩
          have hname := hvalid.2.2.2
          rw [hbinding] at hname
          exact validStagingName_iff.mp hname
        · cases h

/-- The record of `acquire` is valid. -/
theorem valid_acquire {nonce : Nonce} {byteCeiling : UInt64} {metadata : Metadata}
    (h : WriteReservation.acquire nonce byteCeiling = .ok metadata) :
    metadata.Valid ∧ metadata.version = 1 ∧ metadata.staging = none ∧ metadata.byteCeiling = byteCeiling := by
  unfold WriteReservation.acquire at h
  split at h
  · cases h
  · rename_i hceiling
    split at h
    · cases h
    · rename_i hnonce
      cases h
      exact ⟨⟨.inl ⟨rfl, rfl⟩, hnonce, not_not.mp hceiling, nofun⟩, rfl, rfl, rfl⟩

/-- **Every record that is written is read back as it was, and the reader accepts no other kind.** A reservation
of any ceiling that `acquire` admits, and its binding to any staging file by a name that `create_staging_file`
gives, fit in the bytes that the reader takes. -/
theorem metadata_codec {fromSlice : List UInt8 → Option Value} (hreads : ReadsPrinted fromSlice) :
    (∀ nonce byteCeiling metadata, WriteReservation.acquire nonce byteCeiling = .ok metadata →
      Readable fromSlice metadata ∧
        ∀ observed pid sequence, observed.name = stagingName pid sequence →
          reportReservationMetadataAllowance ≤ byteCeiling.toNat →
          ∃ bound, WriteReservation.bindStaging metadata observed = .ok bound ∧ bound.staging = some observed ∧
            Readable fromSlice bound) ∧
      ∀ bytes metadata, readMetadata fromSlice bytes = .ok (some metadata) →
        (metadata.version = 1 ∧ metadata.staging = none) ∨
          (metadata.version = 2 ∧ ∃ binding pid sequence, metadata.staging = some binding ∧
            binding.name = stagingName pid sequence) := by
  constructor
  · intro nonce byteCeiling metadata hacquire
    obtain ⟨hvalid, hversion, hstaging, hceiling⟩ := valid_acquire hacquire
    refine ⟨hvalid.readable hreads, fun observed pid sequence hname hallowance => ?_⟩
    have hbound : ({ metadata with version := 2, staging := some observed } : Metadata).Valid :=
      ⟨.inr ⟨rfl, rfl⟩, hvalid.nonce, hvalid.ceiling, fun binding hbinding => by
        cases hbinding
        exact ⟨pid, sequence, hname⟩⟩
    refine ⟨_, ?_, rfl, hbound.readable hreads⟩
    have hfree : ¬ (metadata.staging.isSome = true ∨ metadata.version ≠ 1 ∨
        metadata.byteCeiling.toNat < reportReservationMetadataAllowance) := by
      rw [hstaging, hversion, hceiling]
      simp only [Option.isSome_none, Bool.false_eq_true, ne_eq, not_true_eq_false, false_or]
      omega
    have hvalidName : (!validStagingName observed.name) = false := by
      rw [validStagingName_iff.mpr ⟨pid, sequence, hname⟩]
      rfl
    unfold WriteReservation.bindStaging
    rw [if_neg hfree, hvalidName]
    rfl
  · intro bytes metadata hread
    have hvalid := readMetadata_eq_ok hread
    rcases hvalid.version with hone | ⟨htwo, hsome⟩
    · exact .inl hone
    · obtain ⟨binding, hbinding⟩ := Option.isSome_iff_exists.mp hsome
      obtain ⟨pid, sequence, hname⟩ := hvalid.name binding hbinding
      exact .inr ⟨htwo, binding, pid, sequence, hbinding, hname⟩

/-- A reservation of a mebibyte, and its binding by the longest name, with the reader of documents. -/
theorem metadata_codec_largest :
    let nonce : Nonce := ⟨List.replicate 32 255, rfl⟩
    let largest : UInt64 := 18446744073709551615
    let metadata : Metadata := { version := 1, kind := .reportBuild, nonce, byteCeiling := 1048576, staging := none }
    let observed : StagingBinding := ⟨largest, largest, largest, largest, largest, largest, stagingName 4294967295 largest⟩
    Readable readDocument metadata ∧
      ∃ bound, WriteReservation.bindStaging metadata observed = .ok bound ∧ bound.staging = some observed ∧
        Readable readDocument bound := by
  intro nonce largest metadata observed
  have hcodec := (metadata_codec fun v hv => readDocument_json hv).1 nonce 1048576 metadata (by decide)
  exact ⟨hcodec.1, hcodec.2 observed 4294967295 largest rfl (by decide)⟩

end AgentObservability.Runtime
