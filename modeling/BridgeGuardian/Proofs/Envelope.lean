import BridgeGuardian.Proofs.Fields
import BridgeGuardian.Vaa

/-! # Envelopes — which octet strings are signed messages

    An octet string is an envelope when it has the current version in front
    and is long enough for as many signatures as its sixth octet counts;
    everything behind the fixed fields is payload.  `parse_eq_ok_iff` says
    that reading is undoing writing, so every envelope has exactly one
    reading, and a message can be read back if and only if its signatures
    can be counted in one octet. -/

namespace BridgeGuardian

namespace Vaa

/-! ## Parts of an envelope -/

theorem isField_readSignature : Reader.IsField readSignature 66 writeSignature :=
  (Reader.isField_uint8 "signature index").seq (Reader.isField_block 65 "signature")
    GuardianSignature.mk GuardianSignature.index GuardianSignature.signature (fun _ _ => rfl)
    (fun _ _ => rfl) (fun _ => rfl)

/-- Write a coordinate. -/
def writeCoordinate (c : Coordinate) : Bytes :=
  c.emitter.chain.toBytes ++ c.emitter.address.bytes ++ bigEndian 8 c.sequence.toNat

/-- An emitter, the first two parts of a coordinate, is a field. -/
theorem isField_readEmitter :
    Reader.IsField (do
        let chain ← Reader.uint16 "emitter_chain"
        let address ← Reader.block 32 "emitter_address"
        return (⟨⟨chain⟩, address⟩ : Emitter)) 34
      (fun e => e.chain.toBytes ++ e.address.bytes) :=
  (Reader.isField_uint16 "emitter_chain").seq (Reader.isField_block 32 "emitter_address")
    (fun chain address => ⟨⟨chain⟩, address⟩) (fun e => e.chain.id) Emitter.address
    (fun _ _ => rfl) (fun _ _ => rfl) (fun _ => rfl)

theorem isField_readCoordinate : Reader.IsField readCoordinate 42 writeCoordinate := by
  have h := isField_readEmitter.seq (Reader.isField_uint64 "sequence")
    Coordinate.mk Coordinate.emitter Coordinate.sequence (fun _ _ => rfl) (fun _ _ => rfl)
    (fun _ => rfl)
  simp only [bind_assoc, pure_bind] at h
  exact h

/-- The fields in the order in which they are read. -/
theorem serialize_eq (v : Vaa) :
    v.serialize = [v.version] ++ (bigEndian 4 v.guardianSetIndex.toNat
      ++ ([UInt8.ofNat v.signatures.length] ++ (v.signatures.flatMap writeSignature
      ++ (bigEndian 4 v.timestamp.toNat ++ (bigEndian 4 v.nonce.toNat
      ++ (writeCoordinate v.coordinate ++ ([v.consistencyLevel] ++ v.payload))))))) := by
  simp only [serialize, header, body, writeCoordinate, List.append_assoc]

/-- The signed part tells the coordinate. -/
theorem coordinate_eq_of_body_eq {v w : Vaa} (h : v.body = w.body) :
    v.coordinate = w.coordinate := by
  have hfields : ∀ u : Vaa, u.body = bigEndian 4 u.timestamp.toNat
      ++ (bigEndian 4 u.nonce.toNat
      ++ (writeCoordinate u.coordinate ++ ([u.consistencyLevel] ++ u.payload))) := by
    intro u
    simp only [body, writeCoordinate, List.append_assoc]
  rw [hfields v, hfields w] at h
  obtain ⟨-, h⟩ := (Reader.isField_uint32 "timestamp").write_append_inj h
  obtain ⟨-, h⟩ := (Reader.isField_uint32 "nonce").write_append_inj h
  exact (isField_readCoordinate.write_append_inj h).1

theorem length_serialize (v : Vaa) :
    v.serialize.length = 57 + 66 * v.signatures.length + v.payload.length := by
  rw [serialize_eq]
  simp only [List.length_append, List.length_singleton, length_bigEndian,
    isField_readSignature.length_flatMap, isField_readCoordinate.length_write]
  omega

/-! ## Reading and writing -/

/-- What is read has the current version and no more signatures than an
    octet can count, and is written as the octets it was read off. -/
theorem of_parse {bytes : Bytes} {v : Vaa} (h : parse bytes = .ok v) :
    v.version = currentVersion ∧ v.signatures.length < 256 ∧ v.serialize = bytes := by
  obtain ⟨e, h⟩ := Reader.read_eq_ok_iff.mp h
  obtain ⟨version, c₁, hversion, h⟩ := Reader.bind_eq_ok_iff.mp h
  by_cases hcurrent : version ≠ currentVersion
  · rw [if_pos hcurrent] at h
    cases h
  · rw [if_neg hcurrent] at h
    obtain ⟨guardianSetIndex, c₂, hindex, h⟩ := Reader.bind_eq_ok_iff.mp h
    obtain ⟨count, c₃, hcount, h⟩ := Reader.bind_eq_ok_iff.mp h
    obtain ⟨signatures, c₄, hsignatures, h⟩ := Reader.bind_eq_ok_iff.mp h
    obtain ⟨timestamp, c₅, htimestamp, h⟩ := Reader.bind_eq_ok_iff.mp h
    obtain ⟨nonce, c₆, hnonce, h⟩ := Reader.bind_eq_ok_iff.mp h
    obtain ⟨coordinate, c₇, hcoordinate, h⟩ := Reader.bind_eq_ok_iff.mp h
    obtain ⟨consistencyLevel, c₈, hlevel, h⟩ := Reader.bind_eq_ok_iff.mp h
    obtain ⟨payload, c₉, hpayload, h⟩ := Reader.bind_eq_ok_iff.mp h
    obtain ⟨rfl, -⟩ := Reader.pure_eq_ok_iff.mp h
    obtain ⟨hlength, hsigned, -⟩ :=
      (Reader.repeated_eq_ok_iff isField_readSignature).mp hsignatures
    refine ⟨Decidable.not_not.mp hcurrent, ?_, ?_⟩
    · rw [hlength]
      exact count.toNat_lt
    · -- each field was taken off the front of what the one before left
      have hbytes : bytes = [version] ++ c₁.rest :=
        ((Reader.isField_uint8 _).reads.mp hversion).1
      rw [serialize_eq, hbytes, ((Reader.isField_uint32 _).reads.mp hindex).1,
        ((Reader.isField_uint8 _).reads.mp hcount).1, hsigned,
        ((Reader.isField_uint32 _).reads.mp htimestamp).1,
        ((Reader.isField_uint32 _).reads.mp hnonce).1,
        (isField_readCoordinate.reads.mp hcoordinate).1,
        ((Reader.isField_uint8 _).reads.mp hlevel).1,
        (Reader.remainder_eq_ok_iff.mp hpayload).1, hlength, UInt8.ofNat_toNat]

/-- A written message with the current version and no more signatures than
    an octet can count is read back. -/
theorem parse_serialize {v : Vaa} (hversion : v.version = currentVersion)
    (hcount : v.signatures.length < 256) : parse v.serialize = .ok v := by
  refine Reader.read_eq_ok_iff.mpr ?_
  rw [serialize_eq]
  refine .bind ((Reader.isField_uint8 _).read_write _ _ _) ?_
  rw [if_neg (not_not_intro hversion)]
  refine .bind ((Reader.isField_uint32 _).read_write _ _ _) ?_
  refine .bind ((Reader.isField_uint8 _).read_write _ _ _) ?_
  have hlength : v.signatures.length = (UInt8.ofNat v.signatures.length).toNat :=
    (UInt8.toNat_ofNat_of_lt' hcount).symm
  refine .bind (isField_readSignature.repeated_write hlength _ _) ?_
  refine .bind ((Reader.isField_uint32 _).read_write _ _ _) ?_
  refine .bind ((Reader.isField_uint32 _).read_write _ _ _) ?_
  refine .bind (isField_readCoordinate.read_write _ _ _) ?_
  refine .bind ((Reader.isField_uint8 _).read_write _ _ _) ?_
  exact ⟨_, rfl⟩

/-- Reading a message is undoing its writing. -/
theorem parse_eq_ok_iff {bytes : Bytes} {v : Vaa} :
    parse bytes = .ok v ↔
      v.version = currentVersion ∧ v.signatures.length < 256 ∧ v.serialize = bytes := by
  constructor
  · exact of_parse
  · rintro ⟨hversion, hcount, rfl⟩
    exact parse_serialize hversion hcount

/-! ## The grammar of envelopes -/

/-- The current version, a count of signatures, and room for these and the
    fixed fields. -/
def IsEnvelope (bytes : Bytes) : Prop :=
  bytes[0]? = some currentVersion ∧
    ∃ count, bytes[5]? = some count ∧ 57 + 66 * count.toNat ≤ bytes.length

/-- The sixth octet counts the signatures, modulo 256. -/
theorem getElem?_count (v : Vaa) :
    v.serialize[5]? = some (UInt8.ofNat v.signatures.length) := by
  rw [serialize_eq]
  simp

theorem isEnvelope_serialize {v : Vaa} (hversion : v.version = currentVersion)
    (hcount : v.signatures.length < 256) : IsEnvelope v.serialize := by
  refine ⟨?_, UInt8.ofNat v.signatures.length, getElem?_count v, ?_⟩
  · rw [serialize_eq, hversion]
    rfl
  · rw [length_serialize, UInt8.toNat_ofNat_of_lt' hcount]
    exact Nat.le_add_right _ _

/-- Every envelope can be read. -/
theorem exists_parse_of_isEnvelope {bytes : Bytes} (h : IsEnvelope bytes) :
    ∃ v, parse bytes = .ok v := by
  obtain ⟨hversion, count, hcount, hlength⟩ := h
  suffices hread : reader.Succeeds ⟨0, bytes⟩ by
    obtain ⟨v, e, hv⟩ := hread
    exact ⟨v, Reader.read_eq_ok_iff.mpr ⟨e, hv⟩⟩
  have hone : 1 ≤ bytes.length := by omega
  refine ((Reader.isField_uint8 _).succeeds hone).bind fun version c₁ h₁ => ?_
  have hlength₁ : bytes.length = 1 + c₁.rest.length := (Reader.isField_uint8 _).length_rest h₁
  have hfront₁ : bytes = [version] ++ c₁.rest := ((Reader.isField_uint8 _).reads.mp h₁).1
  have hcurrent : version = currentVersion := by
    rw [hfront₁] at hversion
    exact Option.some.inj hversion
  rw [if_neg (not_not_intro hcurrent)]
  refine ((Reader.isField_uint32 _).succeeds (by omega)).bind fun index c₂ h₂ => ?_
  have hlength₂ := (Reader.isField_uint32 _).length_rest h₂
  refine ((Reader.isField_uint8 _).succeeds (by omega)).bind fun found c₃ h₃ => ?_
  have hlength₃ := (Reader.isField_uint8 _).length_rest h₃
  -- the octet that is read here is the sixth one
  have hfound : found = count := by
    rw [hfront₁, ((Reader.isField_uint32 _).reads.mp h₂).1,
      ((Reader.isField_uint8 _).reads.mp h₃).1] at hcount
    simpa using hcount
  subst hfound
  refine (Reader.succeeds_repeated isField_readSignature (by omega)).bind fun signatures c₄ h₄ => ?_
  obtain ⟨hsignatures, hfront₄, -⟩ := (Reader.repeated_eq_ok_iff isField_readSignature).mp h₄
  have hlength₄ := congrArg List.length hfront₄
  rw [List.length_append, isField_readSignature.length_flatMap, hsignatures] at hlength₄
  refine ((Reader.isField_uint32 _).succeeds (by omega)).bind fun timestamp c₅ h₅ => ?_
  have hlength₅ := (Reader.isField_uint32 _).length_rest h₅
  refine ((Reader.isField_uint32 _).succeeds (by omega)).bind fun nonce c₆ h₆ => ?_
  have hlength₆ := (Reader.isField_uint32 _).length_rest h₆
  refine (isField_readCoordinate.succeeds (by omega)).bind fun coordinate c₇ h₇ => ?_
  have hlength₇ := isField_readCoordinate.length_rest h₇
  refine ((Reader.isField_uint8 _).succeeds (by omega)).bind fun level c₈ h₈ => ?_
  exact ⟨_, _, rfl⟩

/-- Envelopes and messages correspond: exactly the envelopes can be read,
    each is what its reading is written as, and exactly the messages with
    the current version and at most 255 signatures are read back.  The count
    of more signatures wraps around, and they are never read back. -/
theorem parse_inverts_serialize :
    (∀ bytes, (∃ v, parse bytes = .ok v) ↔ IsEnvelope bytes) ∧
    (∀ bytes v, parse bytes = .ok v → v.serialize = bytes) ∧
    (∀ v, parse v.serialize = .ok v ↔ v.version = currentVersion ∧ v.signatures.length ≤ 255) ∧
    ∀ v : Vaa, 255 < v.signatures.length →
      v.serialize[5]?.map UInt8.toNat = some (v.signatures.length % 256) ∧
        parse v.serialize ≠ .ok v := by
  have hround : ∀ v, parse v.serialize = .ok v ↔
      v.version = currentVersion ∧ v.signatures.length ≤ 255 := by
    intro v
    rw [parse_eq_ok_iff, Nat.lt_succ_iff]
    simp
  refine ⟨?_, fun bytes v h => (of_parse h).2.2, hround, ?_⟩
  · intro bytes
    constructor
    · rintro ⟨v, h⟩
      obtain ⟨hversion, hcount, rfl⟩ := of_parse h
      exact isEnvelope_serialize hversion hcount
    · exact exists_parse_of_isEnvelope
  · intro v hmany
    refine ⟨?_, fun h => ?_⟩
    · rw [getElem?_count, Option.map_some, UInt8.toNat_ofNat']
    · exact absurd ((hround v).mp h).2 (Nat.not_le.mpr hmany)

/-- A message with one signature more than an octet can count. -/
def overfull : Vaa where
  version := currentVersion
  guardianSetIndex := 0
  signatures := List.replicate 256 ⟨0, .ofNat 65 0⟩
  timestamp := 0
  nonce := 0
  coordinate := ⟨⟨.governance, .ofNat 32 4⟩, 0⟩
  consistencyLevel := 32
  payload := []

/-- It is written as if it had none, and so it is not what is read back; the
    message without signatures is. -/
theorem overfull_is_not_read_back :
    255 < overfull.signatures.length ∧ overfull.serialize[5]?.map UInt8.toNat = some 0 ∧
      parse overfull.serialize ≠ .ok overfull ∧
      parse ({ overfull with signatures := [] } : Vaa).serialize
        = .ok { overfull with signatures := [] } := by
  have hlength : overfull.signatures.length = 256 := List.length_replicate
  have hmany : 255 < overfull.signatures.length := by
    rw [hlength]
    decide
  obtain ⟨-, -, hround, hwrap⟩ := parse_inverts_serialize
  obtain ⟨hcount, hlost⟩ := hwrap overfull hmany
  rw [hlength] at hcount
  exact ⟨hmany, hcount, hlost, (hround _).mpr ⟨rfl, Nat.zero_le _⟩⟩

end Vaa

end BridgeGuardian
