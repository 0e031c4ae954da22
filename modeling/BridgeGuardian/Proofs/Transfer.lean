import BridgeGuardian.Proofs.Fields
import BridgeGuardian.Transfer

/-! # Transfers — which payloads move tokens

    A transfer fills 133 octets: the number that marks it and six fields of
    fixed widths.  Every payload that is long enough and begins with that
    number reads as one, since no other field can be malformed, and what
    stands behind the fee is not looked at: `decode_eq_ok_iff` says that
    reading is undoing writing up to these octets. -/

namespace BridgeGuardian

namespace Transfer

/-- The fields in the order in which they are read. -/
theorem encode_eq (t : Transfer) :
    t.encode = [payloadId] ++ (bigEndian 32 t.amount.toNat ++ (t.token.bytes
      ++ (bigEndian 2 t.tokenChain.id.toNat ++ (t.recipient.bytes
      ++ (bigEndian 2 t.recipientChain.id.toNat ++ bigEndian 32 t.fee.toNat))))) := by
  simp only [encode, Amount.toBytes, ChainId.toBytes, List.append_assoc]

theorem length_encode (t : Transfer) : t.encode.length = 133 := by
  rw [encode_eq]
  simp only [List.length_append, List.length_singleton, length_bigEndian, Block.length_eq]

/-! ## Reading and writing -/

/-- What is read is written as the octets in front. -/
theorem eq_append_of_decode {payload : Bytes} {t : Transfer} (h : decode payload = .ok t) :
    ∃ rest, payload = t.encode ++ rest := by
  obtain ⟨e, h⟩ := Reader.read_eq_ok_iff.mp h
  obtain ⟨id, c₁, hid, h⟩ := Reader.bind_eq_ok_iff.mp h
  by_cases hforeign : id ≠ payloadId
  · rw [if_pos hforeign] at h
    cases h
  · rw [if_neg hforeign] at h
    obtain ⟨amount, c₂, hamount, h⟩ := Reader.bind_eq_ok_iff.mp h
    obtain ⟨token, c₃, htoken, h⟩ := Reader.bind_eq_ok_iff.mp h
    obtain ⟨tokenChain, c₄, htokenChain, h⟩ := Reader.bind_eq_ok_iff.mp h
    obtain ⟨recipient, c₅, hrecipient, h⟩ := Reader.bind_eq_ok_iff.mp h
    obtain ⟨recipientChain, c₆, hrecipientChain, h⟩ := Reader.bind_eq_ok_iff.mp h
    obtain ⟨fee, c₇, hfee, h⟩ := Reader.bind_eq_ok_iff.mp h
    obtain ⟨rfl, -⟩ := Reader.pure_eq_ok_iff.mp h
    refine ⟨c₇.rest, ?_⟩
    -- each field was taken off the front of what the one before left
    have hpayload : payload = [id] ++ c₁.rest := ((Reader.isField_uint8 _).reads.mp hid).1
    rw [encode_eq, hpayload, ((Reader.isField_uint256 _).reads.mp hamount).1,
      ((Reader.isField_block 32 _).reads.mp htoken).1,
      ((Reader.isField_uint16 _).reads.mp htokenChain).1,
      ((Reader.isField_block 32 _).reads.mp hrecipient).1,
      ((Reader.isField_uint16 _).reads.mp hrecipientChain).1,
      ((Reader.isField_uint256 _).reads.mp hfee).1, Decidable.not_not.mp hforeign]
    simp only [List.append_assoc]

/-- A written transfer is read back, whatever stands behind it. -/
theorem decode_encode_append (t : Transfer) (rest : Bytes) : decode (t.encode ++ rest) = .ok t := by
  refine Reader.read_eq_ok_iff.mpr ?_
  simp only [encode_eq, List.append_assoc]
  refine .bind ((Reader.isField_uint8 _).read_write _ _ _) ?_
  rw [if_neg (not_not_intro rfl)]
  refine .bind ((Reader.isField_uint256 _).read_write _ _ _) ?_
  refine .bind ((Reader.isField_block 32 _).read_write _ _ _) ?_
  refine .bind ((Reader.isField_uint16 _).read_write _ _ _) ?_
  refine .bind ((Reader.isField_block 32 _).read_write _ _ _) ?_
  refine .bind ((Reader.isField_uint16 _).read_write _ _ _) ?_
  refine .bind ((Reader.isField_uint256 _).read_write _ _ _) ?_
  exact ⟨_, rfl⟩

/-- Reading a transfer is undoing its writing, up to what stands behind it. -/
theorem decode_eq_ok_iff {payload : Bytes} {t : Transfer} :
    decode payload = .ok t ↔ ∃ rest, payload = t.encode ++ rest := by
  constructor
  · exact eq_append_of_decode
  · rintro ⟨rest, rfl⟩
    exact t.decode_encode_append rest

/-- The number in front and room for the fields are all that reading asks
    for. -/
theorem exists_decode_of_length {payload : Bytes} (hlength : 133 ≤ payload.length)
    (hid : payload[0]? = some payloadId) : ∃ t, decode payload = .ok t := by
  suffices hread : reader.Succeeds ⟨0, payload⟩ by
    obtain ⟨t, e, ht⟩ := hread
    exact ⟨t, Reader.read_eq_ok_iff.mpr ⟨e, ht⟩⟩
  refine (Reader.isField_uint8 _).succeeds_bind hlength fun id c₁ h₁ hroom => ?_
  have hfound : id = payloadId := by
    have hfront : payload = [id] ++ c₁.rest := ((Reader.isField_uint8 _).reads.mp h₁).1
    rw [hfront] at hid
    exact Option.some.inj hid
  rw [if_neg (not_not_intro hfound)]
  refine (Reader.isField_uint256 _).succeeds_bind hroom fun _ _ _ hroom => ?_
  refine (Reader.isField_block 32 _).succeeds_bind hroom fun _ _ _ hroom => ?_
  refine (Reader.isField_uint16 _).succeeds_bind hroom fun _ _ _ hroom => ?_
  refine (Reader.isField_block 32 _).succeeds_bind hroom fun _ _ _ hroom => ?_
  refine (Reader.isField_uint16 _).succeeds_bind hroom fun _ _ _ hroom => ?_
  refine (Reader.isField_uint256 _).succeeds_bind hroom fun _ c₇ _ _ => ?_
  exact ⟨_, c₇, rfl⟩

/-- Transfers and their octets correspond: a payload reads as a transfer
    exactly if it has 133 octets and begins with the number of transfers, its
    first 133 octets are what the transfer is written as, and every transfer
    is read back from what it is written as, whatever stands behind. -/
theorem transfers_fill_their_octets :
    (∀ payload, (∃ t, decode payload = .ok t) ↔
      133 ≤ payload.length ∧ payload[0]? = some 1) ∧
    (∀ payload t, decode payload = .ok t → t.encode = payload.take 133) ∧
    ∀ (t : Transfer) (rest : Bytes), decode (t.encode ++ rest) = .ok t := by
  refine ⟨fun payload => ⟨?_, fun h => exists_decode_of_length h.1 h.2⟩, ?_,
    decode_encode_append⟩
  · rintro ⟨t, h⟩
    obtain ⟨rest, rfl⟩ := decode_eq_ok_iff.mp h
    refine ⟨?_, ?_⟩
    · rw [List.length_append, t.length_encode]
      exact Nat.le_add_right _ _
    · rw [encode_eq]
      rfl
  · intro payload t h
    obtain ⟨rest, rfl⟩ := decode_eq_ok_iff.mp h
    exact (List.take_left' t.length_encode).symm

/-- A transfer of the greatest amount, with the greatest fee. -/
def greatest : Transfer where
  amount := BitVec.allOnes 256
  token := .ofNat 32 1
  tokenChain := ⟨2⟩
  recipient := .ofNat 32 2
  recipientChain := .alephium
  fee := BitVec.allOnes 256

/-- It is read from its octets with three more behind, and written as all but
    these. -/
theorem greatest_is_read_back :
    decode (greatest.encode ++ [9, 9, 9]) = .ok greatest ∧
      greatest.encode = (greatest.encode ++ [9, 9, 9]).take 133 := by
  obtain ⟨-, hwritten, hread⟩ := transfers_fill_their_octets
  have hdecode := hread greatest [9, 9, 9]
  exact ⟨hdecode, hwritten _ _ hdecode⟩

end Transfer

end BridgeGuardian
