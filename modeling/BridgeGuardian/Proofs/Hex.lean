import BridgeGuardian.Bytes.Hex

/-! # Hexadecimal digits — octets are read back from them

    Two digits are written for every octet, each one octet of text, so the
    text is read in the pairs in which it was written.  No digit is the
    letter of a mark, so exactly the marks in front of the digits are
    dropped. -/

namespace BridgeGuardian

theorem utf8_ofList (chars : List Char) :
    utf8 (String.ofList chars) = chars.flatMap String.utf8EncodeChar := by
  show (String.ofList chars).toByteArray.data.toList = _
  rw [String.toByteArray_ofList, List.utf8Encode, List.toList_data_toByteArray]

theorem utf8_eq_flatMap (s : String) : utf8 s = s.toList.flatMap String.utf8EncodeChar := by
  rw [← utf8_ofList, String.ofList_toList]

namespace Hex

/-- A digit is one octet, which has its value, and no letter of a mark. -/
theorem exists_octet_digit {value : Nat} (h : value < 16) :
    ∃ octet, String.utf8EncodeChar (digit value) = [octet] ∧
      digitValue? octet = some value ∧ digit value ≠ 'x' := by
  have hall : ∀ v : Fin 16,
      String.utf8EncodeChar (digit v) = [UInt8.ofNat (digit v).toNat] ∧
        digitValue? (UInt8.ofNat (digit v).toNat) = some v.val ∧ digit v ≠ 'x' := by decide
  exact ⟨_, hall ⟨value, h⟩⟩

/-- The octets of the digits of an octet. -/
theorem exists_octets_encodeOctet (octet : UInt8) :
    ∃ high low, (encodeOctet octet).flatMap String.utf8EncodeChar = [high, low] ∧
      digitValue? high = some (octet.toNat / 16) ∧ digitValue? low = some (octet.toNat % 16) := by
  have hoctet : octet.toNat < 256 := octet.toNat_lt_size
  have hfirst : octet.toNat / 16 < 16 := by omega
  have hsecond : octet.toNat % 16 < 16 := by omega
  obtain ⟨high, hhigh, hhighValue, -⟩ := exists_octet_digit hfirst
  obtain ⟨low, hlow, hlowValue, -⟩ := exists_octet_digit hsecond
  refine ⟨high, low, ?_, hhighValue, hlowValue⟩
  rw [encodeOctet, List.flatMap_cons, List.flatMap_cons, hhigh, hlow]
  rfl

/-- The octets of the digits of a string of octets. -/
def digitOctets (bytes : Bytes) : Bytes :=
  (bytes.flatMap encodeOctet).flatMap String.utf8EncodeChar

theorem decodePairs_digitOctets (bytes : Bytes) (position : Nat) :
    decodePairs position (digitOctets bytes) = .ok bytes := by
  induction bytes generalizing position with
  | nil => rfl
  | cons octet bytes ih =>
      obtain ⟨high, low, hpair, hhigh, hlow⟩ := exists_octets_encodeOctet octet
      rw [digitOctets, List.flatMap_cons, List.flatMap_append, hpair]
      show decodePairs position (high :: low :: digitOctets bytes) = _
      simp only [decodePairs, hhigh, hlow, ih]
      have hvalue : octet.toNat / 16 * 16 + octet.toNat % 16 = octet.toNat := by omega
      rw [hvalue, UInt8.ofNat_toNat]
      rfl

theorem length_digitOctets (bytes : Bytes) : (digitOctets bytes).length % 2 = 0 := by
  induction bytes with
  | nil => rfl
  | cons octet bytes ih =>
      obtain ⟨high, low, hpair, -, -⟩ := exists_octets_encodeOctet octet
      rw [digitOctets, List.flatMap_cons, List.flatMap_append, hpair]
      show (digitOctets bytes).length.succ.succ % 2 = 0
      omega

/-- Octets are read back as they were written. -/
theorem decode_encode (bytes : Bytes) : decode (encode bytes) = .ok bytes := by
  rw [decode, encode, utf8_ofList]
  show decodeOctets (digitOctets bytes) = _
  rw [decodeOctets, if_neg (by rw [length_digitOctets]; decide), decodePairs_digitOctets]

/-! ## Marks -/

/-- The digits of octets behind a number of marks. -/
def encodeBehind : (marks : Nat) → Bytes → String
  | 0, bytes => encode bytes
  | marks + 1, bytes => "0x" ++ encodeBehind marks bytes

/-- There is no mark in digits. -/
theorem dropMarks_digits (bytes : Bytes) :
    dropMarks (bytes.flatMap encodeOctet) = bytes.flatMap encodeOctet := by
  cases bytes with
  | nil => rfl
  | cons octet bytes =>
      have hsecond : octet.toNat % 16 < 16 := by omega
      obtain ⟨-, -, -, hne⟩ := exists_octet_digit hsecond
      unfold dropMarks
      split
      next heq => exact absurd (List.cons.inj (List.cons.inj heq).2).1 hne
      next => rfl

/-- The marks in front of digits are dropped, and nothing else. -/
theorem dropMarks_encodeBehind (marks : Nat) (bytes : Bytes) :
    String.ofList (dropMarks (encodeBehind marks bytes).toList) = encode bytes := by
  induction marks with
  | zero => rw [encodeBehind, encode, String.toList_ofList, dropMarks_digits]
  | succ marks ih =>
      rw [encodeBehind, String.toList_append]
      exact ih

end Hex

end BridgeGuardian
