import BridgeGuardian.Address
import BridgeGuardian.Coordinate
import BridgeGuardian.Proofs.Hex

/-! # Spellings — which texts are hexadecimal

    Octets have one spelling in lowercase, and every text that agrees with it
    up to the case of its letters spells the same octets: `decode_eq_ok_iff`
    says that nothing else is read.  The reading goes by the octets of the
    text, so a character beyond ASCII has to be excluded: the first of its
    octets is no digit. -/

namespace BridgeGuardian

namespace Hex

/-! ## Digits of either case -/

/-- The digits, in either case. -/
def IsDigit (c : Char) : Prop := c ∈ "0123456789abcdefABCDEF".toList

/-- A digit is looked for among the twenty-two. -/
instance (c : Char) : Decidable (IsDigit c) :=
  inferInstanceAs (Decidable (c ∈ "0123456789abcdefABCDEF".toList))

/-- A digit is one octet, which has the value that the digit shows. -/
theorem exists_octet_of_isDigit {c : Char} (h : IsDigit c) :
    ∃ octet value, String.utf8EncodeChar c = [octet] ∧ digitValue? octet = some value ∧
      value < 16 ∧ c.toLower = digit value := by
  -- the digits one by one: there are too many characters to go through them
  have hall : "0123456789abcdefABCDEF".toList.all fun d =>
      String.utf8EncodeChar d = [UInt8.ofNat d.toNat] ∧
        ∃ value ∈ digitValue? (UInt8.ofNat d.toNat), value < 16 ∧ d.toLower = digit value := by
    decide +kernel
  obtain ⟨hoctet, value, hvalue, hlt, hlower⟩ := of_decide_eq_true (List.all_eq_true.mp hall c h)
  exact ⟨_, value, hoctet, hvalue, hlt, hlower⟩

/-- Octets beyond the letters have no value. -/
theorem digitValue?_eq_none {octet : UInt8} (h : 102 < octet.toNat) :
    digitValue? octet = none := by
  unfold digitValue?
  dsimp only
  rw [if_neg (by omega), if_neg (by omega), if_neg (by omega)]

/-- The first octet of any other character has no value. -/
theorem exists_octet_of_not_isDigit {c : Char} (h : ¬ IsDigit c) :
    ∃ octet rest, String.utf8EncodeChar c = octet :: rest ∧ digitValue? octet = none := by
  have hall : ∀ n : Fin 128, (digitValue? (UInt8.ofNat n)).isSome → IsDigit (Char.ofNat n) := by
    decide +kernel
  have hfirst : ∀ n, 102 < n → n < 256 → digitValue? (UInt8.ofNat n) = none := by
    intro n hlow hhigh
    exact digitValue?_eq_none (by rwa [UInt8.toNat_ofNat_of_lt' hhigh])
  unfold String.utf8EncodeChar
  dsimp only
  split
  · next hascii =>
      refine ⟨_, [], rfl, Option.not_isSome_iff_eq_none.mp fun hvalue => h ?_⟩
      have hdigit := hall ⟨c.toNat, Nat.lt_succ_iff.mpr hascii⟩ hvalue
      rwa [Char.ofNat_toNat] at hdigit
  · split
    · exact ⟨_, _, rfl, hfirst _ (by omega) (by omega)⟩
    · split
      · exact ⟨_, _, rfl, hfirst _ (by omega) (by omega)⟩
      · exact ⟨_, _, rfl, hfirst _ (by omega) (by omega)⟩

/-- What is a digit in lowercase is a digit. -/
theorem isDigit_of_toLower {c : Char} {value : Nat} (hvalue : value < 16)
    (h : c.toLower = digit value) : IsDigit c := by
  have hall : ∀ n : Fin 128, (∃ v : Fin 16, (Char.ofNat n).toLower = digit v) →
      IsDigit (Char.ofNat n) := by decide +kernel
  have hascii : ∀ v : Fin 16, (digit v).toNat < 128 := by decide
  by_cases hc : c.toNat < 128
  · have hdigit := hall ⟨c.toNat, hc⟩ ⟨⟨value, hvalue⟩, by rwa [Char.ofNat_toNat]⟩
    rwa [Char.ofNat_toNat] at hdigit
  · -- a character beyond ASCII is its own lowercase
    have hlower : c.toLower = c := by
      unfold Char.toLower
      refine dif_neg fun hupper => hc ?_
      exact Nat.lt_of_le_of_lt (UInt32.le_iff_toNat_le.mp hupper.2) (by decide)
    rw [hlower] at h
    exact absurd (h ▸ hascii ⟨value, hvalue⟩) hc

theorem digit_inj {a b : Nat} (ha : a < 16) (hb : b < 16) (h : digit a = digit b) : a = b := by
  have hall : ∀ x y : Fin 16, digit x = digit y → x = y := by decide
  exact congrArg Fin.val (hall ⟨a, ha⟩ ⟨b, hb⟩ h)

theorem digitValue?_lt {octet : UInt8} {value : Nat} (h : digitValue? octet = some value) :
    value < 16 := by
  unfold digitValue? at h
  dsimp only at h
  split at h
  · cases h
    omega
  · split at h
    · cases h
      omega
    · split at h
      · cases h
        omega
      · cases h

/-- The octets of characters have these values exactly if the characters are
    the digits of the values in either case. -/
theorem values_eq_iff {chars : List Char} {values : List Nat} (hvalues : ∀ v ∈ values, v < 16) :
    (chars.flatMap String.utf8EncodeChar).map digitValue? = values.map some ↔
      chars.map Char.toLower = values.map digit := by
  induction chars generalizing values with
  | nil => cases values <;> simp
  | cons c chars ih =>
      rw [List.flatMap_cons, List.map_append, List.map_cons]
      by_cases hdigit : IsDigit c
      · obtain ⟨octet, value, hoctet, hvalue, hlt, hlower⟩ := exists_octet_of_isDigit hdigit
        rw [hoctet, List.map_singleton, hvalue, hlower]
        cases values with
        | nil => simp
        | cons v values =>
            obtain ⟨hv, hrest⟩ := List.forall_mem_cons.mp hvalues
            rw [List.singleton_append, List.map_cons, List.map_cons, List.cons.injEq,
              List.cons.injEq, ih hrest, Option.some.injEq]
            constructor
            · rintro ⟨rfl, h⟩
              exact ⟨rfl, h⟩
            · rintro ⟨h, h'⟩
              exact ⟨digit_inj hlt hv h, h'⟩
      · obtain ⟨octet, rest, hoctet, hnone⟩ := exists_octet_of_not_isDigit hdigit
        rw [hoctet, List.map_cons, hnone]
        cases values with
        | nil => simp
        | cons v values =>
            have hv : v < 16 := hvalues v List.mem_cons_self
            simp only [List.map_cons, List.cons_append, List.cons.injEq, reduceCtorEq, false_and,
              false_iff, not_and]
            exact fun hlower => absurd (isDigit_of_toLower hv hlower) hdigit

/-! ## Reading pairs -/

/-- The values of the two digits of an octet. -/
def halves (octet : UInt8) : List Nat := [octet.toNat / 16, octet.toNat % 16]

theorem lt_of_mem_halves {bytes : Bytes} : ∀ v ∈ bytes.flatMap halves, v < 16 := by
  intro v hv
  obtain ⟨octet, -, hhalf⟩ := List.mem_flatMap.mp hv
  have hoctet : octet.toNat < 256 := octet.toNat_lt_size
  simp only [halves, List.mem_cons, List.not_mem_nil, or_false] at hhalf
  omega

theorem length_flatMap_halves (bytes : Bytes) :
    (bytes.flatMap halves).length = 2 * bytes.length := by
  induction bytes with
  | nil => rfl
  | cons octet bytes ih =>
      rw [List.flatMap_cons, List.length_append, ih, List.length_cons]
      show 2 + 2 * bytes.length = _
      omega

theorem map_digit_flatMap_halves (bytes : Bytes) :
    (bytes.flatMap halves).map digit = bytes.flatMap encodeOctet := by
  rw [List.map_flatMap]
  rfl

theorem halves_ofNat {high low : Nat} (hhigh : high < 16) (hlow : low < 16) :
    halves (UInt8.ofNat (high * 16 + low)) = [high, low] := by
  have hvalue : (UInt8.ofNat (high * 16 + low)).toNat = high * 16 + low :=
    UInt8.toNat_ofNat_of_lt' (Nat.lt_of_lt_of_le (by omega : _ < 256) (Nat.le_refl _))
  have hdiv : (high * 16 + low) / 16 = high := by omega
  have hmod : (high * 16 + low) % 16 = low := by omega
  rw [halves, hvalue, hdiv, hmod]

/-- Octets are read exactly if they have the values of the halves. -/
theorem decodePairs_eq_ok_iff {position : Nat} {octets bytes : Bytes} :
    decodePairs position octets = .ok bytes ↔
      octets.map digitValue? = (bytes.flatMap halves).map some := by
  fun_induction decodePairs position octets generalizing bytes with
  | case1 position => cases bytes <;> simp [halves]
  | case2 position octet => cases bytes <;> simp [halves]
  | case3 position high low rest hhigh => cases bytes <;> simp [halves, hhigh]
  | case4 position high low rest h hlow hhigh => cases bytes <;> simp [halves, hlow]
  | case5 position high low rest h l hlow hhigh ih =>
      have hread : (do
          let others ← decodePairs (position + 2) rest
          return UInt8.ofNat (h * 16 + l) :: others : Except Fault Bytes) = .ok bytes ↔
          ∃ others, decodePairs (position + 2) rest = .ok others ∧
            UInt8.ofNat (h * 16 + l) :: others = bytes := by
        cases decodePairs (position + 2) rest with
        | error fault => exact ⟨fun hread => (nomatch hread), fun ⟨_, hread, _⟩ => (nomatch hread)⟩
        | ok others =>
            constructor
            · intro hread
              cases hread
              exact ⟨others, rfl, rfl⟩
            · rintro ⟨others', hothers, rfl⟩
              cases hothers
              rfl
      rw [hread, List.map_cons, List.map_cons, hhigh, hlow]
      constructor
      · rintro ⟨others, hothers, rfl⟩
        rw [ih.mp hothers, List.flatMap_cons,
          halves_ofNat (digitValue?_lt hhigh) (digitValue?_lt hlow)]
        rfl
      · intro hvalues
        cases bytes with
        | nil => cases hvalues
        | cons octet others =>
            have hpair : some h :: some l :: rest.map digitValue?
                = some (octet.toNat / 16) :: some (octet.toNat % 16)
                  :: (others.flatMap halves).map some := hvalues
            obtain ⟨hfirst, hpair⟩ := List.cons.inj hpair
            obtain ⟨hsecond, hothers⟩ := List.cons.inj hpair
            cases hfirst
            cases hsecond
            refine ⟨others, ih.mpr hothers, ?_⟩
            rw [Nat.div_add_mod', UInt8.ofNat_toNat]

/-- The octets of a text are read as they stand, and twice as many as what is
    read. -/
theorem decodeOctets_eq_ok_iff {octets bytes : Bytes} :
    decodeOctets octets = .ok bytes ↔
      octets.map digitValue? = (bytes.flatMap halves).map some := by
  unfold decodeOctets
  split
  · next hodd =>
      constructor
      · intro hread
        cases hread
      · intro hvalues
        have hlength := congrArg List.length hvalues
        rw [List.length_map, List.length_map, length_flatMap_halves] at hlength
        omega
  · exact decodePairs_eq_ok_iff

/-! ## Spellings -/

/-- A text spells octets exactly if it is their spelling, up to the case of
    its letters. -/
theorem decode_eq_ok_iff {text : String} {bytes : Bytes} :
    decode text = .ok bytes ↔ text.toList.map Char.toLower = bytes.flatMap encodeOctet := by
  rw [decode, decodeOctets_eq_ok_iff, utf8_eq_flatMap, values_eq_iff lt_of_mem_halves,
    map_digit_flatMap_halves]

/-- The text of so many octets has twice as many. -/
theorem length_utf8_of_decode {text : String} {bytes : Bytes} (h : decode text = .ok bytes) :
    (utf8 text).length = 2 * bytes.length := by
  have hlength := congrArg List.length (decodeOctets_eq_ok_iff.mp h)
  rwa [List.length_map, List.length_map, length_flatMap_halves] at hlength

/-- An even number of digits spells half as many octets. -/
theorem exists_bytes_of_isDigit {chars : List Char} {count : Nat}
    (hlength : chars.length = 2 * count) (hdigits : ∀ c ∈ chars, IsDigit c) :
    ∃ bytes : Bytes, bytes.length = count ∧
      chars.map Char.toLower = bytes.flatMap encodeOctet := by
  induction count generalizing chars with
  | zero =>
      obtain rfl := List.eq_nil_of_length_eq_zero hlength
      exact ⟨[], rfl, rfl⟩
  | succ count ih =>
      match chars, hlength, hdigits with
      | high :: low :: rest, hlength, hdigits =>
          obtain ⟨hhigh, hdigits⟩ := List.forall_mem_cons.mp hdigits
          obtain ⟨hlow, hdigits⟩ := List.forall_mem_cons.mp hdigits
          obtain ⟨bytes, hcount, hrest⟩ := ih (by simpa [Nat.mul_succ] using hlength) hdigits
          obtain ⟨-, h, -, -, hlt, hhigh⟩ := exists_octet_of_isDigit hhigh
          obtain ⟨-, l, -, -, hlt', hlow⟩ := exists_octet_of_isDigit hlow
          refine ⟨UInt8.ofNat (h * 16 + l) :: bytes, congrArg (· + 1) hcount, ?_⟩
          rw [List.map_cons, List.map_cons, hhigh, hlow, hrest, List.flatMap_cons]
          show _ = (halves (UInt8.ofNat (h * 16 + l))).map digit ++ _
          rw [halves_ofNat hlt hlt']
          rfl

/-- Exactly the texts of twice as many digits spell so many octets. -/
theorem exists_bytes_iff {chars : List Char} {count : Nat} :
    (∃ bytes : Bytes, bytes.length = count ∧
      chars.map Char.toLower = bytes.flatMap encodeOctet) ↔
      chars.length = 2 * count ∧ ∀ c ∈ chars, IsDigit c := by
  constructor
  · rintro ⟨bytes, rfl, hchars⟩
    rw [← map_digit_flatMap_halves] at hchars
    refine ⟨?_, fun c hc => ?_⟩
    · have hlength := congrArg List.length hchars
      rwa [List.length_map, List.length_map, length_flatMap_halves] at hlength
    · have hlower : c.toLower ∈ (bytes.flatMap halves).map digit :=
        hchars ▸ List.mem_map_of_mem hc
      obtain ⟨value, hvalue, hdigit⟩ := List.mem_map.mp hlower
      exact isDigit_of_toLower (lt_of_mem_halves value hvalue) hdigit.symm
  · rintro ⟨hlength, hdigits⟩
    exact exists_bytes_of_isDigit hlength hdigits

/-! ## Digits behind a mark -/

/-- A text shows digits: it is the digits, or one mark and then the digits. -/
def Shows (text digits : String) : Prop := text = digits ∨ text = "0x" ++ digits

theorem shows_dropMark (text : String) : Shows text (dropMark text) := by
  unfold dropMark
  split
  · next rest hchars =>
      refine .inr (String.toList_inj.mp ?_)
      rw [hchars, String.toList_append]
      exact congrArg (['0', 'x'] ++ ·) String.toList_ofList.symm
  · exact .inl rfl

theorem toList_toLower (text : String) : text.toLower.toList = text.toList.map Char.toLower :=
  String.toList_map

/-- The letter of a mark is no digit, so nothing is dropped from digits. -/
theorem dropMark_of_shows {text digits : String} (h : Shows text digits)
    (hdigits : ∀ c ∈ digits.toList, IsDigit c) : dropMark text = digits := by
  unfold dropMark
  rcases h with rfl | rfl
  · split
    · next rest hchars =>
        have hletter : IsDigit 'x' :=
          hdigits 'x' (hchars ▸ List.mem_cons_of_mem _ List.mem_cons_self)
        exact absurd hletter (by decide)
    · rfl
  · rw [String.toList_append]
    exact String.ofList_toList

end Hex

/-! ## Addresses -/

namespace Address

/-- A text is forty digits of either case behind at most one mark. -/
def IsKeyText (text : String) : Prop :=
  (Hex.dropMark text).toList.length = 40 ∧ ∀ c ∈ (Hex.dropMark text).toList, Hex.IsDigit c

/-- A text spells an address: behind at most one mark, its digits in lowercase
    are those of the address. -/
def IsSpelledBy (a : Address) (text : String) : Prop :=
  (Hex.dropMark text).toList.map Char.toLower = (Hex.encode a.bytes).toList

theorem isSpelledBy_iff {a : Address} {text : String} :
    a.IsSpelledBy text ↔
      (Hex.dropMark text).toList.map Char.toLower = a.bytes.flatMap Hex.encodeOctet := by
  rw [IsSpelledBy, Hex.encode, String.toList_ofList]

/-- What is read is what is spelled. -/
theorem read?_eq_some_iff {text : String} {a : Address} :
    read? text = some a ↔ a.IsSpelledBy text := by
  rw [isSpelledBy_iff, ← Hex.decode_eq_ok_iff, read?]
  constructor
  · intro h
    split at h
    · cases h
    · split at h
      · next bytes hbytes => rw [hbytes, Block.ofBytes?_eq_some_iff.mp h]
      · cases h
  · intro h
    have hlength := Hex.length_utf8_of_decode h
    rw [a.length_eq] at hlength
    rw [if_neg (not_not_intro hlength), h]
    exact Block.ofBytes?_bytes a

/-- A text spells at most one address. -/
theorem IsSpelledBy.unique {a b : Address} {text : String} (ha : a.IsSpelledBy text)
    (hb : b.IsSpelledBy text) : a = b := by
  rw [← read?_eq_some_iff] at ha hb
  exact Option.some.inj (ha.symm.trans hb)

/-- Exactly these texts spell an address. -/
theorem exists_isSpelledBy_iff {text : String} :
    (∃ a : Address, a.IsSpelledBy text) ↔ IsKeyText text := by
  refine Iff.trans ?_ (@Hex.exists_bytes_iff (Hex.dropMark text).toList 20)
  constructor
  · rintro ⟨a, ha⟩
    exact ⟨a.bytes, a.length_eq, isSpelledBy_iff.mp ha⟩
  · rintro ⟨bytes, hlength, hbytes⟩
    exact ⟨⟨bytes, hlength⟩, isSpelledBy_iff.mpr hbytes⟩

end Address

/-! ## Blocks of 32 octets -/

namespace Bytes32

/-- A text is sixty-four digits of either case behind at most one mark. -/
def IsBlockText (text : String) : Prop :=
  (Hex.dropMark text).toList.length = 64 ∧ ∀ c ∈ (Hex.dropMark text).toList, Hex.IsDigit c

/-- A block is read exactly if it is spelled behind at most one mark. -/
theorem read_eq_ok_iff {text : String} {b : Bytes32} :
    read text = .ok b ↔
      (Hex.dropMark text).toList.map Char.toLower = b.bytes.flatMap Hex.encodeOctet := by
  rw [← Hex.decode_eq_ok_iff, read]
  cases hbytes : Hex.decode (Hex.dropMark text) with
  | error fault => exact ⟨fun h => (nomatch h), fun h => (nomatch h)⟩
  | ok bytes =>
      simp only [ofBytes]
      constructor
      · intro h
        split at h
        · next block hblock =>
            cases h
            rw [Block.ofBytes?_eq_some_iff.mp hblock]
        · cases h
      · intro h
        cases h
        rw [Block.ofBytes?_bytes b]

/-- Exactly these texts are read as blocks. -/
theorem exists_read_iff {text : String} : (∃ b, read text = .ok b) ↔ IsBlockText text := by
  refine Iff.trans ?_ (@Hex.exists_bytes_iff (Hex.dropMark text).toList 32)
  constructor
  · rintro ⟨b, hb⟩
    exact ⟨b.bytes, b.length_eq, read_eq_ok_iff.mp hb⟩
  · rintro ⟨bytes, hlength, hbytes⟩
    exact ⟨⟨bytes, hlength⟩, read_eq_ok_iff.mpr hbytes⟩

/-- A text is read exactly if it shows sixty-four digits of either case. -/
theorem exists_read_iff_shows {text : String} :
    (∃ b, read text = .ok b) ↔
      ∃ digits, Hex.Shows text digits ∧ digits.length = 64 ∧
        ∀ c ∈ digits.toList, Hex.IsDigit c := by
  rw [exists_read_iff]
  constructor
  · rintro ⟨hlength, hdigits⟩
    exact ⟨_, Hex.shows_dropMark text, hlength, hdigits⟩
  · rintro ⟨digits, hshows, hlength, hdigits⟩
    rw [IsBlockText, Hex.dropMark_of_shows hshows hdigits]
    exact ⟨hlength, hdigits⟩

/-- What is read is written as the digits that are shown, in lowercase. -/
theorem read_eq_ok_iff_shows {text : String} {b : Bytes32} :
    read text = .ok b ↔ ∃ digits, Hex.Shows text digits ∧ digits.toLower = b.toHex := by
  have hlower : ∀ digits : String, digits.toLower = b.toHex ↔
      digits.toList.map Char.toLower = b.bytes.flatMap Hex.encodeOctet := by
    intro digits
    rw [← String.toList_inj, Hex.toList_toLower, Block.toHex, Hex.encode, String.toList_ofList]
  rw [read_eq_ok_iff]
  constructor
  · intro h
    exact ⟨_, Hex.shows_dropMark text, (hlower _).mpr h⟩
  · rintro ⟨digits, hshows, h⟩
    have hchars := (hlower digits).mp h
    rwa [Hex.dropMark_of_shows hshows (Hex.exists_bytes_iff.mp ⟨b.bytes, rfl, hchars⟩).2]

/-- What is written is in lowercase already, and is read back. -/
theorem read_toHex (b : Bytes32) : read b.toHex = .ok b := by
  have hlower := Hex.decode_eq_ok_iff.mp (Hex.decode_encode b.bytes)
  refine read_eq_ok_iff_shows.mpr ⟨b.toHex, .inl rfl, String.toList_inj.mp ?_⟩
  rw [Hex.toList_toLower, Block.toHex, hlower, Hex.encode, String.toList_ofList]

end Bytes32

end BridgeGuardian
