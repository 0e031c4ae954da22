import BridgeGuardian.Json.Parser
import BridgeGuardian.Json.Printer

/-! # Spelled scalars — strings and numbers are read as they were printed

    A string is read character by character: whatever printing does to a
    character, reading undoes it, and the closing quote is the first one
    that is not escaped.  A number ends where a separator or a bracket
    begins, so its digits are the ones that were printed. -/

namespace BridgeGuardian.Json

/-! ## Strings -/

/-- Whether a character stands for itself in a string. -/
def IsPlain (c : Char) : Prop := 32 ≤ c.toNat ∧ c ≠ '"' ∧ c ≠ '\\'

/-- A character is compared with those that are escaped. -/
instance (c : Char) : Decidable (IsPlain c) := inferInstanceAs (Decidable (_ ∧ _ ∧ _))

theorem stringPieces_cons {c : Char} (h : IsPlain c) (text : List Char) :
    stringPieces (c :: text)
      = (stringPieces text).map fun (pieces, rest) => (.plain c :: pieces, rest) := by
  obtain ⟨hlow, hquote, hescape⟩ := h
  have hstays : ¬ (c.toNat < 32 ∨ c = '\\') := by
    rintro (hcontrol | hc)
    · exact absurd hlow (Nat.not_le.mpr hcontrol)
    · exact hescape hc
  rw [stringPieces.eq_def]
  split
  next h => exact absurd (List.cons.inj h).1 hquote
  next h => exact absurd (List.cons.inj h).1 hescape
  next h => exact absurd (List.cons.inj h).1 hescape
  next h =>
    cases h
    rw [if_neg hstays]
    cases stringPieces text <;> rfl
  next h => cases h

theorem stringPieces_escaped {c e : Char} (h : escape? e = some c) (text : List Char) :
    stringPieces ('\\' :: e :: text)
      = (stringPieces text).map fun (pieces, rest) => (.plain c :: pieces, rest) := by
  rw [stringPieces.eq_def]
  split
  next hquote => cases (List.cons.inj hquote).1
  next hunit =>
    -- no short escape begins with the letter of the long ones
    cases (List.cons.inj (List.cons.inj hunit).2).1
    cases h
  next hshort =>
    cases hshort
    rw [h]
    cases stringPieces text <;> rfl
  next hshort hplain =>
    cases hplain
    exact absurd rfl (hshort e text rfl)
  next hnil => cases hnil

theorem unit?_hexDigit {n : Nat} (h : n < 32) :
    unit? '0' '0' (hexDigit (n / 16)) (hexDigit (n % 16)) = some n := by
  have hall : ∀ n : Fin 32,
      unit? '0' '0' (hexDigit (n.val / 16)) (hexDigit (n.val % 16)) = some n.val := by decide
  exact hall ⟨n, h⟩

theorem stringPieces_control {n : Nat} (h : n < 32) (text : List Char) :
    stringPieces ('\\' :: 'u' :: '0' :: '0' :: hexDigit (n / 16) :: hexDigit (n % 16) :: text)
      = (stringPieces text).map fun (pieces, rest) => (.unit n :: pieces, rest) := by
  rw [stringPieces, unit?_hexDigit h]
  cases stringPieces text <;> rfl

/-- The number of a control character is no half of a pair. -/
theorem spell?_unit {c : Char} (h : c.toNat < 32) (pieces : List Piece) :
    spell? (.unit c.toNat :: pieces) = (spell? pieces).map (c :: ·) := by
  have hhigh : isHighHalf c.toNat = false := by
    rw [isHighHalf, decide_eq_false (by omega), Bool.false_and]
  have hlow : isLowHalf c.toNat = false := by
    rw [isLowHalf, decide_eq_false (by omega), Bool.false_and]
  match pieces with
  | [] | .plain _ :: _ | .unit _ :: _ =>
      simp only [spell?, hhigh, hlow, Bool.or_self, Bool.false_eq_true, if_false, Char.ofNat_toNat]
      rfl

/-- A character is written as a short escape, by its number, or as it is. -/
theorem printChar_cases (c : Char) :
    (∃ e, escape? e = some c ∧ printChar c = ['\\', e]) ∨
    (c.toNat < 32 ∧ printChar c
      = ['\\', 'u', '0', '0', hexDigit (c.toNat / 16), hexDigit (c.toNat % 16)]) ∨
    (IsPlain c ∧ printChar c = [c]) := by
  unfold printChar
  split
  next => exact .inl ⟨'"', rfl, rfl⟩
  next => exact .inl ⟨'\\', rfl, rfl⟩
  next => exact .inl ⟨'b', rfl, rfl⟩
  next => exact .inl ⟨'f', rfl, rfl⟩
  next => exact .inl ⟨'n', rfl, rfl⟩
  next => exact .inl ⟨'r', rfl, rfl⟩
  next => exact .inl ⟨'t', rfl, rfl⟩
  next hquote hescape _ _ _ _ _ =>
    by_cases hlow : c.toNat < 32
    · exact .inr (.inl ⟨hlow, if_pos hlow⟩)
    · exact .inr (.inr ⟨⟨Nat.le_of_not_lt hlow, hquote, hescape⟩, if_neg hlow⟩)

/-- A character is read as a piece that spells it. -/
theorem exists_piece (c : Char) : ∃ piece,
    (∀ text, stringPieces (printChar c ++ text)
      = (stringPieces text).map fun (pieces, rest) => (piece :: pieces, rest)) ∧
    ∀ pieces, spell? (piece :: pieces) = (spell? pieces).map (c :: ·) := by
  rcases printChar_cases c with ⟨e, hescape, hprint⟩ | ⟨hlow, hprint⟩ | ⟨hplain, hprint⟩
  · rw [hprint]
    exact ⟨.plain c, stringPieces_escaped hescape, fun _ => rfl⟩
  · rw [hprint]
    exact ⟨.unit c.toNat, stringPieces_control hlow, spell?_unit hlow⟩
  · rw [hprint]
    exact ⟨.plain c, stringPieces_cons hplain, fun _ => rfl⟩

/-- A string ends at the quote behind its characters. -/
theorem exists_pieces (chars rest : List Char) : ∃ pieces,
    stringPieces (chars.flatMap printChar ++ '"' :: rest) = some (pieces, rest) ∧
      spell? pieces = some chars := by
  induction chars with
  | nil => exact ⟨[], rfl, rfl⟩
  | cons c chars ih =>
      obtain ⟨pieces, hpieces, hspell⟩ := ih
      obtain ⟨piece, hread, hspells⟩ := exists_piece c
      refine ⟨piece :: pieces, ?_, ?_⟩
      · rw [List.flatMap_cons, List.append_assoc, hread, hpieces]
        rfl
      · rw [hspells, hspell]
        rfl

theorem toList_printString (s : String) :
    (printString s).toList = '"' :: (s.toList.flatMap printChar ++ ['"']) := by
  simp only [printString, String.toList_append, String.toList_ofList, List.append_assoc]
  rfl

/-- A text is read as it was printed. -/
theorem scalar?_printString (s : String) (rest : List Char) :
    scalar? ((printString s).toList ++ rest) = some (.text s, rest) := by
  obtain ⟨pieces, hpieces, hspell⟩ := exists_pieces s.toList rest
  rw [toList_printString, List.cons_append, List.append_assoc, List.singleton_append]
  show (stringPieces (s.toList.flatMap printChar ++ '"' :: rest) >>= _) = _
  rw [hpieces]
  show some (Json.string ((spell? pieces).map String.ofList), rest) = _
  rw [hspell, Option.map_some, String.ofList_toList]
  rfl

theorem printChar_of_isPlain {c : Char} (h : IsPlain c) : printChar c = [c] := by
  obtain ⟨hlow, hquote, hescape⟩ := h
  unfold printChar
  split
  all_goals try exact absurd hlow (by decide)
  next => exact absurd rfl hquote
  next => exact absurd rfl hescape
  next => exact if_neg (Nat.not_lt.mpr hlow)

theorem flatMap_printChar_of_isPlain {chars : List Char} (h : ∀ c ∈ chars, IsPlain c) :
    chars.flatMap printChar = chars := by
  induction chars with
  | nil => rfl
  | cons c chars ih =>
      obtain ⟨hc, hrest⟩ := List.forall_mem_cons.mp h
      rw [List.flatMap_cons, printChar_of_isPlain hc, ih hrest]
      rfl

/-- A text of plain characters is printed as it is. -/
theorem printString_of_isPlain {s : String} (h : ∀ c ∈ s.toList, IsPlain c) :
    printString s = "\"" ++ s ++ "\"" := by
  rw [printString, flatMap_printChar_of_isPlain h, String.ofList_toList]

/-! ## Numbers -/

/-- Where a value ends: a separator, a bracket or the end of the text. -/
def IsBoundary (rest : List Char) : Prop := ∀ c ∈ rest.head?, (mark? c).isSome

theorem isDigit_of_mem_toDigits {n : Nat} {c : Char} (h : c ∈ Nat.toDigits 10 n) :
    isDigit c = true := by
  have hdigit := Nat.isDigit_of_mem_toDigits (by decide) (by decide) h
  rw [isDigit, Text.digitValue?, if_pos]
  · rfl
  · simpa [Char.isDigit, UInt32.le_iff_toNat_le] using hdigit

theorem digitsValue_toDigits (n : Nat) : digitsValue (Nat.toDigits 10 n) = n := by
  have h := Nat.ofDigitChars_toDigits (b := 10) (n := n) (by decide) (by decide)
  rw [Nat.ofDigitChars_eq_foldl] at h
  simp only [Nat.mul_comm 10] at h
  exact h

/-- Only zero begins with a zero. -/
theorem eq_nil_of_toDigits_eq {n : Nat} {digits : List Char}
    (h : Nat.toDigits 10 n = '0' :: digits) : digits = [] := by
  induction n using Nat.strongRecOn generalizing digits with
  | _ n ih =>
      rw [Nat.toDigits_eq_if (by decide)] at h
      by_cases hlow : n < 10
      · rw [if_pos hlow] at h
        exact (List.cons.inj h).2.symm
      · rw [if_neg hlow] at h
        cases hfront : Nat.toDigits 10 (n / 10) with
        | nil => exact absurd hfront Nat.toDigits_ne_nil
        | cons c front =>
            rw [hfront, List.cons_append] at h
            obtain rfl := (List.cons.inj h).1
            -- the digits in front would be those of zero
            obtain rfl := ih (n / 10) (by omega) hfront
            have hzero := digitsValue_toDigits (n / 10)
            rw [hfront] at hzero
            have hvalue : digitsValue ['0'] = 0 := rfl
            omega

/-- What may stand behind a number does not belong to it. -/
structure IsBehindNumber (rest : List Char) : Prop where
  digits : ∀ digits, (∀ c ∈ digits, isDigit c = true) → takeDigits (digits ++ rest) = (digits, rest)
  fraction : fraction? rest = some (none, rest)
  exponent : exponent? rest = some (none, rest)

theorem IsBoundary.isBehindNumber {rest : List Char} (h : IsBoundary rest) :
    IsBehindNumber rest := by
  cases rest with
  | nil =>
      refine ⟨fun digits hdigits => ?_, rfl, rfl⟩
      rw [takeDigits, List.takeWhile_append_of_pos hdigits, List.dropWhile_append_of_pos hdigits]
      simp
  | cons c rest =>
      have hmark : (mark? c).isSome := h c rfl
      have hother : isDigit c = false ∧ c ≠ '.' ∧ c ≠ 'e' ∧ c ≠ 'E' := by
        unfold mark? at hmark
        split at hmark
        all_goals first | decide | cases hmark
      obtain ⟨hdigit, hpoint, hlower, hupper⟩ := hother
      refine ⟨fun digits hdigits => ?_, ?_, ?_⟩
      · rw [takeDigits, List.takeWhile_append_of_pos hdigits, List.dropWhile_append_of_pos hdigits]
        simp [hdigit]
      · unfold fraction?
        split
        next hc => exact absurd (List.cons.inj hc).1 hpoint
        next => rfl
      · rw [exponent?, if_neg (not_or.mpr ⟨hlower, hupper⟩)]

theorem unsigned?_toDigits {rest : List Char} (hrest : IsBoundary rest) (negative : Bool)
    (n : Nat) : unsigned? negative (Nat.toDigits 10 n ++ rest)
      = some (numberOf negative (Nat.toDigits 10 n) none none, rest) := by
  have hbehind := hrest.isBehindNumber
  have htake := hbehind.digits (Nat.toDigits 10 n) fun c hc => isDigit_of_mem_toDigits hc
  rw [unsigned?, htake]
  split
  next h => exact absurd (Prod.mk.inj h).1 Nat.toDigits_ne_nil
  next h => cases eq_nil_of_toDigits_eq (Prod.mk.inj h).1
  next h =>
    cases h
    rw [hbehind.fraction]
    show (exponent? rest >>= _) = _
    rw [hbehind.exponent]
    rfl

/-- An integer that a parser keeps: of 64 bits, with or without a sign
    bit. -/
def IsInRange (n : Int) : Prop := -9223372036854775808 ≤ n ∧ n < 18446744073709551616

theorem numberOf_toDigits {n : Nat} (h : IsInRange n) :
    numberOf false (Nat.toDigits 10 n) none none = .integer n := by
  have hsize : n < UInt64.size := Int.ofNat_lt.mp h.2
  rw [numberOf, digitsValue_toDigits]
  simp [hsize]

theorem numberOf_negative_toDigits {n : Nat} (h : IsInRange (.negSucc n)) :
    numberOf true (Nat.toDigits 10 (n + 1)) none none = .integer (.negSucc n) := by
  have hsize : n + 1 ≤ UInt64.size / 2 := by
    have hlow := h.1
    simp [UInt64.size]
    omega
  rw [numberOf, digitsValue_toDigits]
  simp only [Option.isSome_none, Bool.false_eq_true, or_self, if_false, if_true,
    if_pos (And.intro n.succ_ne_zero hsize)]
  rfl

/-- A character begins a number and no other token. -/
def BeginsNumber (c : Char) : Prop :=
  isSpace c = false ∧ mark? c = none ∧ c ≠ 't' ∧ c ≠ 'f' ∧ c ≠ 'n' ∧ c ≠ '"'

/-- A character is compared with those that begin other tokens. -/
instance (c : Char) : Decidable (BeginsNumber c) := inferInstanceAs (Decidable (_ ∧ _))

theorem beginsNumber_of_isDigit {c : Char} (h : isDigit c = true) : BeginsNumber c ∧ c ≠ '-' := by
  have hall : ∀ k : Fin 10, BeginsNumber (Char.ofNat (k + 48)) ∧ Char.ofNat (k + 48) ≠ '-' := by
    decide
  by_cases hbounds : 48 ≤ c.toNat ∧ c.toNat ≤ 57
  · have hvalue := hall ⟨c.toNat - 48, by omega⟩
    simp only [Nat.sub_add_cancel hbounds.1, Char.ofNat_toNat] at hvalue
    exact hvalue
  · rw [isDigit, Text.digitValue?, if_neg hbounds] at h
    cases h

/-- An integer is read as it was printed. -/
theorem exists_printNumber {n : Int} (h : IsInRange n) :
    ∃ c chars, (printNumber (.integer n)).toList = c :: chars ∧ BeginsNumber c ∧
      ∀ rest, IsBoundary rest → number? (c :: (chars ++ rest)) = some (.integer n, rest) := by
  cases n with
  | ofNat n =>
      have hchars : (printNumber (.integer (.ofNat n))).toList = Nat.toDigits 10 n :=
        Nat.toList_repr
      cases hdigits : Nat.toDigits 10 n with
      | nil => exact absurd hdigits Nat.toDigits_ne_nil
      | cons c digits =>
          have hmem : c ∈ Nat.toDigits 10 n := hdigits ▸ List.mem_cons_self
          obtain ⟨hbegins, hsign⟩ := beginsNumber_of_isDigit (isDigit_of_mem_toDigits hmem)
          refine ⟨c, digits, hchars.trans hdigits, hbegins, fun rest hrest => ?_⟩
          have hread := unsigned?_toDigits hrest false n
          rw [numberOf_toDigits h, hdigits] at hread
          unfold number?
          split
          next heq => exact absurd (List.cons.inj heq).1 hsign
          next => exact hread
  | negSucc n =>
      have hchars : (printNumber (.integer (.negSucc n))).toList
          = '-' :: Nat.toDigits 10 (n + 1) := by
        show ("-" ++ Nat.repr (n + 1)).toList = _
        rw [String.toList_append, Nat.toList_repr]
        rfl
      refine ⟨'-', _, hchars, by decide, fun rest hrest => ?_⟩
      show unsigned? true _ = _
      rw [unsigned?_toDigits hrest, numberOf_negative_toDigits h]

end BridgeGuardian.Json
