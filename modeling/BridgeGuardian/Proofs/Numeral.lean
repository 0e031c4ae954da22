import Mathlib.Data.List.Induction
import BridgeGuardian.Proofs.Json.Spelled
import BridgeGuardian.Text.Numeral

/-! # Numerals in proofs — which texts spell a number

    Digits are read onto the value of those before them, and that value only
    grows; so they are refused for their size exactly if the number that they
    spell is too large.  A run of digits is what is usually written for its
    number, behind as many zeros as one likes: `readNumeral_eq_ok_iff` says
    that this and a plus sign in front are all the freedom there is. -/

namespace BridgeGuardian.Text

/-- A numeral of a number: its digits, possibly behind zeros, and possibly
    with a plus sign in front of all. -/
inductive IsNumeral (n : Nat) : List Char → Prop
  | plain (zeros : Nat) : IsNumeral n (List.replicate zeros '0' ++ Nat.toDigits 10 n)
  | signed (zeros : Nat) : IsNumeral n ('+' :: (List.replicate zeros '0' ++ Nat.toDigits 10 n))

/-! ## Digits -/

/-- The value of digits behind others of the given value. -/
def valueOnto (value : Nat) (digits : List Char) : Nat :=
  digits.foldl (fun n c => n * 10 + (c.toNat - 48)) value

theorem le_valueOnto (value : Nat) (digits : List Char) : value ≤ valueOnto value digits := by
  induction digits generalizing value with
  | nil => exact Nat.le_refl value
  | cons c rest ih =>
      have hrest := ih (value * 10 + (c.toNat - 48))
      show value ≤ valueOnto (value * 10 + (c.toNat - 48)) rest
      omega

theorem digitsValue_append_singleton (digits : List Char) (c : Char) :
    Json.digitsValue (digits ++ [c]) = Json.digitsValue digits * 10 + (c.toNat - 48) := by
  rw [Json.digitsValue, List.foldl_append]
  rfl

theorem digitsValue_replicate_append (zeros : Nat) (digits : List Char) :
    Json.digitsValue (List.replicate zeros '0' ++ digits) = Json.digitsValue digits := by
  induction zeros with
  | zero => rfl
  | succ zeros ih => exact ih

theorem digitValue?_of_isDigit {c : Char} (h : Json.isDigit c = true) :
    digitValue? c = some (c.toNat - 48) := by
  unfold Json.isDigit digitValue? at h
  unfold digitValue?
  split at h
  · next hbounds => exact if_pos hbounds
  · cases h

theorem digitValue?_of_not_isDigit {c : Char} (h : ¬ Json.isDigit c = true) :
    digitValue? c = none := Option.not_isSome_iff_eq_none.mp h

/-- A digit is what is written for its value. -/
theorem toDigits_of_isDigit {c : Char} (h : Json.isDigit c = true) :
    Nat.toDigits 10 (c.toNat - 48) = [c] ∧ c.toNat - 48 < 10 := by
  have hall : ∀ k : Fin 10, Nat.toDigits 10 k = [Char.ofNat (k + 48)] := by decide
  unfold Json.isDigit digitValue? at h
  split at h
  · next hbounds =>
      have hdigit := hall ⟨c.toNat - 48, by omega⟩
      simp only [Nat.sub_add_cancel hbounds.1, Char.ofNat_toNat] at hdigit
      exact ⟨hdigit, by omega⟩
  · cases h

/-- A run of digits is what is written for its number, behind zeros. -/
theorem exists_zeros {digits : List Char} (hne : digits ≠ [])
    (h : ∀ c ∈ digits, Json.isDigit c = true) :
    ∃ zeros, digits = List.replicate zeros '0' ++ Nat.toDigits 10 (Json.digitsValue digits) := by
  induction digits using List.reverseRecOn with
  | nil => exact absurd rfl hne
  | append_singleton front c ih =>
      obtain ⟨hfront, hc⟩ := List.forall_mem_append.mp h
      obtain ⟨hdigit, hlt⟩ := toDigits_of_isDigit (hc c (List.mem_singleton_self c))
      rw [digitsValue_append_singleton]
      by_cases hzero : Json.digitsValue front = 0
      · rw [hzero, Nat.zero_mul, Nat.zero_add, hdigit]
        by_cases hempty : front = []
        · exact ⟨0, by rw [hempty]; rfl⟩
        · obtain ⟨zeros, hzeros⟩ := ih hempty hfront
          rw [hzero, Nat.toDigits_zero, ← List.replicate_succ'] at hzeros
          exact ⟨zeros + 1, by rw [← hzeros]⟩
      · have hsome : front ≠ [] := by
          rintro rfl
          exact hzero rfl
        obtain ⟨zeros, hzeros⟩ := ih hsome hfront
        refine ⟨zeros, ?_⟩
        rw [Nat.mul_comm _ 10, ← Nat.toDigits_append_toDigits (by decide)
          (Nat.pos_of_ne_zero hzero) hlt, hdigit, ← List.append_assoc, ← hzeros]

/-- Digits are read if they are digits and spell no more than the limit. -/
theorem readDigits_eq_ok_iff {limit value n : Nat} {digits : List Char} (hvalue : value ≤ limit) :
    readDigits limit value digits = .ok n ↔
      (∀ c ∈ digits, Json.isDigit c = true) ∧ valueOnto value digits = n ∧ n ≤ limit := by
  induction digits generalizing value with
  | nil =>
      constructor
      · intro h
        cases h
        exact ⟨List.forall_mem_nil _, rfl, hvalue⟩
      · rintro ⟨-, rfl, -⟩
        rfl
  | cons c rest ih =>
      rw [readDigits, List.forall_mem_cons]
      by_cases hdigit : Json.isDigit c = true
      · rw [digitValue?_of_isDigit hdigit]
        dsimp only
        have hstep : valueOnto value (c :: rest)
            = valueOnto (value * 10 + (c.toNat - 48)) rest := rfl
        by_cases hlarge : limit < value * 10 + (c.toNat - 48)
        · rw [if_pos hlarge]
          refine iff_of_false (by rintro ⟨⟩) ?_
          rintro ⟨-, rfl, hfits⟩
          have hgrows := le_valueOnto (value * 10 + (c.toNat - 48)) rest
          omega
        · rw [if_neg hlarge, ih (Nat.le_of_not_lt hlarge), hstep]
          exact ⟨fun ⟨hrest, h⟩ => ⟨⟨hdigit, hrest⟩, h⟩, fun ⟨⟨_, hrest⟩, h⟩ => ⟨hrest, h⟩⟩
      · rw [digitValue?_of_not_isDigit hdigit]
        exact iff_of_false (by rintro ⟨⟩) fun h => hdigit h.1.1

/-- A run of digits is read as the number whose digits stand behind its
    zeros. -/
theorem readDigits_zero_eq_ok_iff {limit n : Nat} {digits : List Char} (hne : digits ≠ []) :
    readDigits limit 0 digits = .ok n ↔
      (∃ zeros, digits = List.replicate zeros '0' ++ Nat.toDigits 10 n) ∧ n ≤ limit := by
  rw [readDigits_eq_ok_iff (Nat.zero_le limit)]
  constructor
  · rintro ⟨hdigits, rfl, hfits⟩
    exact ⟨exists_zeros hne hdigits, hfits⟩
  · rintro ⟨⟨zeros, rfl⟩, hfits⟩
    refine ⟨?_, ?_, hfits⟩
    · refine List.forall_mem_append.mpr ⟨fun c hc => ?_, fun c => Json.isDigit_of_mem_toDigits⟩
      rw [List.eq_of_mem_replicate hc]
      rfl
    · show Json.digitsValue _ = n
      rw [digitsValue_replicate_append, Json.digitsValue_toDigits]

/-! ## Numerals -/

/-- What is written for a number is some digits. -/
theorem exists_toDigits (zeros n : Nat) :
    ∃ c rest, List.replicate zeros '0' ++ Nat.toDigits 10 n = c :: rest ∧ c ≠ '+' := by
  have hdigits : ∀ c ∈ List.replicate zeros '0' ++ Nat.toDigits 10 n, c ≠ '+' := by
    refine List.forall_mem_append.mpr ⟨fun c hc => ?_, fun c hc hplus => ?_⟩
    · rw [List.eq_of_mem_replicate hc]
      decide
    · have hdigit := Json.isDigit_of_mem_toDigits hc
      rw [hplus] at hdigit
      cases hdigit
  cases hchars : List.replicate zeros '0' ++ Nat.toDigits 10 n with
  | nil => exact absurd (List.append_eq_nil_iff.mp hchars).2 Nat.toDigits_ne_nil
  | cons c rest =>
      rw [hchars] at hdigits
      exact ⟨c, rest, rfl, hdigits c List.mem_cons_self⟩

/-- Exactly the numerals of numbers within the limit are read. -/
theorem readNumeral_eq_ok_iff {limit n : Nat} {text : String} :
    readNumeral limit text = .ok n ↔ IsNumeral n text.toList ∧ n ≤ limit := by
  unfold readNumeral
  constructor
  · intro h
    split at h
    · cases h
    · cases h
    · next digits hne hchars =>
        obtain ⟨⟨zeros, rfl⟩, hfits⟩ := (readDigits_zero_eq_ok_iff hne).mp h
        exact ⟨hchars ▸ .signed zeros, hfits⟩
    · next hempty _ _ =>
        obtain ⟨⟨zeros, hzeros⟩, hfits⟩ := (readDigits_zero_eq_ok_iff hempty).mp h
        exact ⟨hzeros ▸ .plain zeros, hfits⟩
  · rintro ⟨hnumeral, hfits⟩
    generalize text.toList = chars at hnumeral ⊢
    cases hnumeral with
    | plain zeros =>
        obtain ⟨c, rest, hchars, hplus⟩ := exists_toDigits zeros n
        have hread : readDigits limit 0 (c :: rest) = .ok n := by
          rw [← hchars]
          exact (readDigits_zero_eq_ok_iff (by rw [hchars]; exact List.cons_ne_nil _ _)).mpr
            ⟨⟨zeros, rfl⟩, hfits⟩
        rw [hchars]
        split
        · next hnil => cases hnil
        · next hsign => exact absurd (List.cons.inj hsign).1 hplus
        · next hsign => exact absurd (List.cons.inj hsign).1 hplus
        · exact hread
    | signed zeros =>
        obtain ⟨c, rest, hchars, -⟩ := exists_toDigits zeros n
        have hread : readDigits limit 0 (c :: rest) = .ok n := by
          rw [← hchars]
          exact (readDigits_zero_eq_ok_iff (by rw [hchars]; exact List.cons_ne_nil _ _)).mpr
            ⟨⟨zeros, rfl⟩, hfits⟩
        rw [hchars]
        exact hread

/-- Every numeral of a number of 64 bits is read. -/
theorem readUInt64_eq_ok_iff {n : UInt64} {text : String} :
    readUInt64 text = .ok n ↔ IsNumeral n.toNat text.toList := by
  have hn : n.toNat < 18446744073709551616 := n.toNat_lt_size
  have hmax : UInt64.size - 1 = 18446744073709551615 := rfl
  rw [readUInt64]
  constructor
  · intro h
    cases hread : readNumeral (UInt64.size - 1) text with
    | error fault =>
        rw [hread] at h
        cases h
    | ok k =>
        rw [hread] at h
        cases h
        obtain ⟨hnumeral, hfits⟩ := readNumeral_eq_ok_iff.mp hread
        rw [hmax] at hfits
        rwa [UInt64.toNat_ofNat_of_lt' (Nat.lt_succ_of_le hfits)]
  · intro h
    rw [readNumeral_eq_ok_iff.mpr ⟨h, by rw [hmax]; omega⟩]
    exact congrArg Except.ok UInt64.ofNat_toNat

/-- Every numeral of a number of 32 bits is read. -/
theorem readUInt32_of_isNumeral {n : UInt32} {text : String} (h : IsNumeral n.toNat text.toList) :
    readUInt32 text = .ok n := by
  have hn : n.toNat < 4294967296 := n.toNat_lt_size
  have hmax : UInt32.size - 1 = 4294967295 := rfl
  rw [readUInt32, readNumeral_eq_ok_iff.mpr ⟨h, by rw [hmax]; omega⟩]
  exact congrArg Except.ok UInt32.ofNat_toNat

end BridgeGuardian.Text
