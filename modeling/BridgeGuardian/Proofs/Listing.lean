import BridgeGuardian.Proofs.Numeral
import Mathlib.Data.List.TakeWhile
import BridgeGuardian.Text.Blank

/-! # Listings — what settings list and number

    Blanks around an item or a number do not belong to it, and pieces of a
    list that are nothing but blanks do not count.  A text is cut at its first
    comma, so `listItems_append` reads a listing piece by piece; what stands
    between two commas is an item with blanks around it. -/

namespace BridgeGuardian.Text

/-- A text is the given one with blanks around it. -/
def IsPadded (chars text : List Char) : Prop :=
  ∃ left right, (∀ c ∈ left, isBlank c) ∧ (∀ c ∈ right, isBlank c) ∧
    text = left ++ (chars ++ right)

/-- A text lists items in order: one for each piece between commas that is
    not blank. -/
inductive IsListing : List String → List Char → Prop
  | nothing {text : List Char} (blank : IsPadded [] text) : IsListing [] text
  | one {text : List Char} {item : String} (padded : IsPadded item.toList text) :
      IsListing [item] text
  | skip {front text : List Char} {items : List String} (blank : IsPadded [] front)
      (rest : IsListing items text) : IsListing items (front ++ ',' :: text)
  | cons {front text : List Char} {item : String} {items : List String}
      (padded : IsPadded item.toList front) (rest : IsListing items text) :
      IsListing (item :: items) (front ++ ',' :: text)

/-- A text can stand in a list: it is not empty, and has no blank and no
    comma. -/
def IsItem (item : String) : Prop :=
  item.toList ≠ [] ∧ ∀ c ∈ item.toList, ¬ isBlank c ∧ c ≠ ','

/-! ## Blanks around a text -/

section

variable {chars text front rest : List Char} {separator : Char} {item : String}
  {items : List String}

theorem isPadded_self (chars : List Char) : IsPadded chars chars :=
  ⟨[], [], List.forall_mem_nil _, List.forall_mem_nil _, (List.append_nil chars).symm⟩

theorem dropWhile_isBlank (hfront : ∀ c ∈ front, isBlank c) (hchars : ∀ c ∈ chars, ¬ isBlank c) :
    (front ++ chars).dropWhile isBlank = chars := by
  rw [List.dropWhile_append_of_pos hfront]
  cases chars with
  | nil => rfl
  | cons c chars => exact List.dropWhile_cons_of_neg (hchars c List.mem_cons_self)

/-- Exactly the blanks around a text without blanks are dropped. -/
theorem trimChars_of_isPadded (h : IsPadded chars text) (hchars : ∀ c ∈ chars, ¬ isBlank c) :
    trimChars text = chars := by
  obtain ⟨left, right, hleft, hright, rfl⟩ := h
  rw [trimChars]
  cases chars with
  | nil =>
      rw [List.nil_append, List.dropWhile_eq_nil_iff.mpr (List.forall_mem_append.mpr
        ⟨hleft, hright⟩)]
      rfl
  | cons c chars =>
      have hstart : (left ++ (c :: chars ++ right)).dropWhile isBlank = c :: chars ++ right := by
        rw [List.dropWhile_append_of_pos hleft, List.cons_append]
        exact List.dropWhile_cons_of_neg (hchars c List.mem_cons_self)
      rw [hstart, List.reverse_append, dropWhile_isBlank, List.reverse_reverse]
      · exact fun d hd => hright d (List.mem_reverse.mp hd)
      · exact fun d hd => hchars d (List.mem_reverse.mp hd)

theorem comma_notMem_of_isPadded (h : IsPadded chars text) (hchars : ',' ∉ chars) :
    ',' ∉ text := by
  obtain ⟨left, right, hleft, hright, rfl⟩ := h
  have hblank : ¬ isBlank ',' := by decide
  simp only [List.mem_append, not_or]
  exact ⟨fun hc => hblank (hleft _ hc), hchars, fun hc => hblank (hright _ hc)⟩

/-- There is no blank in a numeral. -/
theorem not_isBlank_of_isNumeral {n : Nat} (h : IsNumeral n chars) :
    ∀ c ∈ chars, ¬ isBlank c := by
  have hdigit : ∀ c, Json.isDigit c = true → ¬ isBlank c := by
    intro c hc
    unfold Json.isDigit digitValue? at hc
    split at hc
    · next hbounds =>
        simp only [isBlank, Bool.or_eq_true, Bool.and_eq_true, decide_eq_true_eq, beq_iff_eq]
        omega
    · cases hc
  have hdigits : ∀ zeros, ∀ c ∈ List.replicate zeros '0' ++ Nat.toDigits 10 n, ¬ isBlank c := by
    refine fun zeros => List.forall_mem_append.mpr ⟨fun c hc => ?_, fun c hc => ?_⟩
    · rw [List.eq_of_mem_replicate hc]
      decide
    · exact hdigit c (Json.isDigit_of_mem_toDigits hc)
  cases h with
  | plain zeros => exact hdigits zeros
  | signed zeros => exact List.forall_mem_cons.mpr ⟨by decide, hdigits zeros⟩

/-! ## Lists -/

theorem splitChars_eq_cons (separator : Char) (text : List Char) :
    ∃ piece pieces, splitChars separator text = piece :: pieces := by
  cases text with
  | nil => exact ⟨_, _, rfl⟩
  | cons c rest =>
      rw [splitChars]
      split
      · exact ⟨_, _, rfl⟩
      · split
        · exact ⟨_, _, rfl⟩
        · exact ⟨_, _, rfl⟩

/-- A text without the separator is one piece. -/
theorem splitChars_of_notMem (h : separator ∉ front) : splitChars separator front = [front] := by
  induction front with
  | nil => rfl
  | cons c front ih =>
      obtain ⟨hc, hfront⟩ := not_or.mp (List.mem_cons.not.mp h)
      rw [splitChars, ih hfront]
      exact if_neg (Ne.symm hc)

/-- A text is cut at its first separator. -/
theorem splitChars_append (h : separator ∉ front) (rest : List Char) :
    splitChars separator (front ++ separator :: rest) = front :: splitChars separator rest := by
  induction front with
  | nil =>
      obtain ⟨piece, pieces, hrest⟩ := splitChars_eq_cons separator rest
      rw [List.nil_append, splitChars, hrest]
      exact if_pos rfl
  | cons c front ih =>
      obtain ⟨hc, hfront⟩ := not_or.mp (List.mem_cons.not.mp h)
      rw [List.cons_append, splitChars, ih hfront]
      exact if_neg (Ne.symm hc)

/-- The items in front of a comma come before those behind it. -/
theorem listItems_append (h : ',' ∉ front) (rest : List Char) :
    listItems (String.ofList (front ++ ',' :: rest))
      = listItems (String.ofList front) ++ listItems (String.ofList rest) := by
  simp only [listItems, String.toList_ofList]
  rw [splitChars_append h, splitChars_of_notMem h, ← List.singleton_append, List.map_append,
    List.filterMap_append]

theorem listItems_of_blank (h : IsPadded [] front) : listItems (String.ofList front) = [] := by
  rw [listItems, String.toList_ofList,
    splitChars_of_notMem (comma_notMem_of_isPadded h List.not_mem_nil), List.map_singleton,
    trimChars_of_isPadded h (List.forall_mem_nil _)]
  rfl

theorem listItems_of_isItem (hitem : IsItem item) (h : IsPadded item.toList front) :
    listItems (String.ofList front) = [item] := by
  have hcomma : ',' ∉ front :=
    comma_notMem_of_isPadded h fun hc => (hitem.2 _ hc).2 rfl
  have hsome : ¬ item.toList.isEmpty = true := fun hnil => hitem.1 (List.isEmpty_iff.mp hnil)
  rw [listItems, String.toList_ofList, splitChars_of_notMem hcomma, List.map_singleton,
    trimChars_of_isPadded h fun c hc => (hitem.2 c hc).1, List.filterMap_cons, if_neg hsome,
    String.ofList_toList]
  rfl

/-- The items of a listing are those that it lists. -/
theorem listItems_of_isListing (h : IsListing items text) (hitems : ∀ item ∈ items, IsItem item) :
    listItems (String.ofList text) = items := by
  induction h with
  | nothing blank => exact listItems_of_blank blank
  | one padded => exact listItems_of_isItem (hitems _ List.mem_cons_self) padded
  | skip blank _ ih =>
      rw [listItems_append (comma_notMem_of_isPadded blank List.not_mem_nil),
        listItems_of_blank blank, List.nil_append, ih hitems]
  | cons padded _ ih =>
      obtain ⟨hitem, hrest⟩ := List.forall_mem_cons.mp hitems
      have hcomma := comma_notMem_of_isPadded padded fun hc => (hitem.2 _ hc).2 rfl
      rw [listItems_append hcomma, listItems_of_isItem hitem padded, ih hrest,
        List.singleton_append]

end

end BridgeGuardian.Text
