import BridgeGuardian.Json.Shape
import BridgeGuardian.Proofs.Json.Spelled

/-! # Printed values — what is printed is read back

    A printed value is cut into words that the parser turns into this value
    again, whatever follows it, as long as that does not lengthen its last
    word.  So items and fields can be read one after the other, and the
    induction is on the value: its containers hold values that are read back
    before. -/

namespace BridgeGuardian.Json

/-! ## Printing behind a text -/

mutual

theorem printOnto_eq (front : String) (v : Json) : printOnto front v = front ++ print v := by
  match v with
  | .null | .bool true | .bool false | .number n | .string s | .broken =>
      simp only [print, printOnto, String.empty_append, String.append_empty]
  | .array items =>
      rw [print, printOnto, printOnto, printItems_eq (front ++ "[") items,
        printItems_eq ("" ++ "[") items]
      simp only [String.empty_append, String.append_assoc]
  | .object fields =>
      rw [print, printOnto, printOnto, printFields_eq (front ++ "\x7b") fields,
        printFields_eq ("" ++ "\x7b") fields]
      simp only [String.empty_append, String.append_assoc]

theorem printItems_eq (front : String) (items : List Json) :
    printItems front items = front ++ printItems "" items := by
  match items with
  | [] => simp only [printItems, String.append_empty]
  | [v] =>
      rw [printItems, printItems, printOnto_eq front v]
      rfl
  | v :: w :: rest =>
      rw [printItems, printItems, printItems_eq (printOnto front v ++ ",") (w :: rest),
        printItems_eq (printOnto "" v ++ ",") (w :: rest), printOnto_eq front v]
      simp only [String.append_assoc]
      rfl

theorem printFields_eq (front : String) (fields : List (JsonText × Json)) :
    printFields front fields = front ++ printFields "" fields := by
  match fields with
  | [] => simp only [printFields, String.append_empty]
  | [(k, v)] =>
      rw [printFields, printFields, printOnto_eq _ v, printOnto_eq ("" ++ _ ++ _) v]
      simp only [String.empty_append, String.append_assoc]
  | (k, v) :: field :: rest =>
      rw [printFields, printFields, printFields_eq _ (field :: rest),
        printFields_eq (printOnto ("" ++ _ ++ _) v ++ ",") (field :: rest),
        printOnto_eq _ v, printOnto_eq ("" ++ _ ++ _) v]
      simp only [String.empty_append, String.append_assoc]

end

/-! ## Words -/

/-- A text is a row of tokens, with no space between them. -/
inductive IsRow : List Char → List Token → Prop
  | nil : IsRow [] []
  | mark {c : Char} {token : Token} {rest : List Char} {words : List Token}
      (h : mark? c = some token) (hrest : IsRow rest words) : IsRow (c :: rest) (token :: words)
  | scalar {c : Char} {text rest : List Char} {value : Json} {words : List Token}
      (hspace : isSpace c = false) (hmark : mark? c = none)
      (h : scalar? (c :: text) = some (value, rest)) (hshort : rest.length ≤ text.length)
      (hrest : IsRow rest words) : IsRow (c :: text) (.scalar value :: words)

theorem isSpace_of_mark? {c : Char} {token : Token} (h : mark? c = some token) :
    isSpace c = false := by
  unfold mark? at h
  split at h
  all_goals first | rfl | cases h

/-- No token takes more fuel than it has characters. -/
theorem IsRow.tokensWithin_eq {text : List Char} {words : List Token} (h : IsRow text words)
    {fuel : Nat} (hfuel : text.length ≤ fuel) : tokensWithin fuel text = words := by
  induction h generalizing fuel with
  | nil => cases fuel <;> rfl
  | mark h hrest ih =>
      obtain ⟨fuel, rfl⟩ := Nat.exists_eq_add_one_of_ne_zero (Nat.ne_zero_of_lt hfuel)
      simp only [tokensWithin, isSpace_of_mark? h, h, Bool.false_eq_true, if_false]
      rw [ih (Nat.le_of_succ_le_succ hfuel)]
  | scalar hspace hmark h hshort hrest ih =>
      obtain ⟨fuel, rfl⟩ := Nat.exists_eq_add_one_of_ne_zero (Nat.ne_zero_of_lt hfuel)
      simp only [tokensWithin, hspace, hmark, h, Bool.false_eq_true, if_false]
      rw [ih (Nat.le_trans hshort (Nat.le_of_succ_le_succ hfuel))]

theorem IsRow.tokens_eq {text : List Char} {words : List Token} (h : IsRow text words) :
    tokens text = words :=
  h.tokensWithin_eq (Nat.le_refl _)

/-- A text is a row of tokens in front of every row that does not lengthen
    it. -/
def IsRowBefore (text : List Char) (words : List Token) : Prop :=
  ∀ rest others, IsBoundary rest → IsRow rest others → IsRow (text ++ rest) (words ++ others)

/-- A text is read as a value. -/
structure IsReadAs (text : List Char) (v : Json) (words : List Token) : Prop where
  row : IsRowBefore text words
  builds : ∀ stack rest, build .value stack (words ++ rest) = build (.next v) stack rest
  isFirst : ∀ stack rest, build .firstItem (.array [] :: stack) (words ++ rest)
    = build .value (.array [] :: stack) (words ++ rest)

theorem isReadAs_scalar {c : Char} {text : List Char} {v : Json} (hspace : isSpace c = false)
    (hmark : mark? c = none)
    (h : ∀ rest, IsBoundary rest → scalar? (c :: (text ++ rest)) = some (v, rest)) :
    IsReadAs (c :: text) v [.scalar v] where
  row rest others hrest hothers := by
    refine .scalar hspace hmark (h rest hrest) ?_ hothers
    show rest.length ≤ (text ++ rest).length
    rw [List.length_append]
    exact Nat.le_add_left _ _
  builds _ _ := rfl
  isFirst _ _ := rfl

theorem isReadAs_text (s : String) :
    IsReadAs (printString s).toList (.text s) [.scalar (.text s)] := by
  rw [toList_printString]
  refine isReadAs_scalar rfl rfl fun rest _ => ?_
  have hread := scalar?_printString s rest
  rwa [toList_printString] at hread

theorem isReadAs_integer {n : Int} (h : IsInRange n) :
    IsReadAs (printNumber (.integer n)).toList (.number (.integer n))
      [.scalar (.number (.integer n))] := by
  obtain ⟨c, chars, hchars, ⟨hspace, hmark, ht, hf, hn, hquote⟩, hread⟩ := exists_printNumber h
  rw [hchars]
  refine isReadAs_scalar hspace hmark fun rest hrest => ?_
  unfold scalar?
  split
  next heq => exact absurd (List.cons.inj heq).1 ht
  next heq => exact absurd (List.cons.inj heq).1 hf
  next heq => exact absurd (List.cons.inj heq).1 hn
  next heq => exact absurd (List.cons.inj heq).1 hquote
  next =>
    rw [hread rest hrest]
    rfl

/-! ## Containers -/

theorem isBoundary_mark {c : Char} {token : Token} (h : mark? c = some token) (rest : List Char) :
    IsBoundary (c :: rest) := by
  intro other hother
  cases hother
  rw [h]
  rfl

theorem IsRowBefore.append_mark {text : List Char} {words : List Token} {c : Char} {token : Token}
    {rest : List Char} {others : List Token} (hrow : IsRowBefore text words)
    (h : mark? c = some token) (hothers : IsRow rest others) :
    IsRow (text ++ c :: rest) (words ++ token :: others) :=
  hrow _ _ (isBoundary_mark h rest) (.mark h hothers)

/-- A text is read as the items of an array. -/
structure AreItems (text : List Char) (items : List Json) (words : List Token) : Prop where
  row : IsRowBefore text words
  builds : ∀ before stack rest, build .value (.array before :: stack) (words ++ .endArray :: rest)
    = build (.next (.array (before.reverse ++ items))) stack rest
  isFirst : ∀ stack rest, build .firstItem (.array [] :: stack) (words ++ rest)
    = build .value (.array [] :: stack) (words ++ rest)

theorem IsReadAs.areItems {text : List Char} {v : Json} {words : List Token}
    (h : IsReadAs text v words) : AreItems text [v] words where
  row := h.row
  builds before stack rest := by
    rw [h.builds]
    show build (.next (.array (v :: before).reverse)) stack rest = _
    rw [List.reverse_cons]
  isFirst := h.isFirst

theorem IsReadAs.areItems_cons {text others : List Char} {v : Json} {items : List Json}
    {words words' : List Token} (h : IsReadAs text v words)
    (hitems : AreItems others items words') :
    AreItems (text ++ ',' :: others) (v :: items) (words ++ .comma :: words') where
  row rest tokens hrest htokens := by
    rw [List.append_assoc, List.append_assoc]
    exact h.row.append_mark rfl (hitems.row rest tokens hrest htokens)
  builds before stack rest := by
    rw [List.append_assoc, h.builds]
    show build .value (.array (v :: before) :: stack) (words' ++ .endArray :: rest) = _
    rw [hitems.builds, List.reverse_cons, List.append_assoc]
    rfl
  isFirst stack rest := by
    rw [List.append_assoc]
    exact h.isFirst _ _

theorem AreItems.isReadAs {text : List Char} {items : List Json} {words : List Token}
    (h : AreItems text items words) :
    IsReadAs ('[' :: (text ++ [']'])) (.array items) (.beginArray :: (words ++ [.endArray])) where
  row rest others hrest hothers := by
    show IsRow ('[' :: (text ++ [']'] ++ rest)) (.beginArray :: (words ++ [.endArray] ++ others))
    rw [List.append_assoc, List.append_assoc]
    exact .mark rfl (h.row.append_mark rfl hothers)
  builds stack rest := by
    show build .firstItem (.array [] :: stack) (words ++ [.endArray] ++ rest) = _
    rw [List.append_assoc, h.isFirst]
    exact h.builds [] stack rest
  isFirst _ _ := rfl

theorem isReadAs_noItems : IsReadAs ['[', ']'] (.array []) [.beginArray, .endArray] where
  row _ _ _ hothers := .mark rfl (.mark rfl hothers)
  builds _ _ := rfl
  isFirst _ _ := rfl

/-- A text is read as the fields of an object. -/
structure AreFields (text : List Char) (fields : List (JsonText × Json)) (words : List Token) :
    Prop where
  row : IsRowBefore text words
  builds : ∀ before isFirst stack rest,
    build (.key before isFirst) stack (words ++ .endObject :: rest)
      = build (.next (.object (before.reverse ++ fields))) stack rest

/-- The text of a key, the colon and the text of a value. -/
def fieldText (key : String) (v : List Char) : List Char := (printString key).toList ++ ':' :: v

theorem build_field (key : String) (before : List (JsonText × Json)) (isFirst : Bool)
    (stack : List Frame) (rest : List Token) :
    build (.key before isFirst) stack (.scalar (.text key) :: .colon :: rest)
      = build .value (.object before (some key) :: stack) rest := by
  cases isFirst <;> rfl

theorem IsReadAs.row_field {text : List Char} {v : Json} {words : List Token}
    (h : IsReadAs text v words) (key : String) :
    IsRowBefore (fieldText key text) (.scalar (.text key) :: .colon :: words) := by
  intro rest others hrest hothers
  rw [fieldText, List.append_assoc]
  exact (isReadAs_text key).row.append_mark rfl (h.row rest others hrest hothers)

theorem IsReadAs.areFields {text : List Char} {v : Json} {words : List Token}
    (h : IsReadAs text v words) (key : String) :
    AreFields (fieldText key text) [(some key, v)] (.scalar (.text key) :: .colon :: words) where
  row := h.row_field key
  builds before isFirst stack rest := by
    show build (.key before isFirst) stack (_ :: .colon :: (words ++ .endObject :: rest)) = _
    rw [build_field, h.builds]
    show build (.next (.object ((some key, v) :: before).reverse)) stack rest = _
    rw [List.reverse_cons]

theorem IsReadAs.areFields_cons {text others : List Char} {v : Json}
    {fields : List (JsonText × Json)} {words words' : List Token} (h : IsReadAs text v words)
    (key : String) (hfields : AreFields others fields words') :
    AreFields (fieldText key text ++ ',' :: others) ((some key, v) :: fields)
      (.scalar (.text key) :: .colon :: words ++ .comma :: words') where
  row rest tokens hrest htokens := by
    rw [List.append_assoc, List.append_assoc]
    exact (h.row_field key).append_mark rfl (hfields.row rest tokens hrest htokens)
  builds before isFirst stack rest := by
    rw [List.append_assoc]
    show build (.key before isFirst) stack
      (_ :: .colon :: (words ++ .comma :: (words' ++ .endObject :: rest))) = _
    rw [build_field, h.builds]
    show build (.key ((some key, v) :: before) false) stack (words' ++ .endObject :: rest) = _
    rw [hfields.builds, List.reverse_cons, List.append_assoc]
    rfl

theorem AreFields.isReadAs {text : List Char} {fields : List (JsonText × Json)}
    {words : List Token} (h : AreFields text fields words) :
    IsReadAs ('\x7b' :: (text ++ ['\x7d'])) (.object fields)
      (.beginObject :: (words ++ [.endObject])) where
  row rest others hrest hothers := by
    show IsRow ('\x7b' :: (text ++ ['\x7d'] ++ rest))
      (.beginObject :: (words ++ [.endObject] ++ others))
    rw [List.append_assoc, List.append_assoc]
    exact .mark rfl (h.row.append_mark rfl hothers)
  builds stack rest := by
    show build (.key [] true) stack (words ++ [.endObject] ++ rest) = _
    rw [List.append_assoc]
    exact h.builds [] true stack rest
  isFirst _ _ := rfl

theorem isReadAs_noFields :
    IsReadAs ['\x7b', '\x7d'] (.object []) [.beginObject, .endObject] where
  row _ _ _ hothers := .mark rfl (.mark rfl hothers)
  builds _ _ := rfl
  isFirst _ _ := rfl

/-! ## Values -/

/-- A value that can be told from its text: every string is a text, and
    every number an integer that a parser keeps. -/
inductive IsExact : Json → Prop
  | null : IsExact .null
  | bool (value : Bool) : IsExact (.bool value)
  | integer {n : Int} (h : IsInRange n) : IsExact (.number (.integer n))
  | text (s : String) : IsExact (.text s)
  | array {items : List Json} (h : ∀ v ∈ items, IsExact v) : IsExact (.array items)
  | record {fields : List (String × Json)} (h : ∀ field ∈ fields, IsExact field.2) :
      IsExact (.record fields)

theorem isExact_nat {n : Nat} (h : n < UInt64.size) : IsExact (.nat n) :=
  .integer ⟨by omega, Int.ofNat_lt.mpr h⟩

theorem isExact_uint32 (n : UInt32) : IsExact (.nat n.toNat) :=
  isExact_nat (Nat.lt_trans n.toNat_lt_size (by decide))

theorem exists_areItems {v : Json} {items : List Json}
    (h : ∀ w ∈ v :: items, ∃ words, IsReadAs (print w).toList w words) :
    ∃ words, AreItems (printItems "" (v :: items)).toList (v :: items) words := by
  induction items generalizing v with
  | nil =>
      obtain ⟨words, hv⟩ := h v List.mem_cons_self
      exact ⟨words, hv.areItems⟩
  | cons w items ih =>
      obtain ⟨⟨words, hv⟩, hrest⟩ := List.forall_mem_cons.mp h
      obtain ⟨words', hitems⟩ := ih hrest
      have htext : (printItems "" (v :: w :: items)).toList
          = (print v).toList ++ ',' :: (printItems "" (w :: items)).toList := by
        rw [printItems, printItems_eq, String.toList_append, String.toList_append,
          List.append_assoc]
        rfl
      rw [htext]
      exact ⟨_, hv.areItems_cons hitems⟩

theorem toList_printField (key : String) (v : Json) :
    (printOnto ("" ++ printString key ++ ":") v).toList = fieldText key (print v).toList := by
  rw [printOnto_eq, String.empty_append, String.toList_append, String.toList_append, fieldText,
    List.append_assoc]
  rfl

theorem exists_areFields {field : String × Json} {fields : List (String × Json)}
    (h : ∀ x ∈ field :: fields, ∃ words, IsReadAs (print x.2).toList x.2 words) :
    ∃ words, AreFields
      (printFields "" ((field :: fields).map fun x => (some x.1, x.2))).toList
      ((field :: fields).map fun x => (some x.1, x.2)) words := by
  induction fields generalizing field with
  | nil =>
      obtain ⟨words, hv⟩ := h field List.mem_cons_self
      have htext : (printFields "" ([field].map fun x => (some x.1, x.2))).toList
          = fieldText field.1 (print field.2).toList := toList_printField field.1 field.2
      rw [htext]
      exact ⟨_, hv.areFields field.1⟩
  | cons other fields ih =>
      obtain ⟨⟨words, hv⟩, hrest⟩ := List.forall_mem_cons.mp h
      obtain ⟨words', hfields⟩ := ih hrest
      have htext : (printFields "" ((field :: other :: fields).map fun x => (some x.1, x.2))).toList
          = fieldText field.1 (print field.2).toList ++ ','
            :: (printFields "" ((other :: fields).map fun x => (some x.1, x.2))).toList := by
        rw [List.map_cons, List.map_cons, printFields, printFields_eq, String.toList_append,
          String.toList_append, Option.getD_some, toList_printField, List.append_assoc]
        rfl
      rw [htext]
      exact ⟨_, hv.areFields_cons field.1 hfields⟩

/-- An exact value is read from its text. -/
theorem IsExact.exists_isReadAs {v : Json} (h : IsExact v) :
    ∃ words, IsReadAs (print v).toList v words := by
  induction h with
  | null => exact ⟨_, isReadAs_scalar rfl rfl fun _ _ => rfl⟩
  | bool value =>
      cases value
      · exact ⟨_, isReadAs_scalar rfl rfl fun _ _ => rfl⟩
      · exact ⟨_, isReadAs_scalar rfl rfl fun _ _ => rfl⟩
  | integer h =>
      rw [print, printOnto, String.empty_append]
      exact ⟨_, isReadAs_integer h⟩
  | text s =>
      rw [Json.text, print, printOnto, String.empty_append]
      exact ⟨_, isReadAs_text s⟩
  | @array items h ih =>
      cases items with
      | nil => exact ⟨_, isReadAs_noItems⟩
      | cons v items =>
          obtain ⟨words, hitems⟩ := exists_areItems ih
          have htext : (print (.array (v :: items))).toList
              = '[' :: ((printItems "" (v :: items)).toList ++ [']']) := by
            rw [print, printOnto, printItems_eq, String.toList_append, String.toList_append]
            rfl
          rw [htext]
          exact ⟨_, hitems.isReadAs⟩
  | @record fields h ih =>
      cases fields with
      | nil => exact ⟨_, isReadAs_noFields⟩
      | cons field fields =>
          obtain ⟨words, hfields⟩ := exists_areFields ih
          have htext : (print (.record (field :: fields))).toList = '\x7b' ::
              ((printFields "" ((field :: fields).map fun x => (some x.1, x.2))).toList
                ++ ['\x7d']) := by
            rw [Json.record, print, printOnto, printFields_eq, String.toList_append,
              String.toList_append]
            rfl
          rw [htext]
          exact ⟨_, hfields.isReadAs⟩

/-- **What is printed is read back**, and nothing follows it. -/
theorem parse_print {v : Json} (h : IsExact v) : parse (print v) = ⟨v, false⟩ := by
  obtain ⟨words, hread⟩ := h.exists_isReadAs
  have hrow := hread.row [] [] (fun c hc => by cases hc) .nil
  rw [List.append_nil, List.append_nil] at hrow
  have hbuilds := hread.builds [] []
  rw [List.append_nil] at hbuilds
  rw [parse, hrow.tokens_eq, hbuilds]
  rfl

/-- Printed data is read off its value. -/
theorem decode_print {α : Type} {v : Json} (h : IsExact v) (shape : Shape α) :
    decode shape (print v) = shape maximalDepth v := by
  rw [decode, parse_print h]
  show (shape maximalDepth v >>= pure) = _
  exact bind_pure _

end BridgeGuardian.Json
