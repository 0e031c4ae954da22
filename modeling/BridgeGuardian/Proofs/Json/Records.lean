import BridgeGuardian.Json.Shape
import Mathlib.Data.List.Nodup

/-! # Records in any order — fields are found wherever they stand

    A record is gone through once, and then each field is looked up by its
    name.  So the fields may be permuted, as long as no name is repeated;
    a tag may stand anywhere among them, since the others are understood as
    a whole before the tag is known. -/

namespace BridgeGuardian.Json.Shape

variable {α : Type}

/-! ## Parts -/

theorem text_text (s : String) (depth : Nat) : text depth (.text s) = .ok s := rfl

theorem integer_nat {low high : Int} {n : Nat} (hlow : low ≤ n) (hhigh : n ≤ high) (depth : Nat) :
    integer low high depth (.nat n) = .ok (n : Int) := if_pos ⟨hlow, hhigh⟩

theorem uint8_toNat (n : UInt8) (depth : Nat) : uint8 depth (.nat n.toNat) = .ok n := by
  have hn : n.toNat < 256 := n.toNat_lt_size
  rw [uint8, integer_nat (by omega) (by simp [UInt8.size]; omega)]
  simp [Except.map]

theorem uint32_toNat (n : UInt32) (depth : Nat) : uint32 depth (.nat n.toNat) = .ok n := by
  have hn : n.toNat < 4294967296 := n.toNat_lt_size
  rw [uint32, integer_nat (by omega) (by simp [UInt32.size]; omega)]
  simp [Except.map]

theorem uint64_toNat (n : UInt64) (depth : Nat) : uint64 depth (.nat n.toNat) = .ok n := by
  have hn : n.toNat < 18446744073709551616 := n.toNat_lt_size
  rw [uint64, integer_nat (by omega) (by simp [UInt64.size]; omega)]
  simp [Except.map]

theorem refine_of_eq_some {β : Type} {shape : Shape α} {f : α → Option β} {depth : Nat} {v : Json}
    {a : α} {b : β} (h : shape depth v = .ok a) (hf : f a = some b) :
    refine shape f depth v = .ok b := by
  rw [refine, h]
  simp only [bind, Except.bind, hf]
  rfl

/-- Values that are read one by one are read as a list. -/
theorem list_map {item : Shape α} {toJson : α → Json} {depth : Nat}
    (h : ∀ a, item depth (toJson a) = .ok a) (as : List α) :
    list item (depth + 1) (.array (as.map toJson)) = .ok as := by
  show (as.map toJson).mapM (item depth) = .ok as
  induction as with
  | nil => rfl
  | cons a as ih =>
      rw [List.map_cons, List.mapM_cons, h, ih]
      rfl

/-! ## Looking fields up -/

/-- The fields of an object whose keys are texts. -/
def keyed (fields : List (String × Json)) : List (JsonText × Json) :=
  fields.map fun field => (some field.1, field.2)

/-- No name is given twice. -/
def HasDistinctNames (fields : List (String × Json)) : Prop := (fields.map Prod.fst).Nodup

theorem HasDistinctNames.perm {fields others : List (String × Json)} (h : HasDistinctNames fields)
    (hperm : others.Perm fields) : HasDistinctNames others :=
  (hperm.map Prod.fst).nodup_iff.mpr h

theorem HasDistinctNames.eq_of_name_eq {fields : List (String × Json)} {x y : String × Json}
    (h : HasDistinctNames fields) (hx : x ∈ fields) (hy : y ∈ fields) (hname : x.1 = y.1) :
    x = y :=
  List.inj_on_of_nodup_map h hx hy hname

/-- A field is found by its name. -/
theorem Found.get?_of_mem {fields : List (String × Json)} {field : String × Json}
    (hnames : HasDistinctNames fields) (hmem : field ∈ fields) (depth : Nat) :
    Found.get? ⟨depth, keyed fields⟩ field.1 = some field.2 := by
  induction fields with
  | nil => exact absurd hmem List.not_mem_nil
  | cons first fields ih =>
      have hrest : HasDistinctNames fields := (List.nodup_cons.mp hnames).2
      by_cases hname : first.1 = field.1
      · -- the name is not given again
        obtain rfl := hnames.eq_of_name_eq List.mem_cons_self hmem hname
        simp [Found.get?, keyed]
      · have hother : field ∈ fields := by
          rcases List.mem_cons.mp hmem with rfl | hmem
          · exact absurd rfl hname
          · exact hmem
        rw [← ih hrest hother]
        simp [Found.get?, keyed, hname]

/-- What is found for a name is a field of that name. -/
theorem Found.mem_of_get? {fields : List (String × Json)} {name : String} {v : Json} {depth : Nat}
    (h : Found.get? ⟨depth, keyed fields⟩ name = some v) : (name, v) ∈ fields := by
  obtain ⟨field, hfield, rfl⟩ := Option.map_eq_some_iff.mp h
  obtain ⟨field', hmem, rfl⟩ := List.mem_map.mp (List.mem_of_find?_eq_some hfield)
  obtain rfl : field'.1 = name := by simpa using List.find?_some hfield
  exact hmem

/-- What a field is read as depends on its value alone. -/
theorem Found.required_eq_getD (found : Found) (name : String) (shape : Shape α) :
    found.required name shape
      = ((found.get? name).map (shape found.depth)).getD (.error .mismatch) := by
  rw [required]
  cases found.get? name <;> rfl

theorem Found.withDefault_eq_getD (found : Found) (name : String) (shape : Shape α)
    (default : α) :
    found.withDefault name shape default
      = ((found.get? name).map (shape found.depth)).getD (.ok default) := by
  rw [withDefault]
  cases found.get? name <;> rfl

theorem Found.required_of_mem {fields : List (String × Json)} {name : String} {v : Json}
    (hnames : HasDistinctNames fields) (hmem : (name, v) ∈ fields) (depth : Nat)
    (shape : Shape α) :
    Found.required ⟨depth, keyed fields⟩ name shape = shape depth v := by
  rw [Found.required, Found.get?_of_mem hnames hmem]

theorem Found.withDefault_of_mem {fields : List (String × Json)} {name : String} {v : Json}
    (hnames : HasDistinctNames fields) (hmem : (name, v) ∈ fields) (depth : Nat)
    (shape : Shape α) (default : α) :
    Found.withDefault ⟨depth, keyed fields⟩ name shape default = shape depth v := by
  rw [Found.withDefault, Found.get?_of_mem hnames hmem]

/-! ## Records -/

/-- A field fills a slot: it has its name and passes its check. -/
def Fills (slots : List Slot) (depth : Nat) (field : String × Json) : Prop :=
  ∃ s, slots.find? (fun s => s.name == field.1) = some s ∧ s.check depth field.2 = .ok ()

theorem walk_of_fills {slots : List Slot} {depth : Nat} {seen : List String}
    {fields : List (String × Json)} (hnames : HasDistinctNames fields)
    (hnew : ∀ field ∈ fields, field.1 ∉ seen) (h : ∀ field ∈ fields, Fills slots depth field) :
    walk slots depth seen (keyed fields) = .ok () := by
  induction fields generalizing seen with
  | nil => rfl
  | cons field fields ih =>
      obtain ⟨hfirst, hrest⟩ := List.nodup_cons.mp hnames
      obtain ⟨hunseen, hnew⟩ := List.forall_mem_cons.mp hnew
      obtain ⟨⟨s, hfind, hcheck⟩, h⟩ := List.forall_mem_cons.mp h
      have hcontains : seen.contains field.1 = false := by
        simpa using hunseen
      show walk slots depth seen ((some field.1, field.2) :: keyed fields) = .ok ()
      rw [walk, hfind]
      simp only [hcontains, Bool.false_eq_true, if_false, hcheck]
      refine ih hrest ?_ h
      intro other hother hmem
      rcases List.mem_cons.mp hmem with hsame | hmem
      · exact hfirst (hsame ▸ List.mem_map_of_mem hother)
      · exact hnew other hother hmem

/-- A record whose fields fill its slots is filled, in whatever order they
    are written. -/
theorem record_of_perm {slots : List Slot} {fill : Found → Except Fault α} {depth : Nat}
    {fields listed : List (String × Json)} (hnames : HasDistinctNames listed)
    (h : ∀ field ∈ listed, Fills slots depth field) (hperm : fields.Perm listed) :
    record slots fill (depth + 1) (.record fields) = fill ⟨depth, keyed fields⟩ := by
  show (walk slots depth [] (keyed fields) >>= fun _ => fill ⟨depth, keyed fields⟩) = _
  rw [walk_of_fills (hnames.perm hperm) (fun _ _ => List.not_mem_nil)
    fun field hfield => h field (hperm.mem_iff.mp hfield)]
  rfl

theorem fills_slot {slots : List Slot} {shape : Shape α} {name : String} {depth : Nat} {v : Json}
    {a : α} (hslot : slots.find? (fun s => s.name == name) = some (slot name shape))
    (h : shape depth v = .ok a) : Fills slots depth (name, v) := by
  refine ⟨slot name shape, hslot, ?_⟩
  show (shape depth v).map (fun _ => ()) = .ok ()
  rw [h]
  rfl

section Few

variable {β γ δ : Type} {first second third : String} {depth : Nat} {u v w : Json} {a : α} {b : β}
variable {c : γ} {ofFirst : Shape α} {ofSecond : Shape β} {ofThird : Shape γ}
variable {fields : List (String × Json)}

theorem record_one (f : α → δ) (h₁ : ofFirst depth u = .ok a)
    (hfields : fields.Perm [(first, u)]) :
    record [slot first ofFirst] (fun found => do return f (← found.required first ofFirst))
      (depth + 1) (.record fields) = .ok (f a) := by
  have hnames : HasDistinctNames [(first, u)] := List.nodup_singleton _
  have hfills : ∀ field ∈ [(first, u)], Fills [slot first ofFirst] depth field :=
    List.forall_mem_singleton.mpr (fills_slot (by simp [slot]) h₁)
  rw [record_of_perm hnames hfills hfields,
    Found.required_of_mem (hnames.perm hfields) (v := u) (hfields.mem_iff.mpr (by simp)), h₁]
  rfl

theorem record_two (f : α → β → δ) (hne : first ≠ second) (h₁ : ofFirst depth u = .ok a)
    (h₂ : ofSecond depth v = .ok b) (hfields : fields.Perm [(first, u), (second, v)]) :
    record [slot first ofFirst, slot second ofSecond]
      (fun found => do
        return f (← found.required first ofFirst) (← found.required second ofSecond))
      (depth + 1) (.record fields) = .ok (f a b) := by
  have hnames : HasDistinctNames [(first, u), (second, v)] := by simp [HasDistinctNames, hne]
  have hfills : ∀ field ∈ [(first, u), (second, v)],
      Fills [slot first ofFirst, slot second ofSecond] depth field := by
    simp only [List.forall_mem_cons]
    exact ⟨fills_slot (by simp [slot]) h₁, fills_slot (by simp [slot, hne]) h₂,
      List.forall_mem_nil _⟩
  have hdistinct := hnames.perm hfields
  rw [record_of_perm hnames hfills hfields,
    Found.required_of_mem hdistinct (v := u) (hfields.mem_iff.mpr (by simp)),
    Found.required_of_mem hdistinct (v := v) (hfields.mem_iff.mpr (by simp)), h₁, h₂]
  rfl

theorem record_three (f : α → β → γ → δ) (h₁₂ : first ≠ second) (h₁₃ : first ≠ third)
    (h₂₃ : second ≠ third) (h₁ : ofFirst depth u = .ok a) (h₂ : ofSecond depth v = .ok b)
    (h₃ : ofThird depth w = .ok c)
    (hfields : fields.Perm [(first, u), (second, v), (third, w)]) :
    record [slot first ofFirst, slot second ofSecond, slot third ofThird]
      (fun found => do
        return f (← found.required first ofFirst) (← found.required second ofSecond)
          (← found.required third ofThird))
      (depth + 1) (.record fields) = .ok (f a b c) := by
  have hnames : HasDistinctNames [(first, u), (second, v), (third, w)] := by
    simp [HasDistinctNames, h₁₂, h₁₃, h₂₃]
  have hfills : ∀ field ∈ [(first, u), (second, v), (third, w)],
      Fills [slot first ofFirst, slot second ofSecond, slot third ofThird] depth field := by
    simp only [List.forall_mem_cons]
    exact ⟨fills_slot (by simp [slot]) h₁, fills_slot (by simp [slot, h₁₂]) h₂,
      fills_slot (by simp [slot, h₁₃, h₂₃]) h₃, List.forall_mem_nil _⟩
  have hdistinct := hnames.perm hfields
  rw [record_of_perm hnames hfills hfields,
    Found.required_of_mem hdistinct (v := u) (hfields.mem_iff.mpr (by simp)),
    Found.required_of_mem hdistinct (v := v) (hfields.mem_iff.mpr (by simp)),
    Found.required_of_mem hdistinct (v := w) (hfields.mem_iff.mpr (by simp)), h₁, h₂, h₃]
  rfl

end Few

/-! ## Choices -/

theorem itemsSound_of_forall {items : List Json} {depth : Nat}
    (h : ∀ v ∈ items, v.isSound depth = true) : itemsSound depth items = true := by
  induction items with
  | nil => rfl
  | cons v items ih =>
      obtain ⟨hv, hitems⟩ := List.forall_mem_cons.mp h
      rw [itemsSound, hv, ih hitems]
      rfl

theorem fieldsSound_of_forall {fields : List (String × Json)} {depth : Nat}
    (h : ∀ field ∈ fields, field.2.isSound depth = true) :
    fieldsSound depth (keyed fields) = true := by
  induction fields with
  | nil => rfl
  | cons field fields ih =>
      obtain ⟨hfield, hfields⟩ := List.forall_mem_cons.mp h
      show (true && field.2.isSound depth && fieldsSound depth (keyed fields)) = true
      rw [hfield, ih hfields]
      rfl

variable {κ : Type} {tagName tag : String} {kind? : String → Option κ} {kind : κ} {depth : Nat}

/-- Behind the tag, and without another one, the kind stays. -/
theorem walkTagged_of_tagged {fields : List (String × Json)} (hnone : ∀ x ∈ fields, x.1 ≠ tagName)
    (hsound : ∀ x ∈ fields, x.2.isSound depth = true) :
    walkTagged tagName kind? depth (some kind) (keyed fields) = .ok (some kind) := by
  induction fields with
  | nil => rfl
  | cons field fields ih =>
      obtain ⟨hname, hnone⟩ := List.forall_mem_cons.mp hnone
      obtain ⟨hfield, hsound⟩ := List.forall_mem_cons.mp hsound
      show walkTagged tagName kind? depth (some kind) ((some field.1, field.2) :: keyed fields) = _
      rw [walkTagged, if_neg hname, if_pos hfield]
      exact ih hnone hsound

/-- The tag is found wherever it stands. -/
theorem walkTagged_of_mem {fields : List (String × Json)} (hnames : HasDistinctNames fields)
    (htag : (tagName, .text tag) ∈ fields) (hkind : kind? tag = some kind)
    (hsound : ∀ x ∈ fields, x.1 ≠ tagName → x.2.isSound depth = true) :
    walkTagged tagName kind? depth none (keyed fields) = .ok (some kind) := by
  induction fields with
  | nil => exact absurd htag List.not_mem_nil
  | cons field fields ih =>
      obtain ⟨hfirst, hrest⟩ := List.nodup_cons.mp hnames
      obtain ⟨hfield, hothers⟩ := List.forall_mem_cons.mp hsound
      by_cases hname : field.1 = tagName
      · obtain rfl := hnames.eq_of_name_eq List.mem_cons_self htag hname
        have hnone : ∀ x ∈ fields, x.1 ≠ tagName :=
          fun x hx hsame => hfirst (List.mem_map.mpr ⟨x, hx, hsame⟩)
        show walkTagged tagName kind? depth none ((some tagName, .text tag) :: keyed fields) = _
        have hread : refine text kind? depth (.text tag) = .ok kind :=
          refine_of_eq_some rfl hkind
        rw [walkTagged, if_pos rfl]
        simp only [hread]
        exact walkTagged_of_tagged hnone fun x hx => hothers x hx (hnone x hx)
      · show walkTagged tagName kind? depth none ((some field.1, field.2) :: keyed fields) = _
        rw [walkTagged, if_neg hname, if_pos (hfield hname)]
        refine ih hrest ?_ hothers
        rcases List.mem_cons.mp htag with heq | hmem
        · exact absurd (congrArg Prod.fst heq).symm hname
        · exact hmem

/-- A tagged record is read as the record of its kind. -/
theorem tagged_of_mem {shapeOf : κ → Shape α} {fields : List (String × Json)} {a : α}
    (hnames : HasDistinctNames fields) (htag : (tagName, .text tag) ∈ fields)
    (hkind : kind? tag = some kind)
    (hsound : ∀ x ∈ fields, x.1 ≠ tagName → x.2.isSound depth = true)
    (h : shapeOf kind (depth + 1) (.record (fields.filter fun x => x.1 != tagName)) = .ok a) :
    tagged tagName kind? shapeOf (depth + 1) (.record fields) = .ok a := by
  have hothers : (keyed fields).filter (fun field => field.1 != some tagName)
      = keyed (fields.filter fun x => x.1 != tagName) := List.filter_map
  show (walkTagged tagName kind? depth none (keyed fields) >>= _) = _
  rw [walkTagged_of_mem hnames htag hkind hsound]
  show ((shapeOf kind (depth + 1) (.object ((keyed fields).filter _))).mapError _) = _
  rw [hothers]
  exact congrArg (Except.mapError _) h

end BridgeGuardian.Json.Shape
