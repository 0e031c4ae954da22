import BridgeGuardian.Proofs.Json.Records

/-! # Depth — what can be read is read the same with more room

    The depth that is left is looked at only where a container is opened, and
    a sound value opens no more of them than there is room for.  So a shape
    that is put together in the usual way reads a sound value as it would with
    more room: `isSteady_record` carries this from the fields of a record to
    the record. -/

namespace BridgeGuardian.Json

/-! ## Sound values -/

mutual

/-- A value that is sound stays so with more room. -/
theorem isSound_succ {depth : Nat} (v : Json) (h : v.isSound depth = true) :
    v.isSound (depth + 1) = true := by
  match v with
  | .null | .bool _ | .string (some _) => rfl
  | .number n => exact h
  | .string none | .broken => cases h
  | .array items =>
      rw [isSound, Bool.and_eq_true] at h
      obtain ⟨hroom, hitems⟩ := h
      cases depth with
      | zero => cases hroom
      | succ depth => exact itemsSound_succ items hitems
  | .object fields =>
      rw [isSound, Bool.and_eq_true] at h
      obtain ⟨hroom, hfields⟩ := h
      cases depth with
      | zero => cases hroom
      | succ depth => exact fieldsSound_succ fields hfields

theorem itemsSound_succ {depth : Nat} (items : List Json) (h : itemsSound depth items = true) :
    itemsSound (depth + 1) items = true := by
  match items with
  | [] => rfl
  | v :: rest =>
      rw [itemsSound, Bool.and_eq_true] at h
      rw [itemsSound, isSound_succ v h.1, itemsSound_succ rest h.2]
      rfl

theorem fieldsSound_succ {depth : Nat} (fields : List (JsonText × Json))
    (h : fieldsSound depth fields = true) : fieldsSound (depth + 1) fields = true := by
  match fields with
  | [] => rfl
  | (key, v) :: rest =>
      rw [fieldsSound, Bool.and_eq_true, Bool.and_eq_true] at h
      rw [fieldsSound, h.1.1, isSound_succ v h.1.2, fieldsSound_succ rest h.2]
      rfl

end

/-! ## Steady shapes -/

namespace Shape

/-- A shape reads a sound value as it would with more room. -/
def IsSteady {α : Type} (shape : Shape α) : Prop :=
  ∀ (depth : Nat) (v : Json), v.isSound depth = true → shape (depth + 1) v = shape depth v

section

variable {α : Type} {depth : Nat}

theorem isSteady_text : IsSteady text := by
  intro depth v _
  cases v with
  | string s => cases s <;> rfl
  | _ => rfl

theorem isSteady_int32 : IsSteady int32 := by
  intro depth v _
  cases v with
  | number n => cases n <;> rfl
  | _ => rfl

theorem isSteady_any : IsSteady any := by
  intro depth v h
  rw [any, any, if_pos h, if_pos (isSound_succ v h)]

theorem isSteady_list {item : Shape α} (hitem : IsSteady item) : IsSteady (list item) := by
  intro depth v h
  cases v with
  | array items =>
      rw [isSound, Bool.and_eq_true] at h
      obtain ⟨hroom, hitems⟩ := h
      cases depth with
      | zero => cases hroom
      | succ depth =>
          show items.mapM (item (depth + 1)) = items.mapM (item depth)
          clear hroom
          induction items with
          | nil => rfl
          | cons v items ih =>
              rw [Nat.add_sub_cancel, itemsSound, Bool.and_eq_true] at hitems
              rw [List.mapM_cons, List.mapM_cons, hitem depth v hitems.1, ih hitems.2]
  | _ => rfl

/-! ## Steady records -/

/-- A slot checks a sound value as it would with more room. -/
def Slot.IsSteady (s : Slot) : Prop :=
  ∀ (depth : Nat) (v : Json), v.isSound depth = true → s.check (depth + 1) v = s.check depth v

theorem isSteady_slot {shape : Shape α} (h : IsSteady shape) (name : String) :
    (slot name shape).IsSteady :=
  fun depth v hv => congrArg (Except.map fun _ => ()) (h depth v hv)

/-- The fields of a record are gone through as with more room. -/
theorem walk_succ {slots : List Slot} (hslots : ∀ s ∈ slots, s.IsSteady) {seen : List String}
    {fields : List (JsonText × Json)} (h : fieldsSound depth fields = true) :
    walk slots (depth + 1) seen fields = walk slots depth seen fields := by
  induction fields generalizing seen with
  | nil => rfl
  | cons field fields ih =>
      obtain ⟨key, v⟩ := field
      rw [fieldsSound, Bool.and_eq_true, Bool.and_eq_true] at h
      obtain ⟨⟨hkey, hv⟩, hrest⟩ := h
      cases key with
      | none => cases hkey
      | some key =>
          rw [walk, walk]
          cases hslot : slots.find? fun s => s.name == key with
          | none =>
              dsimp only
              rw [ih hrest]
          | some s =>
              dsimp only
              rw [hslots s (List.mem_of_find?_eq_some hslot) depth v hv, ih hrest]

theorem fieldsSound_named (slots : List Slot) {items : List Json}
    (h : itemsSound depth items = true) : fieldsSound depth (named slots items) = true := by
  induction items generalizing slots with
  | nil =>
      rw [named, List.zipWith_nil_right]
      rfl
  | cons v items ih =>
      rw [itemsSound, Bool.and_eq_true] at h
      cases slots with
      | nil => rfl
      | cons s slots =>
          show fieldsSound depth ((some s.name, v) :: named slots items) = true
          rw [fieldsSound, h.1, ih slots h.2]
          rfl

/-- A field that is found is sound. -/
theorem isSound_of_get? {fields : List (JsonText × Json)} {name : String} {v : Json}
    (h : fieldsSound depth fields = true)
    (hfound : Found.get? ⟨depth, fields⟩ name = some v) : v.isSound depth = true := by
  induction fields with
  | nil => cases hfound
  | cons field fields ih =>
      rw [fieldsSound, Bool.and_eq_true, Bool.and_eq_true] at h
      rw [Found.get?, List.find?_cons] at hfound
      split at hfound
      · cases hfound
        exact h.1.2
      · exact ih h.2 hfound

/-- What is found is read as with more room. -/
theorem map_get?_succ {shape : Shape α} (hshape : IsSteady shape)
    {fields : List (JsonText × Json)} (h : fieldsSound depth fields = true) (name : String) :
    (Found.get? ⟨depth + 1, fields⟩ name).map (shape (depth + 1))
      = (Found.get? ⟨depth, fields⟩ name).map (shape depth) := by
  show (Found.get? ⟨depth, fields⟩ name).map (shape (depth + 1)) = _
  cases hfound : Found.get? ⟨depth, fields⟩ name with
  | none => rfl
  | some v => exact congrArg some (hshape depth v (isSound_of_get? h hfound))

theorem required_succ {shape : Shape α} (hshape : IsSteady shape)
    {fields : List (JsonText × Json)} (h : fieldsSound depth fields = true) (name : String) :
    Found.required ⟨depth + 1, fields⟩ name shape = Found.required ⟨depth, fields⟩ name shape := by
  rw [Found.required_eq_getD, Found.required_eq_getD, map_get?_succ hshape h]

theorem withDefault_succ {shape : Shape α} (hshape : IsSteady shape)
    {fields : List (JsonText × Json)} (h : fieldsSound depth fields = true) (name : String)
    (default : α) :
    Found.withDefault ⟨depth + 1, fields⟩ name shape default
      = Found.withDefault ⟨depth, fields⟩ name shape default := by
  rw [Found.withDefault_eq_getD, Found.withDefault_eq_getD, map_get?_succ hshape h]

/-- A record whose fields are read as with more room is so itself. -/
theorem isSteady_record {slots : List Slot} {fill : Found → Except Fault α}
    (hslots : ∀ s ∈ slots, s.IsSteady)
    (hfill : ∀ depth fields, fieldsSound depth fields = true →
      fill ⟨depth + 1, fields⟩ = fill ⟨depth, fields⟩) :
    IsSteady (record slots fill) := by
  intro depth v h
  cases v with
  | object fields =>
      rw [isSound, Bool.and_eq_true] at h
      obtain ⟨hroom, hfields⟩ := h
      cases depth with
      | zero => cases hroom
      | succ depth =>
          rw [Nat.add_sub_cancel] at hfields
          rw [record, record, walk_succ hslots hfields, hfill depth fields hfields]
  | array items =>
      rw [isSound, Bool.and_eq_true] at h
      obtain ⟨hroom, hitems⟩ := h
      cases depth with
      | zero => cases hroom
      | succ depth =>
          have hfields := fieldsSound_named slots hitems
          rw [Nat.add_sub_cancel] at hfields
          simp only [record]
          rw [walk_succ hslots hfields, hfill depth _ hfields]
  | _ => cases depth <;> rfl

end

end Shape

end BridgeGuardian.Json
