import BridgeGuardian.Proofs.Json.Records
import BridgeGuardian.Proofs.Outcome

/-! # Places — one field of a record, and all that stands around it

    The fields of a record are checked one by one and then looked up by their
    names, so a value acts only through the slot of its name: a value that
    checks and reads alike can take its place, wherever that is and whatever
    stands around it.  In an array the name is given by the position, which
    `named_append` turns into a field among fields. -/

namespace BridgeGuardian.Json

open Shape

/-- A place for a value in a record, with what stands in front of it and
    behind it. -/
inductive Place
  | inObject (front back : List (JsonText × Json))
  | inArray (front back : List Json)

namespace Place

/-- A record with a value at the place. -/
def put (name : String) (v : Json) : Place → Json
  | .inObject front back => .object (front ++ (some name, v) :: back)
  | .inArray front back => .array (front ++ v :: back)

/-- In an array the place is that of the name among the slots. -/
def IsFor (slots : List Slot) (name : String) : Place → Prop
  | .inObject _ _ => True
  | .inArray front _ => (slots.map Slot.name)[front.length]? = some name

/-- The fields of a record with a value at the place. -/
def fieldsWith (slots : List Slot) (name : String) (v : Json) : Place → List (JsonText × Json)
  | .inObject front back => front ++ (some name, v) :: back
  | .inArray front back =>
      named slots front ++ (some name, v) :: named (slots.drop (front.length + 1)) back

/-- An array has no more items than there are slots. -/
def HasRoom (slots : List Slot) : Place → Prop
  | .inObject _ _ => True
  | .inArray front back => front.length + (back.length + 1) ≤ slots.length

end Place

namespace Shape

section

variable {α : Type} {slots : List Slot} {s : Slot} {name : String} {seen : List String}
  {depth : Nat} {front back fields : List (JsonText × Json)} {v w : Json}

/-! ## Checked fields -/

/-- The first field is unknown and understood, or it is known, new and passes
    its check. -/
theorem walk_cons_eq_ok_iff {key : String} :
    walk slots depth seen ((some key, v) :: fields) = .ok () ↔
      ((slots.find? fun s => s.name == key) = none ∧ v.isComplete = true ∧
        walk slots depth seen fields = .ok ()) ∨
      ∃ s, (slots.find? fun s => s.name == key) = some s ∧ key ∉ seen ∧
        s.check depth v = .ok () ∧ walk slots depth (key :: seen) fields = .ok () := by
  rw [walk]
  cases slots.find? fun s => s.name == key with
  | none =>
      dsimp only
      cases v.isComplete <;> simp
  | some s =>
      by_cases hseen : key ∈ seen
      · simp [hseen]
      · cases hcheck : s.check depth v with
        | error fault => simp [hseen, hcheck, bind, Except.bind]
        | ok checked => simp [hseen, hcheck, bind, Except.bind]

/-- A known field that has been seen does not come again. -/
theorem ne_of_walk (hslot : (slots.find? fun s => s.name == name) = some s) (hseen : name ∈ seen)
    (h : walk slots depth seen fields = .ok ()) : ∀ field ∈ fields, field.1 ≠ some name := by
  induction fields generalizing seen with
  | nil => exact List.forall_mem_nil _
  | cons field fields ih =>
      obtain ⟨key, v⟩ := field
      cases key with
      | none => cases h
      | some key =>
          rw [List.forall_mem_cons, ne_eq, Option.some_inj]
          obtain ⟨hunknown, -, hrest⟩ | ⟨other, -, hnew, -, hrest⟩ := walk_cons_eq_ok_iff.mp h
          · refine ⟨?_, ih hseen hrest⟩
            rintro rfl
            rw [hslot] at hunknown
            cases hunknown
          · refine ⟨?_, ih (List.mem_cons_of_mem _ hseen) hrest⟩
            rintro rfl
            exact hnew hseen

/-- A known field passes its check, and it stands in front of none of its
    name. -/
theorem of_walk_append (hslot : (slots.find? fun s => s.name == name) = some s)
    (h : walk slots depth seen (front ++ (some name, v) :: back) = .ok ()) :
    s.check depth v = .ok () ∧ ∀ field ∈ front, field.1 ≠ some name := by
  induction front generalizing seen with
  | nil =>
      obtain ⟨hunknown, -⟩ | ⟨other, hother, -, hcheck, -⟩ := walk_cons_eq_ok_iff.mp h
      · rw [hslot] at hunknown
        cases hunknown
      · rw [hslot] at hother
        cases hother
        exact ⟨hcheck, List.forall_mem_nil _⟩
  | cons field front ih =>
      obtain ⟨key, u⟩ := field
      cases key with
      | none => cases h
      | some key =>
          rw [List.forall_mem_cons, ne_eq, Option.some_inj]
          obtain ⟨hunknown, -, hrest⟩ | ⟨other, hother, -, -, hrest⟩ := walk_cons_eq_ok_iff.mp h
          · obtain ⟨hcheck, hfront⟩ := ih hrest
            refine ⟨hcheck, ?_, hfront⟩
            rintro rfl
            rw [hslot] at hunknown
            cases hunknown
          · obtain ⟨hcheck, hfront⟩ := ih hrest
            refine ⟨hcheck, ?_, hfront⟩
            rintro rfl
            -- the name would have been seen
            exact ne_of_walk hother List.mem_cons_self hrest _
              (List.mem_append_right _ List.mem_cons_self) rfl

/-- Values that are checked alike are gone through alike. -/
theorem walk_append_congr (hslot : (slots.find? fun s => s.name == name) = some s)
    (hcheck : s.check depth v = s.check depth w) :
    walk slots depth seen (front ++ (some name, v) :: back)
      = walk slots depth seen (front ++ (some name, w) :: back) := by
  induction front generalizing seen with
  | nil =>
      rw [List.nil_append, List.nil_append, walk, walk, hslot]
      dsimp only
      rw [hcheck]
  | cons field front ih =>
      obtain ⟨key, u⟩ := field
      cases key with
      | none => rfl
      | some key =>
          rw [List.cons_append, List.cons_append, walk, walk]
          cases slots.find? fun s => s.name == key with
          | none =>
              dsimp only
              rw [ih]
          | some other =>
              dsimp only
              rw [ih]

/-! ## Fields that are looked up -/

/-- Other fields do not depend on the value at a place. -/
theorem get?_append_of_ne {other : String} (h : other ≠ name) :
    Found.get? ⟨depth, front ++ (some name, v) :: back⟩ other
      = Found.get? ⟨depth, front ++ (some name, w) :: back⟩ other := by
  have hother : (some name == some other) = false := by simpa using Ne.symm h
  simp only [Found.get?, List.find?_append, List.find?_cons, hother]

/-- What is read off a field is the same for values that are read alike. -/
theorem map_get?_append_congr {other : String} {read : Json → Except Fault α}
    (h : other = name → read v = read w) :
    (Found.get? ⟨depth, front ++ (some name, v) :: back⟩ other).map read
      = (Found.get? ⟨depth, front ++ (some name, w) :: back⟩ other).map read := by
  by_cases hother : other = name
  · subst hother
    have hself : (some other == some other) = true := beq_self_eq_true _
    simp only [Found.get?, List.find?_append, List.find?_cons, hself]
    -- the first field of the name counts, and that may stand in front
    cases front.find? fun field => field.1 == some other with
    | none => exact congrArg some (h rfl)
    | some field => rfl
  · rw [get?_append_of_ne hother]

theorem required_append_congr {shape : Shape α} {other : String}
    (h : other = name → shape depth v = shape depth w) :
    Found.required ⟨depth, front ++ (some name, v) :: back⟩ other shape
      = Found.required ⟨depth, front ++ (some name, w) :: back⟩ other shape := by
  rw [Found.required_eq_getD, Found.required_eq_getD, map_get?_append_congr h]

theorem withDefault_append_congr {shape : Shape α} {other : String}
    (h : other = name → shape depth v = shape depth w) (default : α) :
    Found.withDefault ⟨depth, front ++ (some name, v) :: back⟩ other shape default
      = Found.withDefault ⟨depth, front ++ (some name, w) :: back⟩ other shape default := by
  rw [Found.withDefault_eq_getD, Found.withDefault_eq_getD, map_get?_append_congr h]

/-! ## Records with a value at a place -/

/-- A name that is given by its position is a name among the fields. -/
theorem named_append {front back : List Json}
    (h : (slots.map Slot.name)[front.length]? = some name) (v : Json) :
    named slots (front ++ v :: back)
      = named slots front ++ (some name, v) :: named (slots.drop (front.length + 1)) back := by
  induction front generalizing slots with
  | nil =>
      cases slots with
      | nil => cases h
      | cons s slots =>
          cases h
          rfl
  | cons u front ih =>
      cases slots with
      | nil => cases h
      | cons s slots => exact congrArg ((some s.name, u) :: ·) (ih h)

/-- A record with a value at a place is read off its fields. -/
theorem record_put_eq_ok_iff {p : Place} (h : p.IsFor slots name)
    {fill : Found → Except Fault α} {a : α} :
    record slots fill (depth + 1) (p.put name v) = .ok a ↔
      walk slots depth [] (p.fieldsWith slots name v) = .ok () ∧
        fill ⟨depth, p.fieldsWith slots name v⟩ = .ok a ∧ p.HasRoom slots := by
  cases p with
  | inObject front back =>
      show (walk slots depth [] _ >>= fun _ => fill ⟨depth, _⟩) = .ok a ↔ _
      rw [bind_eq_ok_iff]
      exact ⟨fun ⟨_, hwalk, hfill⟩ => ⟨hwalk, hfill, trivial⟩, fun ⟨hwalk, hfill, _⟩ =>
        ⟨(), hwalk, hfill⟩⟩
  | inArray front back =>
      simp only [Place.put, record, named_append h, List.length_append, List.length_cons,
        bind_eq_ok_iff]
      constructor
      · rintro ⟨⟨⟩, hwalk, filled, hfill, hdone⟩
        split at hdone
        · cases hdone
        · next hroom =>
            cases hdone
            exact ⟨hwalk, hfill, Nat.le_of_not_lt hroom⟩
      · rintro ⟨hwalk, hfill, hroom⟩
        exact ⟨(), hwalk, a, hfill, if_neg (Nat.not_lt.mpr hroom)⟩

/-- A value that is checked and looked up alike can take the place. -/
theorem record_put_congr {p : Place} (h : p.IsFor slots name)
    (hslot : (slots.find? fun s => s.name == name) = some s)
    (hcheck : ∀ depth, s.check depth v = s.check depth w) {fill : Found → Except Fault α}
    (hfill : ∀ depth front back, fill ⟨depth, front ++ (some name, v) :: back⟩
      = fill ⟨depth, front ++ (some name, w) :: back⟩) (depth : Nat) :
    record slots fill depth (p.put name v) = record slots fill depth (p.put name w) := by
  cases depth with
  | zero => cases p <;> rfl
  | succ depth =>
      cases p with
      | inObject front back =>
          show (walk slots depth [] _ >>= fun _ => fill ⟨depth, _⟩) = _
          rw [walk_append_congr hslot (hcheck depth), hfill depth front back]
          rfl
      | inArray front back =>
          simp only [Place.put, record, named_append h, List.length_append, List.length_cons]
          rw [walk_append_congr hslot (hcheck depth), hfill]

/-- Two records have the same fields, but for one name. -/
structure Found.AgreeBut (name : String) (found found' : Found) : Prop where
  depth : found.depth = found'.depth
  fields : ∀ other, other ≠ name → found.get? other = found'.get? other

theorem Found.AgreeBut.required {found found' : Found} (h : found.AgreeBut name found')
    {other : String} (hother : other ≠ name) (shape : Shape α) :
    found.required other shape = found'.required other shape := by
  rw [Found.required_eq_getD, Found.required_eq_getD, h.fields other hother, h.depth]

theorem Found.AgreeBut.withDefault {found found' : Found} (h : found.AgreeBut name found')
    {other : String} (hother : other ≠ name) (shape : Shape α) (default : α) :
    found.withDefault other shape default = found'.withDefault other shape default := by
  rw [Found.withDefault_eq_getD, Found.withDefault_eq_getD, h.fields other hother, h.depth]

end

end Shape

end BridgeGuardian.Json
