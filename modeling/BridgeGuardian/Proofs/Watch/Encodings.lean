import BridgeGuardian.Proofs.Json.Depth
import BridgeGuardian.Proofs.Json.Places
import BridgeGuardian.Proofs.Numeral
import BridgeGuardian.Proofs.Outcome
import BridgeGuardian.Watch.Event

/-! # Encodings — the same list and the same number, written in two ways

    A list of events is first tried as a record with the list in it.  A bare
    list passes for such a record only if it is empty, since no event is the
    number of a chain; and in a record, which takes one more level of nesting,
    the list is read as it is bare, because events are steady.  A number is
    read off an integer or a text with its numeral, and so it is wherever a
    record has a place for it. -/

namespace BridgeGuardian.Watch

open Json
open Json.Shape

/-! ## Lists of events -/

/-- An object or an array, as every event is. -/
inductive IsContainer : Json → Prop
  | object (fields : List (JsonText × Json)) : IsContainer (.object fields)
  | array (items : List Json) : IsContainer (.array items)

/-- A record holds the items as its events, and else nothing but chains. -/
structure IsWrapping (items : List Json) (fields : List (String × Json)) : Prop where
  names : HasDistinctNames fields
  events : ("events", .array items) ∈ fields
  chains : ∀ field ∈ fields, field.1 ≠ "events" →
    (field.1 = "chainFrom" ∨ field.1 = "chainTo") ∧ ∃ chain : UInt32, field.2 = .nat chain.toNat

/-- The items are written as a list of events, bare or wrapped. -/
inductive EncodesEvents (items : List Json) : Json → Prop
  | bare : EncodesEvents items (.array items)
  | wrapped {fields : List (String × Json)} (wrapping : IsWrapping items fields) :
      EncodesEvents items (.record fields)

section

variable {items : List Json} {fields : List (String × Json)} {depth : Nat} {v w : Json}

theorem EventField.isSteady_shape : IsSteady EventField.shape := by
  refine isSteady_record ?_ fun depth fields h => ?_
  · simp only [List.forall_mem_cons, List.not_mem_nil, false_implies, implies_true, and_true]
    exact ⟨isSteady_slot isSteady_text _, isSteady_slot isSteady_any _⟩
  · rw [required_succ isSteady_text h, required_succ isSteady_any h]

/-- An event is read as with more room. -/
theorem Event.isSteady_shape : IsSteady Event.shape := by
  have hfields : IsSteady (list EventField.shape) := isSteady_list EventField.isSteady_shape
  refine isSteady_record ?_ fun depth fields h => ?_
  · simp only [List.forall_mem_cons, List.not_mem_nil, false_implies, implies_true, and_true]
    exact ⟨isSteady_slot isSteady_text _, isSteady_slot isSteady_text _,
      isSteady_slot isSteady_text _, isSteady_slot isSteady_int32 _, isSteady_slot hfields _⟩
  · rw [required_succ isSteady_text h, required_succ isSteady_text h,
      withDefault_succ isSteady_text h, withDefault_succ isSteady_int32 h,
      withDefault_succ hfields h]

/-- A reply is tried as a record first. -/
theorem reply_of_isSound (h : v.isSound depth = true) :
    EventList.reply depth v = Except.mapError (fun _ => Fault.mismatch)
      (match EventList.shape depth v with
      | .ok wrapped => .ok wrapped.events
      | .error _ => list Event.shape depth v) := if_pos h

/-- The number of a chain is none or one that is written. -/
theorem IsWrapping.exists_chain (h : IsWrapping items fields) (depth : Nat) {name : String}
    (hname : name ≠ "events") :
    ∃ chain, Found.withDefault ⟨depth, keyed fields⟩ name uint32 0 = .ok chain := by
  rw [Found.withDefault]
  cases hfound : Found.get? ⟨depth, keyed fields⟩ name with
  | none => exact ⟨0, rfl⟩
  | some v =>
      obtain ⟨-, chain, hchain⟩ := h.chains (name, v) (Found.mem_of_get? hfound) hname
      obtain rfl : v = .nat chain.toNat := hchain
      exact ⟨chain, uint32_toNat chain depth⟩

/-- The record is read if its list is. -/
theorem IsWrapping.shape_eq_ok (h : IsWrapping items fields) {events : List Event}
    (hlist : list Event.shape depth (.array items) = .ok events) :
    ∃ chainFrom chainTo,
      EventList.shape (depth + 1) (.record fields) = .ok ⟨chainFrom, chainTo, events⟩ := by
  obtain ⟨chainFrom, hfrom⟩ := h.exists_chain depth (by decide : "chainFrom" ≠ "events")
  obtain ⟨chainTo, hto⟩ := h.exists_chain depth (by decide : "chainTo" ≠ "events")
  refine ⟨chainFrom, chainTo, ?_⟩
  have hevents := Found.withDefault_of_mem h.names h.events depth (list Event.shape) []
  rw [EventList.shape, record_of_perm h.names _ (.refl fields), hfrom, hto, hevents, hlist]
  · rfl
  · intro field hfield
    by_cases hname : field.1 = "events"
    · obtain rfl := h.names.eq_of_name_eq hfield h.events hname
      exact fills_slot rfl hlist
    · obtain ⟨hname, chain, hchain⟩ := h.chains field hfield hname
      obtain ⟨name, v⟩ := field
      obtain rfl : v = .nat chain.toNat := hchain
      rcases hname with hname | hname
      · obtain rfl : name = "chainFrom" := hname
        exact fills_slot rfl (uint32_toNat chain depth)
      · obtain rfl : name = "chainTo" := hname
        exact fills_slot rfl (uint32_toNat chain depth)

/-- The record is not read if its list is not. -/
theorem IsWrapping.shape_ne_ok (h : IsWrapping items fields) {fault : Fault}
    (hlist : list Event.shape depth (.array items) = .error fault) (wrapped : EventList) :
    EventList.shape (depth + 1) (.record fields) ≠ .ok wrapped := by
  obtain ⟨front, back, rfl⟩ := List.append_of_mem h.events
  have hput : Json.record (front ++ ("events", .array items) :: back)
      = Place.put "events" (.array items) (.inObject (keyed front) (keyed back)) :=
    congrArg Json.object List.map_append
  intro hread
  rw [hput] at hread
  obtain ⟨hwalk, -⟩ :=
    (record_put_eq_ok_iff (p := .inObject (keyed front) (keyed back)) trivial).mp hread
  obtain ⟨hcheck, -⟩ := of_walk_append rfl hwalk
  have hread : (list Event.shape depth (.array items)).map (fun _ => ()) = .ok () := hcheck
  rw [hlist] at hread
  cases hread

/-- The list in a record has one level less. -/
theorem IsWrapping.isSound_iff (h : IsWrapping items fields) :
    (Json.record fields).isSound (depth + 1) = true ↔ (Json.array items).isSound depth = true := by
  constructor
  · intro hsound
    have hfields : fieldsSound depth (keyed fields) = true := hsound
    exact isSound_of_get? hfields (Found.get?_of_mem h.names h.events depth)
  · intro hsound
    show fieldsSound depth (keyed fields) = true
    refine fieldsSound_of_forall fun field hfield => ?_
    by_cases hname : field.1 = "events"
    · obtain rfl := h.names.eq_of_name_eq hfield h.events hname
      exact hsound
    · obtain ⟨-, chain, hchain⟩ := h.chains field hfield hname
      rw [hchain]
      rfl

/-- A list in a record is read as the list alone. -/
theorem reply_wrapped (h : IsWrapping items fields)
    (hsound : (Json.record fields).isSound depth = true) :
    EventList.reply depth (.record fields)
      = (list Event.shape depth (.array items)).mapError fun _ => .mismatch := by
  rw [reply_of_isSound hsound]
  cases depth with
  | zero => cases hsound
  | succ depth =>
      -- there is one level less for the list, which is enough
      have hitems : (Json.array items).isSound depth = true := h.isSound_iff.mp hsound
      rw [isSteady_list Event.isSteady_shape depth _ hitems]
      cases hlist : list Event.shape depth (.array items) with
      | ok events =>
          obtain ⟨chainFrom, chainTo, hread⟩ := h.shape_eq_ok hlist
          rw [hread]
      | error fault =>
          cases hread : EventList.shape (depth + 1) (.record fields) with
          | ok wrapped => exact absurd hread (h.shape_ne_ok hlist wrapped)
          | error other => rfl

/-- No event is the number of a chain. -/
theorem uint32_of_isContainer (h : IsContainer v) (depth : Nat) :
    uint32 depth v = .error .mismatch := by
  cases h <;> rfl

/-- A list is not a record, unless it is empty. -/
theorem reply_bare (hitems : ∀ v ∈ items, IsContainer v)
    (hsound : (Json.array items).isSound depth = true) :
    EventList.reply depth (.array items)
      = (list Event.shape depth (.array items)).mapError fun _ => .mismatch := by
  rw [reply_of_isSound hsound]
  cases depth with
  | zero => cases hsound
  | succ depth =>
      cases items with
      | nil => rfl
      | cons v items =>
          have hread : EventList.shape (depth + 1) (.array (v :: items)) = .error .mismatch := by
            -- the first item would be the number of a chain
            show ((uint32 depth v).map (fun _ => ()) >>= fun _ => walk _ depth _ _) >>= _ = _
            rw [uint32_of_isContainer (hitems v List.mem_cons_self)]
            rfl
          rw [hread]

/-- A list of events is read off all of its encodings that are sound. -/
theorem reply_of_encodesEvents (hitems : ∀ v ∈ items, IsContainer v) (h : EncodesEvents items v)
    (hsound : v.isSound depth = true) :
    EventList.reply depth v
      = (list Event.shape depth (.array items)).mapError fun _ => .mismatch := by
  cases h with
  | bare => exact reply_bare hitems hsound
  | wrapped wrapping => exact reply_wrapped wrapping hsound

/-- A number is written as an integer, or as a text with one of its
    numerals. -/
inductive SpellsNumber (n : UInt64) : Json → Prop
  | integer : SpellsNumber n (.nat n.toNat)
  | numeral {text : String} (h : Text.IsNumeral n.toNat text.toList) : SpellsNumber n (.text text)

variable {n : UInt64}

theorem uint64_eq_ok_iff : uint64 depth v = .ok n ↔ v = .nat n.toNat := by
  constructor
  · intro h
    unfold uint64 integer at h
    split at h
    · next k =>
        split at h
        · next hbounds =>
            cases h
            obtain ⟨hlow, hhigh⟩ := hbounds
            rw [UInt64.toNat_ofNat_of_lt' (by simp only [UInt64.size] at hhigh ⊢; omega)]
            exact congrArg (fun k => Json.number (.integer k)) (Int.toNat_of_nonneg hlow).symm
        · cases h
    · cases h
  · rintro rfl
    exact uint64_toNat n depth

/-- A text is read as its numeral. -/
theorem number_text (text : String) :
    number depth (.text text) = (Text.readUInt64 text).mapError fun _ => .mismatch := by
  have hsound : (Json.text text).isSound depth = true := rfl
  rw [number, whole, if_pos hsound]
  dsimp only [Json.text]
  cases Text.readUInt64 text <;> rfl

/-- Exactly the spellings of a number are read. -/
theorem number_eq_ok_iff : number depth v = .ok n ↔ SpellsNumber n v := by
  constructor
  · intro h
    unfold number whole at h
    split at h
    · replace h := mapError_eq_ok_iff.mp h
      dsimp only at h
      split at h
      · next text _ =>
          cases hread : Text.readUInt64 text with
          | error fault =>
              rw [hread] at h
              cases h
          | ok k =>
              rw [hread] at h
              cases h
              exact .numeral (Text.readUInt64_eq_ok_iff.mp hread)
      · obtain rfl := uint64_eq_ok_iff.mp h
        exact .integer
    · cases h
  · intro h
    cases h with
    | integer =>
        show (uint64 depth (.nat n.toNat)).mapError _ = .ok n
        rw [uint64_toNat]
        rfl
    | numeral h =>
        rw [number_text, Text.readUInt64_eq_ok_iff.mpr h]
        rfl

/-- Two spellings of a number are read alike. -/
theorem number_congr (hv : SpellsNumber n v) (hw : SpellsNumber n w) (depth : Nat) :
    number depth v = number depth w := by
  rw [number_eq_ok_iff.mpr hv, number_eq_ok_iff.mpr hw]

/-! ## Numbers in their places -/

namespace BlockHeader

/-- The fields of a header. -/
def slots : List Slot :=
  [slot "hash" text, slot "timestamp" number, slot "chainFrom" uint32, slot "chainTo" uint32,
    slot "height" number]

/-- A header with the fields that were found. -/
def fill (found : Found) : Except Fault BlockHeader := do
  return ⟨← found.required "hash" text, ← found.withDefault "timestamp" number 0,
    ← found.withDefault "chainFrom" uint32 0, ← found.withDefault "chainTo" uint32 0,
    ← found.withDefault "height" number 0⟩

theorem shape_eq : shape = record slots fill := rfl

/-- The numbers of a header. -/
inductive NumberField
  | timestamp
  | height

namespace NumberField

def name : NumberField → String
  | timestamp => "timestamp"
  | height => "height"

/-- The header with another number in the field. -/
def set : NumberField → UInt64 → BlockHeader → BlockHeader
  | timestamp, n, h => { h with timestamp := n }
  | height, n, h => { h with height := n }

theorem ne_name (f : NumberField) :
    "hash" ≠ f.name ∧ "chainFrom" ≠ f.name ∧ "chainTo" ≠ f.name := by
  cases f <;> decide

theorem find?_slots (f : NumberField) :
    slots.find? (fun s => s.name == f.name) = some (slot f.name number) := by
  cases f <;> rfl

end NumberField

/-- A number of a header can be spelled in another way. -/
theorem shape_put_congr (f : NumberField) {p : Place} (hplace : p.IsFor slots f.name)
    (hv : SpellsNumber n v) (hw : SpellsNumber n w) (depth : Nat) :
    shape depth (p.put f.name v) = shape depth (p.put f.name w) := by
  have hnumber : ∀ depth, number depth v = number depth w := number_congr hv hw
  obtain ⟨hnehash, hnefrom, hneto⟩ := f.ne_name
  rw [shape_eq]
  refine record_put_congr hplace f.find?_slots (fun depth => ?_) (fun depth front back => ?_) depth
  · exact congrArg (Except.map fun _ => ()) (hnumber depth)
  · rw [fill, fill, required_append_congr (absurd · hnehash),
      withDefault_append_congr fun _ => hnumber depth,
      withDefault_append_congr (absurd · hnefrom), withDefault_append_congr (absurd · hneto),
      withDefault_append_congr fun _ => hnumber depth]

end BlockHeader

/-- The field of a reply about a chain. -/
def heightSlots : List Slot := [slot "currentHeight" number]

theorem heightReply_eq :
    heightReply
      = record heightSlots fun found => found.required "currentHeight" number := rfl

/-- The height of a chain can be spelled in another way. -/
theorem heightReply_put_congr {p : Place} (hplace : p.IsFor heightSlots "currentHeight")
    (hv : SpellsNumber n v) (hw : SpellsNumber n w) (depth : Nat) :
    heightReply depth (p.put "currentHeight" v) = heightReply depth (p.put "currentHeight" w) := by
  have hnumber : ∀ depth, number depth v = number depth w := number_congr hv hw
  rw [heightReply_eq]
  refine record_put_congr hplace rfl (fun depth => ?_) (fun depth front back => ?_) depth
  · exact congrArg (Except.map fun _ => ()) (hnumber depth)
  · exact required_append_congr fun _ => hnumber depth

end

end BridgeGuardian.Watch
