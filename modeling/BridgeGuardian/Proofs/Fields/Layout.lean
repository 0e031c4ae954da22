import BridgeGuardian.Proofs.Fields
import Mathlib.Logic.ExistsUnique

/-! # Layouts — where the fields of a record stand

    A layout lists the fields of a record by name and width; each begins
    where the one before it ends, so every octet of the record belongs to
    exactly one of them.  A reader reports cuts by a layout when a record
    that ends too early is refused with the field in which it ends.  The
    readers of single fields do, and `ReportsCuts.bind` puts them in a row:
    what is cut behind a field is read up to there, and the rest of the
    reader starts at the offset that it would have started at anyway. -/

namespace BridgeGuardian

/-! ## Fields and places -/

/-- A field as a layout lists it. -/
structure Layout.Field where
  name : String
  width : Nat
deriving DecidableEq, Repr

/-- The fields of a record in their order. -/
abbrev Layout := List Layout.Field

/-- A field and the offset at which it starts. -/
structure Layout.Place where
  name : String
  width : Nat
  start : Nat
deriving DecidableEq, Repr

namespace Layout

/-- The offset falls into the field. -/
def Place.Holds (place : Place) (offset : Nat) : Prop :=
  place.start ≤ offset ∧ offset < place.start + place.width

/-- Two comparisons tell whether an offset falls into a field. -/
instance (place : Place) (offset : Nat) : Decidable (place.Holds offset) :=
  inferInstanceAs (Decidable (_ ∧ _))

/-- How many octets the fields fill. -/
def width : Layout → Nat
  | [] => 0
  | field :: rest => field.width + width rest

/-- The fields one behind the other. -/
def places (start : Nat) : Layout → List Place
  | [] => []
  | field :: rest => ⟨field.name, field.width, start⟩ :: places (start + field.width) rest

theorem width_append (front back : Layout) : width (front ++ back) = width front + width back := by
  induction front with
  | nil => rw [List.nil_append, width, Nat.zero_add]
  | cons field rest ih => rw [List.cons_append, width, width, ih, Nat.add_assoc]

theorem width_flatten_replicate (count : Nat) (item : Layout) :
    width (List.replicate count item).flatten = count * width item := by
  induction count with
  | zero => rw [List.replicate_zero, List.flatten_nil, width, Nat.zero_mul]
  | succ count ih =>
      rw [List.replicate_succ, List.flatten_cons, width_append, ih, Nat.succ_mul, Nat.add_comm]

theorem places_append (start : Nat) (front back : Layout) :
    places start (front ++ back) = places start front ++ places (start + width front) back := by
  induction front generalizing start with
  | nil => rw [List.nil_append, places, List.nil_append, width, Nat.add_zero]
  | cons field rest ih =>
      rw [List.cons_append, places, places, ih, List.cons_append, width, Nat.add_assoc]

/-- No field begins before the record. -/
theorem start_le_of_mem_places {start : Nat} {layout : Layout} {place : Place}
    (h : place ∈ places start layout) : start ≤ place.start := by
  induction layout generalizing start with
  | nil => cases h
  | cons field rest ih =>
      rcases List.mem_cons.mp h with rfl | hrest
      · exact Nat.le_refl _
      · exact Nat.le_trans (Nat.le_add_right _ _) (ih hrest)

/-- Every octet of a record belongs to exactly one field. -/
theorem existsUnique_place {start offset : Nat} {layout : Layout} (hstart : start ≤ offset)
    (hoffset : offset < start + width layout) :
    ∃! place, place ∈ places start layout ∧ place.Holds offset := by
  induction layout generalizing start with
  | nil => exact absurd hoffset (Nat.not_lt.mpr hstart)
  | cons field rest ih =>
      by_cases hfirst : offset < start + field.width
      · refine ⟨⟨field.name, field.width, start⟩,
          ⟨List.mem_cons_self, hstart, hfirst⟩, ?_⟩
        rintro place ⟨hmem, hholds⟩
        rcases List.mem_cons.mp hmem with rfl | hrest
        · rfl
        · have hbehind := start_le_of_mem_places hrest
          have hbefore := hholds.1
          omega
      · rw [width] at hoffset
        obtain ⟨place, ⟨hmem, hholds⟩, honly⟩ :=
          ih (Nat.le_of_not_lt hfirst) (by omega)
        refine ⟨place, ⟨List.mem_cons_of_mem _ hmem, hholds⟩, ?_⟩
        rintro other ⟨hother, hin⟩
        rcases List.mem_cons.mp hother with rfl | hrest
        · exact absurd hin.2 hfirst
        · exact honly other ⟨hrest, hin⟩

end Layout

/-! ## Readers that report cuts -/

namespace Reader

variable {α β : Type} {p : Reader α}

theorem bind_of_eq_ok {f : α → Reader β} {c d : Cursor} {value : α} (h : p c = .ok (value, d)) :
    (p >>= f) c = f value d := by
  show (p c >>= fun r => f r.1 r.2) = _
  rw [h]
  rfl

theorem bind_of_eq_error {f : α → Reader β} {c : Cursor} {fault : Malformed}
    (h : p c = .error fault) : (p >>= f) c = .error fault := by
  show (p c >>= fun r => f r.1 r.2) = _
  rw [h]
  rfl

/-- Of octets that are cut, the reader reports the field in which they end,
    with what is left of it. -/
def ReportsCuts (p : Reader α) (layout : Layout) (octets : Bytes) : Prop :=
  ∀ offset cut, cut < layout.width →
    ∃ place ∈ layout.places offset, place.Holds (offset + cut) ∧
      p ⟨offset, octets.take cut⟩ = .error
        (.truncated place.name place.width place.start (offset + cut - place.start))

namespace ReportsCuts

variable {layout : Layout} {octets : Bytes}

/-- Where nothing is laid out, nothing can be cut. -/
theorem nothing (p : Reader α) (octets : Bytes) : ReportsCuts p [] octets :=
  fun _ cut hcut => absurd hcut (Nat.not_lt_zero cut)

theorem block {width : Nat} (field : String) (b : Block width) :
    ReportsCuts (Reader.block width field) [⟨field, width⟩] b.bytes := by
  intro offset cut hcut
  have hwidth : cut < width := hcut
  have hlength : (b.bytes.take cut).length = cut := by
    rw [List.length_take, b.length_eq]
    exact Nat.min_eq_left (Nat.le_of_lt hwidth)
  refine ⟨⟨field, width, offset⟩, List.mem_singleton_self _, ⟨?_, ?_⟩, ?_⟩
  · exact Nat.le_add_right _ _
  · exact Nat.add_lt_add_left hwidth _
  · show Reader.block width field ⟨offset, b.bytes.take cut⟩ = _
    rw [Reader.block, dif_neg (by rw [hlength]; exact Nat.not_le.mpr hwidth), hlength,
      Nat.add_sub_cancel_left]

/-- What is done with a field does not matter when it is cut. -/
theorem andThen (h : ReportsCuts p layout octets) (f : α → Reader β) :
    ReportsCuts (p >>= f) layout octets := by
  intro offset cut hcut
  obtain ⟨place, hmem, hholds, hp⟩ := h offset cut hcut
  exact ⟨place, hmem, hholds, bind_of_eq_error hp⟩

/-- Readers in a row: a cut falls either into the octets of the first, or
    behind them. -/
theorem bind {front back : Layout} {read : Bytes} {value : α} {f : α → Reader β}
    (hp : ∀ offset rest, p ⟨offset, read ++ rest⟩ = .ok (value, ⟨offset + front.width, rest⟩))
    (hlength : read.length = front.width) (hfront : ReportsCuts p front read)
    (hback : ReportsCuts (f value) back octets) :
    ReportsCuts (p >>= f) (front ++ back) (read ++ octets) := by
  intro offset cut hcut
  rw [Layout.places_append]
  by_cases hbefore : cut < front.width
  · obtain ⟨place, hmem, hholds, herror⟩ := hfront offset cut hbefore
    refine ⟨place, List.mem_append_left _ hmem, hholds, ?_⟩
    rw [List.take_append_of_le_length (by omega)]
    exact bind_of_eq_error herror
  · rw [Layout.width_append] at hcut
    obtain ⟨place, hmem, hholds, herror⟩ :=
      hback (offset + front.width) (cut - front.width) (by omega)
    have hsum : offset + front.width + (cut - front.width) = offset + cut := by omega
    rw [hsum] at hholds herror
    refine ⟨place, List.mem_append_right _ hmem, hholds, ?_⟩
    rw [List.take_append, List.take_of_length_le (by omega), hlength, bind_of_eq_ok (hp offset _)]
    exact herror

end ReportsCuts

/-! ## Laid out readers -/

/-- A reader of fields that are laid out. -/
structure IsLaidOut (p : Reader α) (layout : Layout) (write : α → Bytes) : Prop where
  isField : IsField p layout.width write
  reportsCuts : ∀ value, ReportsCuts p layout (write value)

namespace IsLaidOut

variable {layout : Layout} {write : α → Bytes}

/-- A laid out reader in front of others. -/
theorem bind {back : Layout} {octets : Bytes} {value : α} {f : α → Reader β}
    (h : IsLaidOut p layout write) (hback : ReportsCuts (f value) back octets) :
    ReportsCuts (p >>= f) (layout ++ back) (write value ++ octets) :=
  .bind (h.isField.read_write value) (h.isField.length_write value) (h.reportsCuts value) hback

/-- So many laid out records in a row. -/
theorem repeated (h : IsLaidOut p layout write) {values : List α} {count : Nat}
    (hcount : values.length = count) :
    ReportsCuts (Reader.repeated p count) (List.replicate count layout).flatten
      (values.flatMap write) := by
  subst hcount
  induction values with
  | nil => exact .nothing _ _
  | cons first others ih =>
      rw [List.length_cons, List.replicate_succ, List.flatten_cons, List.flatMap_cons]
      exact h.bind (ih.andThen _)

/-- So many laid out records in front of others. -/
theorem bind_repeated {back : Layout} {octets : Bytes} {values : List α} {count : Nat}
    {f : List α → Reader β} (h : IsLaidOut p layout write) (hcount : values.length = count)
    (hback : ReportsCuts (f values) back octets) :
    ReportsCuts (Reader.repeated p count >>= f) ((List.replicate count layout).flatten ++ back)
      (values.flatMap write ++ octets) := by
  have hwidth := Layout.width_flatten_replicate count layout
  refine .bind (fun offset rest => ?_) ?_ (h.repeated hcount) hback
  · rw [hwidth]
    exact h.isField.repeated_write hcount offset rest
  · rw [hwidth, h.isField.length_flatMap, hcount]

end IsLaidOut

theorem isLaidOut_block (width : Nat) (field : String) :
    IsLaidOut (block width field) [⟨field, width⟩] Block.bytes :=
  ⟨isField_block width field, .block field⟩

/-- A number is laid out as the block of its digits. -/
theorem isLaidOut_number {width : Nat} {ofNat : Nat → α} {write : α → Bytes} (field : String)
    (h : IsField (do return ofNat (← number width field)) width write) :
    IsLaidOut (do return ofNat (← number width field)) [⟨field, width⟩] write :=
  ⟨h, fun value => (((ReportsCuts.block field ⟨write value, h.length_write value⟩).andThen
    _).andThen _)⟩

theorem isLaidOut_uint8 (field : String) :
    IsLaidOut (uint8 field) [⟨field, 1⟩] fun n => [n] :=
  isLaidOut_number field (isField_uint8 field)

theorem isLaidOut_uint16 (field : String) :
    IsLaidOut (uint16 field) [⟨field, 2⟩] fun n => bigEndian 2 n.toNat :=
  isLaidOut_number field (isField_uint16 field)

theorem isLaidOut_uint32 (field : String) :
    IsLaidOut (uint32 field) [⟨field, 4⟩] fun n => bigEndian 4 n.toNat :=
  isLaidOut_number field (isField_uint32 field)

theorem isLaidOut_uint64 (field : String) :
    IsLaidOut (uint64 field) [⟨field, 8⟩] fun n => bigEndian 8 n.toNat :=
  isLaidOut_number field (isField_uint64 field)

theorem isLaidOut_uint256 (field : String) :
    IsLaidOut (uint256 field) [⟨field, 32⟩] fun n => bigEndian 32 n.toNat :=
  isLaidOut_number field (isField_uint256 field)

end Reader

end BridgeGuardian
