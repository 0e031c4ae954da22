import BridgeGuardian.Bytes.Fields
import BridgeGuardian.Proofs.Bytes

/-! # Fields in proofs — reading a record is undoing its writing

    `IsField p width write` says that `p` reads fields of `width` octets
    that spell values by `write`: what is read has been taken off the front,
    what was written is read again, and nothing but a lack of octets makes
    the reading fail.  Numbers and blocks are such fields, and fields in a
    row make records. -/

namespace BridgeGuardian.Reader

variable {α β : Type} {p : Reader α} {c c' : Cursor}

/-! ## Readers in sequence -/

/-- A sequence reads when its parts read one behind the other. -/
theorem bind_eq_ok_iff {f : α → Reader β} {result : β} :
    (p >>= f) c = .ok (result, c') ↔
      ∃ value d, p c = .ok (value, d) ∧ f value d = .ok (result, c') := by
  show (p c >>= fun r => f r.1 r.2) = .ok (result, c') ↔ _
  cases hp : p c with
  | error fault =>
      constructor
      · intro h
        cases h
      · rintro ⟨value, d, h, -⟩
        cases h
  | ok r =>
      obtain ⟨value, d⟩ := r
      constructor
      · intro h
        exact ⟨value, d, rfl, h⟩
      · rintro ⟨value', d', hread, h⟩
        cases hread
        exact h

theorem pure_eq_ok_iff {value result : α} :
    (pure value : Reader α) c = .ok (result, c') ↔ value = result ∧ c = c' := by
  constructor
  · intro h
    cases h
    exact ⟨rfl, rfl⟩
  · rintro ⟨rfl, rfl⟩
    rfl

/-- The reader does not fail at a place. -/
def Succeeds (p : Reader α) (c : Cursor) : Prop := ∃ value d, p c = .ok (value, d)

theorem Succeeds.bind {f : α → Reader β} (h : p.Succeeds c)
    (hf : ∀ value d, p c = .ok (value, d) → (f value).Succeeds d) : (p >>= f).Succeeds c := by
  obtain ⟨value, d, hp⟩ := h
  obtain ⟨result, e, hresult⟩ := hf value d hp
  exact ⟨result, e, bind_eq_ok_iff.mpr ⟨value, d, hp, hresult⟩⟩

/-- The reader comes to a value, wherever it ends. -/
def ComesTo (p : Reader α) (c : Cursor) (value : α) : Prop := ∃ d, p c = .ok (value, d)

theorem ComesTo.bind {f : α → Reader β} {value : α} {d : Cursor} {result : β}
    (hp : p c = .ok (value, d)) (hf : (f value).ComesTo d result) :
    (p >>= f).ComesTo c result := by
  obtain ⟨e, hresult⟩ := hf
  exact ⟨e, bind_eq_ok_iff.mpr ⟨value, d, hp, hresult⟩⟩

theorem read_eq_ok_iff {bytes : Bytes} {value : α} :
    p.read bytes = .ok value ↔ p.ComesTo ⟨0, bytes⟩ value := by
  unfold read ComesTo
  cases hp : p ⟨0, bytes⟩ with
  | error fault =>
      constructor
      · intro h
        cases h
      · rintro ⟨d, h⟩
        cases h
  | ok r =>
      obtain ⟨found, d⟩ := r
      constructor
      · intro h
        cases h
        exact ⟨d, rfl⟩
      · rintro ⟨d', h⟩
        cases h
        rfl

/-! ## Fields -/

/-- A reader of fields of a fixed width. -/
structure IsField (p : Reader α) (width : Nat) (write : α → Bytes) : Prop where
  /-- What is read is what is written in front. -/
  reads : ∀ {c c' : Cursor} {value : α}, p c = .ok (value, c') ↔
    c.rest = write value ++ c'.rest ∧ c'.offset = c.offset + width
  /-- With enough octets ahead the reader does not fail. -/
  succeeds : ∀ {c : Cursor}, width ≤ c.rest.length → p.Succeeds c
  length_write : ∀ value, (write value).length = width

namespace IsField

variable {width : Nat} {write : α → Bytes}

/-- Behind a field there are as many octets less as it is wide. -/
theorem length_rest (h : IsField p width write) {value : α} (hp : p c = .ok (value, c')) :
    c.rest.length = width + c'.rest.length := by
  rw [(h.reads.mp hp).1, List.length_append, h.length_write]

/-- Behind a field there is still room for what is left of the room. -/
theorem succeeds_bind {f : α → Reader β} {more : Nat} (h : IsField p width write)
    (hc : more + width ≤ c.rest.length)
    (hf : ∀ value d, p c = .ok (value, d) → more ≤ d.rest.length → (f value).Succeeds d) :
    (p >>= f).Succeeds c := by
  refine (h.succeeds (by omega)).bind fun value d hp => hf value d hp ?_
  have hlength := h.length_rest hp
  omega

/-- A written field is read again. -/
theorem read_write (h : IsField p width write) (value : α) (offset : Nat) (rest : Bytes) :
    p ⟨offset, write value ++ rest⟩ = .ok (value, ⟨offset + width, rest⟩) :=
  h.reads.mpr ⟨rfl, rfl⟩

/-- A field in front of other octets is told apart from them. -/
theorem write_append_inj (h : IsField p width write) {a b : α} {rest rest' : Bytes}
    (heq : write a ++ rest = write b ++ rest') : a = b ∧ rest = rest' := by
  have ha := h.read_write a 0 rest
  rw [heq, h.read_write b 0 rest'] at ha
  cases ha
  exact ⟨rfl, rfl⟩

theorem write_inj (h : IsField p width write) {a b : α} (heq : write a = write b) : a = b :=
  (h.write_append_inj (congrArg (· ++ []) heq)).1

/-- Two fields in a row make a record with two parts. -/
theorem seq {γ : Type} {q : Reader β} {width' : Nat} {write' : β → Bytes}
    (h : IsField p width write) (h' : IsField q width' write') (make : α → β → γ)
    (first : γ → α) (second : γ → β) (hfirst : ∀ a b, first (make a b) = a)
    (hsecond : ∀ a b, second (make a b) = b)
    (hmake : ∀ record, make (first record) (second record) = record) :
    IsField (do let a ← p; let b ← q; return make a b) (width + width')
      (fun record => write (first record) ++ write' (second record)) where
  reads {c c' record} := by
    rw [bind_eq_ok_iff]
    constructor
    · rintro ⟨a, d, ha, hrest⟩
      obtain ⟨b, e, hb, hrecord⟩ := bind_eq_ok_iff.mp hrest
      obtain ⟨rfl, rfl⟩ := pure_eq_ok_iff.mp hrecord
      obtain ⟨hfront, hoffset⟩ := h.reads.mp ha
      obtain ⟨hback, hoffset'⟩ := h'.reads.mp hb
      rw [hfirst, hsecond, hfront, hback, List.append_assoc, hoffset', hoffset, Nat.add_assoc]
      exact ⟨rfl, rfl⟩
    · rintro ⟨hrest, hoffset⟩
      refine ⟨first record, ⟨c.offset + width, write' (second record) ++ c'.rest⟩, ?_, ?_⟩
      · refine h.reads.mpr ⟨?_, rfl⟩
        rw [hrest, List.append_assoc]
      · refine bind_eq_ok_iff.mpr ⟨second record, c', h'.reads.mpr ⟨rfl, ?_⟩, ?_⟩
        · rw [hoffset, Nat.add_assoc]
        · exact pure_eq_ok_iff.mpr ⟨hmake record, rfl⟩
  succeeds {c} hc := by
    refine (h.succeeds (by omega)).bind fun a d ha => ?_
    have hlength := h.length_rest ha
    exact (h'.succeeds (by omega)).bind fun b e _ => ⟨make a b, e, rfl⟩
  length_write record := by
    rw [List.length_append, h.length_write, h'.length_write]

end IsField

/-! ## Blocks and numbers -/

/-- Blocks spell themselves. -/
theorem isField_block (width : Nat) (field : String) :
    IsField (block width field) width Block.bytes where
  reads {c c' value} := by
    unfold block
    constructor
    · intro h
      split at h
      · cases h
        exact ⟨(List.take_append_drop width c.rest).symm, rfl⟩
      · cases h
    · rintro ⟨hrest, hoffset⟩
      obtain ⟨offset, rest⟩ := c
      obtain ⟨offset', rest'⟩ := c'
      simp only at hrest hoffset
      subst hrest hoffset
      have htake : (value.bytes ++ rest').take width = value.bytes :=
        List.take_left' value.length_eq
      have hdrop : (value.bytes ++ rest').drop width = rest' :=
        List.drop_left' value.length_eq
      have hlength : width ≤ (value.bytes ++ rest').length := by
        rw [List.length_append, value.length_eq]
        exact Nat.le_add_right _ _
      rw [dif_pos hlength]
      refine congrArg Except.ok (Prod.ext ?_ ?_)
      · exact Block.ext htake
      · exact congrArg (Cursor.mk (offset + width)) hdrop
  succeeds {c} hc := by
    unfold block
    exact ⟨_, _, dif_pos hc⟩
  length_write value := value.length_eq

/-- Numbers of a fixed width spell their digits. -/
theorem isField_number {width : Nat} {ofNat : Nat → α} {toNat : α → Nat}
    (hlt : ∀ a, toNat a < 256 ^ width) (hof : ∀ a, ofNat (toNat a) = a)
    (hto : ∀ n, n < 256 ^ width → toNat (ofNat n) = n) (field : String) :
    IsField (do return ofNat (← number width field)) width
      (fun a => bigEndian width (toNat a)) := by
  have hblock := isField_block width field
  have hreads : ∀ {c c' : Cursor} {a : α},
      (do return ofNat (← number width field) : Reader α) c = .ok (a, c') ↔
        block width field c = .ok (Block.ofNat width (toNat a), c') := by
    intro c c' a
    rw [bind_eq_ok_iff]
    constructor
    · rintro ⟨n, d, hn, hrest⟩
      obtain ⟨b, e, hb, hnumber⟩ := bind_eq_ok_iff.mp hn
      obtain ⟨rfl, rfl⟩ := pure_eq_ok_iff.mp hnumber
      obtain ⟨rfl, rfl⟩ := pure_eq_ok_iff.mp hrest
      rw [hto _ b.toNat_lt, Block.ofNat_toNat, hb]
    · intro hb
      have hnumber : (Block.ofNat width (toNat a)).toNat = toNat a :=
        ofBigEndian_bigEndian_of_lt (hlt a)
      refine ⟨toNat a, c', bind_eq_ok_iff.mpr ⟨_, _, hb, ?_⟩, ?_⟩
      · exact pure_eq_ok_iff.mpr ⟨hnumber, rfl⟩
      · exact pure_eq_ok_iff.mpr ⟨hof a, rfl⟩
  constructor
  case reads =>
    intro c c' a
    rw [hreads, hblock.reads]
    rfl
  case succeeds =>
    intro c hc
    obtain ⟨b, d, hb⟩ := hblock.succeeds hc
    refine ⟨ofNat b.toNat, d, hreads.mpr ?_⟩
    rw [hto _ b.toNat_lt, Block.ofNat_toNat, hb]
  case length_write => exact fun a => length_bigEndian width (toNat a)

theorem isField_uint8 (field : String) : IsField (uint8 field) 1 fun n => [n] := by
  have h : IsField (uint8 field) 1 fun n => bigEndian 1 n.toNat :=
    isField_number UInt8.toNat_lt (fun _ => UInt8.ofNat_toNat)
      (fun _ hn => UInt8.toNat_ofNat_of_lt' hn) field
  have hwrite : (fun n : UInt8 => bigEndian 1 n.toNat) = fun n => [n] := by
    funext n
    simp [bigEndian]
  rwa [hwrite] at h

theorem isField_uint16 (field : String) :
    IsField (uint16 field) 2 fun n => bigEndian 2 n.toNat :=
  isField_number UInt16.toNat_lt (fun _ => UInt16.ofNat_toNat)
    (fun _ hn => UInt16.toNat_ofNat_of_lt' hn) field

theorem isField_uint32 (field : String) :
    IsField (uint32 field) 4 fun n => bigEndian 4 n.toNat :=
  isField_number UInt32.toNat_lt (fun _ => UInt32.ofNat_toNat)
    (fun _ hn => UInt32.toNat_ofNat_of_lt' hn) field

theorem isField_uint64 (field : String) :
    IsField (uint64 field) 8 fun n => bigEndian 8 n.toNat :=
  isField_number UInt64.toNat_lt (fun _ => UInt64.ofNat_toNat)
    (fun _ hn => UInt64.toNat_ofNat_of_lt' hn) field

theorem isField_uint256 (field : String) :
    IsField (uint256 field) 32 fun n => bigEndian 32 n.toNat :=
  isField_number BitVec.isLt (fun n => BitVec.ofNat_toNat 256 n)
    (fun n hn => (BitVec.toNat_ofNat n 256).trans (Nat.mod_eq_of_lt hn)) field

/-! ## Lists and remainders -/

theorem IsField.length_flatMap {width : Nat} {write : α → Bytes} (h : IsField p width write)
    (values : List α) : (values.flatMap write).length = values.length * width := by
  induction values with
  | nil => simp
  | cons first others ih =>
      rw [List.flatMap_cons, List.length_append, h.length_write, ih, List.length_cons,
        Nat.succ_mul, Nat.add_comm]

/-- So many fields in a row read what they spell. -/
theorem repeated_eq_ok_iff {width : Nat} {write : α → Bytes} (h : IsField p width write)
    {count : Nat} {values : List α} :
    repeated p count c = .ok (values, c') ↔
      values.length = count ∧ c.rest = values.flatMap write ++ c'.rest ∧
        c'.offset = c.offset + count * width := by
  induction count generalizing c values with
  | zero =>
      constructor
      · intro hread
        obtain ⟨rfl, rfl⟩ := pure_eq_ok_iff.mp hread
        simp
      · rintro ⟨hlength, hrest, hoffset⟩
        obtain rfl := List.eq_nil_of_length_eq_zero hlength
        obtain ⟨offset, rest⟩ := c
        obtain ⟨offset', rest'⟩ := c'
        simp only [List.flatMap_nil, List.nil_append, Nat.zero_mul, Nat.add_zero] at hrest hoffset
        subst hrest hoffset
        rfl
  | succ count ih =>
      constructor
      · intro hread
        obtain ⟨first, d, hfirst, hread⟩ := bind_eq_ok_iff.mp hread
        obtain ⟨others, e, hothers, hread⟩ := bind_eq_ok_iff.mp hread
        obtain ⟨rfl, rfl⟩ := pure_eq_ok_iff.mp hread
        obtain ⟨hfront, hoffset⟩ := h.reads.mp hfirst
        obtain ⟨hlength, hback, hoffset'⟩ := ih.mp hothers
        refine ⟨congrArg (· + 1) hlength, ?_, ?_⟩
        · rw [hfront, hback, List.flatMap_cons, List.append_assoc]
        · rw [hoffset', hoffset, Nat.succ_mul, Nat.add_assoc, Nat.add_comm width]
      · rintro ⟨hlength, hrest, hoffset⟩
        cases values with
        | nil => cases hlength
        | cons first others =>
            rw [List.flatMap_cons, List.append_assoc] at hrest
            let behind : Cursor := ⟨c.offset + width, others.flatMap write ++ c'.rest⟩
            have hfirst : p c = .ok (first, behind) := h.reads.mpr ⟨hrest, rfl⟩
            have hothers : repeated p count behind = .ok (others, c') := by
              refine ih.mpr ⟨Nat.succ.inj hlength, rfl, ?_⟩
              rw [hoffset, Nat.succ_mul, Nat.add_assoc, Nat.add_comm (count * width)]
            refine bind_eq_ok_iff.mpr ⟨first, behind, hfirst, ?_⟩
            exact bind_eq_ok_iff.mpr ⟨others, c', hothers, rfl⟩

/-- Written fields are read again. -/
theorem IsField.repeated_write {width : Nat} {write : α → Bytes} (h : IsField p width write)
    {values : List α} {count : Nat} (hcount : values.length = count) (offset : Nat)
    (rest : Bytes) :
    repeated p count ⟨offset, values.flatMap write ++ rest⟩
      = .ok (values, ⟨offset + count * width, rest⟩) :=
  (repeated_eq_ok_iff h).mpr ⟨hcount, rfl, rfl⟩

/-- Fields in a row are told apart by their octets. -/
theorem IsField.flatMap_inj {width : Nat} {write : α → Bytes} (h : IsField p width write)
    (hwidth : 0 < width) {values others : List α}
    (heq : values.flatMap write = others.flatMap write) : values = others := by
  have hlength : values.length * width = others.length * width := by
    rw [← h.length_flatMap, ← h.length_flatMap, heq]
  have hread : repeated p values.length ⟨0, values.flatMap write ++ []⟩ = .ok (values, _) :=
    h.repeated_write rfl 0 []
  rw [heq, h.repeated_write (Nat.eq_of_mul_eq_mul_right hwidth hlength).symm 0 []] at hread
  cases hread
  rfl

theorem succeeds_repeated {width : Nat} {write : α → Bytes} (h : IsField p width write)
    {count : Nat} (hc : count * width ≤ c.rest.length) : (repeated p count).Succeeds c := by
  induction count generalizing c with
  | zero => exact ⟨[], c, rfl⟩
  | succ count ih =>
      rw [Nat.succ_mul] at hc
      refine (h.succeeds (by omega)).bind fun first d hfirst => ?_
      have hlength := h.length_rest hfirst
      exact (ih (by omega)).bind fun others e _ => ⟨first :: others, e, rfl⟩

/-- The remainder is everything ahead. -/
theorem remainder_eq_ok_iff {bytes : Bytes} :
    remainder c = .ok (bytes, c') ↔ c.rest = bytes ∧ c' = ⟨c.offset + c.rest.length, []⟩ := by
  constructor
  · intro h
    cases h
    exact ⟨rfl, rfl⟩
  · rintro ⟨rfl, rfl⟩
    rfl

end BridgeGuardian.Reader
