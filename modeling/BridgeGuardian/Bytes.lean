/-! # Bytes — octet strings, blocks of a fixed width, big-endian numbers

    Every binary format of the bridge is built from two things: blocks of
    a fixed number of octets, and unsigned numbers written with the most
    significant octet first.  `bigEndian` writes a number in a given
    width, and `ofBigEndian` reads it back. -/

namespace BridgeGuardian

/-- A string of octets. -/
abbrev Bytes := List UInt8

/-! ## Big-endian numbers -/

/-- The last `width` base-256 digits of `n`, most significant first. -/
def bigEndian : (width : Nat) → (n : Nat) → Bytes
  | 0, _ => []
  | width + 1, n => bigEndian width (n / 256) ++ [UInt8.ofNat n]

/-- The number whose base-256 digits are the octets, most significant
    first. -/
def ofBigEndian (bs : Bytes) : Nat :=
  bs.foldl (fun n b => n * 256 + b.toNat) 0

@[simp] theorem length_bigEndian (width n : Nat) :
    (bigEndian width n).length = width := by
  induction width generalizing n with
  | zero => rfl
  | succ width ih => simp [bigEndian, ih]

@[simp] theorem ofBigEndian_nil : ofBigEndian [] = 0 := rfl

/-- The last octet is the lowest digit. -/
theorem ofBigEndian_concat (bs : Bytes) (b : UInt8) :
    ofBigEndian (bs ++ [b]) = ofBigEndian bs * 256 + b.toNat := by
  simp [ofBigEndian]

/-- Reading and writing again in the same width gives the octets back. -/
theorem bigEndian_ofBigEndian (bs : Bytes) :
    bigEndian bs.length (ofBigEndian bs) = bs := by
  suffices h : ∀ rs : Bytes,
      bigEndian rs.reverse.length (ofBigEndian rs.reverse) = rs.reverse by
    have := h bs.reverse
    rwa [List.reverse_reverse] at this
  intro rs
  induction rs with
  | nil => rfl
  | cons b rs ih =>
      have hb := b.toNat_lt
      have hdiv : (ofBigEndian rs.reverse * 256 + b.toNat) / 256
          = ofBigEndian rs.reverse := by omega
      have hlow : UInt8.ofNat (ofBigEndian rs.reverse * 256 + b.toNat) = b := by
        apply UInt8.toNat_inj.mp
        simp
      rw [List.reverse_cons, ofBigEndian_concat, List.length_append, List.length_singleton,
        bigEndian, hdiv, ih, hlow]

/-- The number whose base-256 digits are the octets, least significant
    first. -/
def ofLittleEndian (bs : Bytes) : Nat := ofBigEndian bs.reverse

/-- The last `width` base-256 digits of `n`, least significant first. -/
def littleEndian (width n : Nat) : Bytes := (bigEndian width n).reverse

/-! ## Blocks -/

/-- Exactly `n` octets. -/
structure Block (n : Nat) where
  bytes : Bytes
  length_eq : bytes.length = n
deriving DecidableEq, Repr

namespace Block

variable {n : Nat}

@[ext] theorem ext {a b : Block n} (h : a.bytes = b.bytes) : a = b := by
  cases a
  cases b
  cases h
  rfl

/-- The octets as a block, when there are exactly `n` of them. -/
def ofBytes? (n : Nat) (bs : Bytes) : Option (Block n) :=
  if h : bs.length = n then some ⟨bs, h⟩ else none

/-- The last `n` base-256 digits of a number. -/
def ofNat (n : Nat) (value : Nat) : Block n :=
  ⟨bigEndian n value, length_bigEndian n value⟩

/-- The number a block spells. -/
def toNat (b : Block n) : Nat := ofBigEndian b.bytes

/-- The block of zeros stands where any block will do. -/
instance : Inhabited (Block n) := ⟨ofNat n 0⟩

@[simp] theorem ofNat_toNat (b : Block n) : ofNat n b.toNat = b := by
  apply ext
  have h := bigEndian_ofBigEndian b.bytes
  rw [b.length_eq] at h
  exact h

@[simp] theorem ofBytes?_bytes (b : Block n) : ofBytes? n b.bytes = some b := by
  simp [ofBytes?, b.length_eq]

/-- Only the octets of a block are accepted as one. -/
theorem ofBytes?_eq_some_iff {bs : Bytes} {b : Block n} :
    ofBytes? n bs = some b ↔ b.bytes = bs := by
  constructor
  · intro h
    unfold ofBytes? at h
    split at h
    · cases h
      rfl
    · cases h
  · intro h
    subst h
    exact ofBytes?_bytes b

end Block

/-- Addresses, token ids and recipients: 32 octets. -/
abbrev Bytes32 := Block 32

/-- The octets of a text in UTF-8. -/
def utf8 (s : String) : Bytes := s.toUTF8.data.toList

end BridgeGuardian
