import BridgeGuardian.Bytes

/-! # Keccak-256 — the hash under every digest of the bridge

    The sponge over the permutation Keccak-f[1600] with a rate of 136
    octets, the padding that starts with `01` and ends with `80`, and 32
    octets squeezed out.  A state is the list of its 25 lanes, lane `x, y`
    at position `x + 5 * y`. -/

namespace BridgeGuardian.Keccak

/-- The 25 lanes of a state. -/
abbrev State := List UInt64

/-- Rotate a lane towards its high end. -/
def rotate (lane : UInt64) (by_ : Nat) : UInt64 :=
  (lane <<< UInt64.ofNat by_) ||| (lane >>> UInt64.ofNat (64 - by_))

/-- The rotation of each lane, by position. -/
def rotations : List Nat :=
  [0, 1, 62, 28, 27, 36, 44, 6, 55, 20, 3, 10, 43, 25, 39, 41, 45, 15, 21, 8, 18, 2, 61, 56, 14]

/-- The constant mixed into lane zero, by round. -/
def roundConstants : List UInt64 :=
  [0x0000000000000001, 0x0000000000008082, 0x800000000000808a, 0x8000000080008000,
   0x000000000000808b, 0x0000000080000001, 0x8000000080008081, 0x8000000000008009,
   0x000000000000008a, 0x0000000000000088, 0x0000000080008009, 0x000000008000000a,
   0x000000008000808b, 0x800000000000008b, 0x8000000000008089, 0x8000000000008003,
   0x8000000000008002, 0x8000000000000080, 0x000000000000800a, 0x800000008000000a,
   0x8000000080008081, 0x8000000000008080, 0x0000000080000001, 0x8000000080008008]

/-- The lane at a position. -/
def lane (s : State) (i : Nat) : UInt64 := s.getD i 0

/-- Mix the parity of two neighbouring columns into every lane. -/
def theta (s : State) : State :=
  let columns := (List.range 5).map fun x =>
    lane s x ^^^ lane s (x + 5) ^^^ lane s (x + 10) ^^^ lane s (x + 15) ^^^ lane s (x + 20)
  let mixed := (List.range 5).map fun x =>
    lane columns ((x + 4) % 5) ^^^ rotate (lane columns ((x + 1) % 5)) 1
  (List.range 25).map fun i => lane s i ^^^ lane mixed (i % 5)

/-- Rotate every lane and move it to its new position. -/
def rhoPi (s : State) : State :=
  (List.range 25).map fun i =>
    let x := i % 5
    let y := i / 5
    let source := (x + 3 * y) % 5 + 5 * x
    rotate (lane s source) (rotations.getD source 0)

/-- Combine every lane with the two to its right in the same row. -/
def chi (s : State) : State :=
  (List.range 25).map fun i =>
    let row := i - i % 5
    lane s i ^^^ ((~~~ lane s (row + (i + 1) % 5)) &&& lane s (row + (i + 2) % 5))

/-- Mix a round constant into lane zero. -/
def iota (constant : UInt64) : State → State
  | [] => []
  | first :: rest => (first ^^^ constant) :: rest

/-- The permutation: 24 rounds. -/
def permute (s : State) : State :=
  roundConstants.foldl (fun s constant => iota constant (chi (rhoPi (theta s)))) s

/-- Octets absorbed per permutation. -/
def rate : Nat := 136

/-- Complete a message to whole blocks. -/
def pad (message : Bytes) : Bytes :=
  let missing := rate - message.length % rate
  if missing = 1 then message ++ [0x81]
  else message ++ [0x01] ++ List.replicate (missing - 2) 0 ++ [0x80]

/-- Read octets as lanes, eight octets each, least significant first. -/
def lanesOf : (count : Nat) → Bytes → List UInt64
  | 0, _ => []
  | count + 1, bs => UInt64.ofNat (ofLittleEndian (bs.take 8)) :: lanesOf count (bs.drop 8)

/-- Mix a block into the first 17 lanes. -/
def absorbBlock (s : State) (block : Bytes) : State :=
  let lanes := lanesOf 17 block
  permute ((List.range 25).map fun i => lane s i ^^^ lane lanes i)

/-- Absorb `count` blocks. -/
def absorb : (count : Nat) → State → Bytes → State
  | 0, s, _ => s
  | count + 1, s, bs => absorb count (absorbBlock s (bs.take rate)) (bs.drop rate)

/-- The state after a whole message. -/
def sponge (message : Bytes) : State :=
  let padded := pad message
  absorb (padded.length / rate) (List.replicate 25 0) padded

/-- The lanes squeezed out, as octets. -/
def squeeze (s : State) : Bytes :=
  (List.range 4).flatMap fun i => littleEndian 8 (lane s i).toNat

theorem length_squeeze (s : State) : (squeeze s).length = 32 := by
  simp [squeeze, littleEndian, List.range_succ]

/-- The Keccak-256 digest of a message. -/
def hash (message : Bytes) : Bytes32 := ⟨squeeze (sponge message), length_squeeze _⟩

/-- The digest of the digest, which is what guardians sign. -/
def doubleHash (message : Bytes) : Bytes32 := hash (hash message).bytes

end BridgeGuardian.Keccak
