import BridgeGuardian.Bytes

/-! # The curve secp256k1 — recovering a public key from a signature

    The curve `y² = x³ + 7` over the field of `p` elements, with the base
    point `g` of prime order `n`.  Points are kept in Jacobian coordinates
    `(x, y, z)`, which stand for the affine point `(x / z², y / z³)`; the
    neutral element has `z = 0`.

    `recover` finds the key under which `(r, s)` is a signature of a
    digest: the recovery id tells which of the points with the abscissa
    `r` (or `r + n`) was used, and the key must verify the signature it
    was recovered from, with `s` in the lower half. -/

namespace BridgeGuardian.Secp256k1

/-- The number of elements of the field. -/
def p : Nat := Nat.pow 2 256 - Nat.pow 2 32 - 977

/-- The order of the base point. -/
def n : Nat := 0xfffffffffffffffffffffffffffffffebaaedce6af48a03bbfd25e8cd0364141

/-- Square and multiply over the bits below `bits`, highest first. -/
def powerBits (modulus base exponent : Nat) : (bits : Nat) → (acc : Nat) → Nat
  | 0, acc => acc
  | bits + 1, acc =>
      let squared := acc * acc % modulus
      powerBits modulus base exponent bits
        (if exponent.testBit bits then squared * base % modulus else squared)

/-- A power modulo a number, for exponents below `2 ^ 256`. -/
def power (modulus base exponent : Nat) : Nat := powerBits modulus base exponent 256 1

/-- The inverse modulo a prime below `2 ^ 256`. -/
def inverse (prime a : Nat) : Nat := power prime a (prime - 2)

/-- The difference in the field. -/
def sub (a b : Nat) : Nat := (a + p - b) % p

/-- A point in Jacobian coordinates. -/
structure Point where
  x : Nat
  y : Nat
  z : Nat
deriving DecidableEq, Repr

/-- The neutral element. -/
def Point.zero : Point := ⟨1, 1, 0⟩

/-- The base point. -/
def g : Point where
  x := 0x79be667ef9dcbbac55a06295ce870b07029bfcdb2dce28d959f2815b16f81798
  y := 0x483ada7726a3c4655da4fbfc0e1108a8fd17b448a68554199c47d08ffb10d4b8
  z := 1

/-- The sum of a point with itself. -/
def Point.double (a : Point) : Point :=
  let yy := a.y * a.y % p
  let s := 4 * a.x * yy % p
  let m := 3 * a.x * a.x % p
  let x := sub (m * m % p) (2 * s % p)
  let y := sub (m * sub s x % p) (8 * yy * yy % p)
  ⟨x, y, 2 * a.y * a.z % p⟩

/-- The sum of two points. -/
def Point.add (a b : Point) : Point :=
  if a.z = 0 then b
  else if b.z = 0 then a
  else
    let za := a.z * a.z % p
    let zb := b.z * b.z % p
    let ua := a.x * zb % p
    let ub := b.x * za % p
    let sa := a.y * b.z % p * zb % p
    let sb := b.y * a.z % p * za % p
    if ua = ub then
      if sa = sb then a.double else Point.zero
    else
      let h := sub ub ua
      let r := sub sb sa
      let hh := h * h % p
      let hhh := h * hh % p
      let v := ua * hh % p
      let x := sub (sub (r * r % p) hhh) (2 * v % p)
      let y := sub (r * sub v x % p) (sa * hhh % p)
      ⟨x, y, h * a.z % p * b.z % p⟩

/-- Double and add over the bits below `bits`, highest first. -/
def mulBits (k : Nat) (a : Point) : (bits : Nat) → (acc : Point) → Point
  | 0, acc => acc
  | bits + 1, acc =>
      let doubled := acc.double
      mulBits k a bits (if k.testBit bits then doubled.add a else doubled)

/-- A multiple of a point, for factors below `2 ^ 256`. -/
def mul (k : Nat) (a : Point) : Point := mulBits k a 256 Point.zero

/-- The affine coordinates, unless the point is neutral. -/
def Point.affine? (a : Point) : Option (Nat × Nat) :=
  if a.z = 0 then none
  else
    let inv := inverse p a.z
    let inv2 := inv * inv % p
    some (a.x * inv2 % p, a.y * inv2 % p * inv % p)

/-- The point with a given abscissa and the given parity of the
    ordinate. -/
def liftX? (x : Nat) (odd : Bool) : Option Point :=
  if p ≤ x then none
  else
    let square := (x * x % p * x + 7) % p
    let y := power p square ((p + 1) / 4)
    if y * y % p ≠ square then none
    else some ⟨x, if (y % 2 = 1) = odd then y else (p - y) % p, 1⟩

/-- Whether `(r, s)` with `s` in the lower half is a signature of `z`
    under the key `q`. -/
def verifies (z r s : Nat) (q : Point) : Bool :=
  if n / 2 < s then false
  else
    let w := inverse n s
    match ((mul (z * w % n) g).add (mul (r * w % n) q)).affine? with
    | none => false
    | some (x, _) => x % n == r

/-- The affine key that signed the digest `z`. -/
def recover (z r s : Nat) (recoveryId : Nat) : Option (Nat × Nat) := do
  let point ← liftX? (if recoveryId ≥ 2 then r + n else r) (recoveryId % 2 = 1)
  let w := inverse n r
  let key := (mul ((n - z % n) * w % n) g).add (mul (s * w % n) point)
  let (x, y) ← key.affine?
  if verifies (z % n) r s ⟨x, y, 1⟩ then some (x, y) else none

end BridgeGuardian.Secp256k1
