import BridgeGuardian.Bytes

/-! # Base 64 — octets as characters of six bits

    Three octets are four characters; `=` fills the last group, and the
    bits behind the last octet are zero.  Every octet string has one such
    spelling, and only this one is read. -/

namespace BridgeGuardian.Base64

/-- The value of a character. -/
def digitValue? (c : Char) : Option Nat :=
  let n := c.toNat
  if 65 ≤ n ∧ n ≤ 90 then some (n - 65)
  else if 97 ≤ n ∧ n ≤ 122 then some (n - 71)
  else if 48 ≤ n ∧ n ≤ 57 then some (n + 4)
  else if c = '+' then some 62
  else if c = '/' then some 63
  else none

/-- The character of a value below 64. -/
def digit (value : Nat) : Char :=
  if value < 26 then Char.ofNat (value + 65)
  else if value < 52 then Char.ofNat (value + 71)
  else if value < 62 then Char.ofNat (value - 4)
  else if value = 62 then '+' else '/'

/-- Write octets in groups of three. -/
def encodeChars : Bytes → List Char
  | [] => []
  | [a] => [digit (a.toNat / 4), digit (a.toNat % 4 * 16), '=', '=']
  | [a, b] =>
      [digit (a.toNat / 4), digit (a.toNat % 4 * 16 + b.toNat / 16), digit (b.toNat % 16 * 4), '=']
  | a :: b :: c :: rest =>
      digit (a.toNat / 4) :: digit (a.toNat % 4 * 16 + b.toNat / 16)
        :: digit (b.toNat % 16 * 4 + c.toNat / 64) :: digit (c.toNat % 64) :: encodeChars rest

/-- Write octets. -/
def encode (bytes : Bytes) : String := String.ofList (encodeChars bytes)

/-- Read characters in groups of four. -/
def decodeChars : List Char → Option Bytes
  | [] => some []
  | [w, x, '=', '='] => do
      let w ← digitValue? w
      let x ← digitValue? x
      if x % 16 = 0 then some [UInt8.ofNat (w * 4 + x / 16)] else none
  | [w, x, y, '='] => do
      let w ← digitValue? w
      let x ← digitValue? x
      let y ← digitValue? y
      if y % 4 = 0 then
        some [UInt8.ofNat (w * 4 + x / 16), UInt8.ofNat (x % 16 * 16 + y / 4)]
      else none
  | w :: x :: y :: z :: rest => do
      let w ← digitValue? w
      let x ← digitValue? x
      let y ← digitValue? y
      let z ← digitValue? z
      let others ← decodeChars rest
      some (UInt8.ofNat (w * 4 + x / 16) :: UInt8.ofNat (x % 16 * 16 + y / 4)
        :: UInt8.ofNat (y % 4 * 64 + z) :: others)
  | _ => none

/-- Read a text. -/
def decode (text : String) : Option Bytes := decodeChars text.toList

end BridgeGuardian.Base64
