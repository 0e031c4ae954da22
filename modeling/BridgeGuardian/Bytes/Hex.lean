import BridgeGuardian.Bytes
import BridgeGuardian.Text.Quoted

/-! # Hex — octets as pairs of hexadecimal digits

    Writing uses lowercase digits and no leading mark.  Reading takes the
    digits in any case and looks at the OCTETS of the text: an odd number
    of them is refused before any digit is looked at, and otherwise the
    first octet that is no digit is named together with its position. -/

namespace BridgeGuardian.Hex

/-- Why a text is no hexadecimal spelling. -/
inductive Fault
  | oddLength
  | notDigit (octet : UInt8) (position : Nat)
deriving DecidableEq, Repr

/-- The wording of a fault: an octet is shown as the character with its
    number. -/
def Fault.message : Fault → String
  | .oddLength => "Odd number of digits"
  | .notDigit octet position =>
      s!"Invalid character {Text.quoteChar (Char.ofNat octet.toNat)} at position {position}"

/-- The value of a hexadecimal digit given as an octet of ASCII. -/
def digitValue? (octet : UInt8) : Option Nat :=
  let n := octet.toNat
  if 48 ≤ n ∧ n ≤ 57 then some (n - 48)
  else if 65 ≤ n ∧ n ≤ 70 then some (n - 55)
  else if 97 ≤ n ∧ n ≤ 102 then some (n - 87)
  else none

/-- The lowercase digit of a value below sixteen. -/
def digit (value : Nat) : Char :=
  Char.ofNat (if value < 10 then value + 48 else value + 87)

/-- Read digits pairwise; `position` counts the octets before them. -/
def decodePairs (position : Nat) : Bytes → Except Fault Bytes
  | [] => .ok []
  | [_] => .error .oddLength
  | high :: low :: rest =>
      match digitValue? high, digitValue? low with
      | none, _ => .error (.notDigit high position)
      | some _, none => .error (.notDigit low (position + 1))
      | some h, some l => do
          let bytes ← decodePairs (position + 2) rest
          return UInt8.ofNat (h * 16 + l) :: bytes

/-- Read the octets of a text as hexadecimal digits. -/
def decodeOctets (octets : Bytes) : Except Fault Bytes :=
  if octets.length % 2 = 1 then .error .oddLength else decodePairs 0 octets

/-- Read a text. -/
def decode (text : String) : Except Fault Bytes := decodeOctets (utf8 text)

/-- The two lowercase digits of an octet. -/
def encodeOctet (octet : UInt8) : List Char :=
  [digit (octet.toNat / 16), digit (octet.toNat % 16)]

/-- The lowercase digits of the octets. -/
def encode (bytes : Bytes) : String := String.ofList (bytes.flatMap encodeOctet)

/-- The digits behind the mark `0x`. -/
def encodeMarked (bytes : Bytes) : String := "0x" ++ encode bytes

/-- Drop one leading mark `0x`, if there is one. -/
def dropMark (text : String) : String :=
  match text.toList with
  | '0' :: 'x' :: rest => String.ofList rest
  | _ => text

/-- Drop one leading mark `0x` or `0X`, if there is one. -/
def dropMarkAnyCase (text : String) : String :=
  match text.toList with
  | '0' :: 'x' :: rest => String.ofList rest
  | '0' :: 'X' :: rest => String.ofList rest
  | _ => text

/-- Drop leading marks `0x` as long as there is one. -/
def dropMarks : List Char → List Char
  | '0' :: 'x' :: rest => dropMarks rest
  | text => text

end BridgeGuardian.Hex
