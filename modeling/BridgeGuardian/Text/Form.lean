import BridgeGuardian.Bytes

/-! # Form text — names and values in the query of an address

    Letters, digits and `*-._` stand for themselves, a space is a plus
    sign, and every other octet of the UTF-8 form is a percent sign with
    two hexadecimal digits. -/

namespace BridgeGuardian.Text

/-- An uppercase hexadecimal digit. -/
def upperDigit (n : Nat) : Char := Char.ofNat (if n < 10 then n + 48 else n + 55)

/-- Whether an octet stands for itself. -/
def isFormPlain (octet : UInt8) : Bool :=
  let n := octet.toNat
  (48 ≤ n && n ≤ 57) || (65 ≤ n && n ≤ 90) || (97 ≤ n && n ≤ 122)
    || n == 42 || n == 45 || n == 46 || n == 95

/-- The form of an octet. -/
def formOctet (octet : UInt8) : List Char :=
  if octet = 32 then ['+']
  else if isFormPlain octet then [Char.ofNat octet.toNat]
  else ['%', upperDigit (octet.toNat / 16), upperDigit (octet.toNat % 16)]

/-- The form of a text. -/
def formText (text : String) : String := String.ofList ((utf8 text).flatMap formOctet)

/-- Names and values as a query; nothing when there are none. -/
def formQuery (fields : List (String × String)) : String :=
  match fields with
  | [] => ""
  | fields => "?" ++ "&".intercalate (fields.map fun f => formText f.1 ++ "=" ++ formText f.2)

end BridgeGuardian.Text
