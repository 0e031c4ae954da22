/-! # Numerals — unsigned decimal numbers within a limit

    A numeral is an optional plus sign followed by ASCII digits; leading
    zeros are fine.  The digits are read from the left and the first fault
    decides: a character that is no digit, or the digit with which the
    value leaves the limit. -/

namespace BridgeGuardian.Text

/-- Why a text is no numeral. -/
inductive NumeralFault
  | empty
  | notDigit
  | tooLarge
deriving DecidableEq, Repr

/-- The wording of a fault. -/
def NumeralFault.message : NumeralFault → String
  | .empty => "cannot parse integer from empty string"
  | .notDigit => "invalid digit found in string"
  | .tooLarge => "number too large to fit in target type"

/-- The value of an ASCII decimal digit. -/
def digitValue? (c : Char) : Option Nat :=
  if 48 ≤ c.toNat ∧ c.toNat ≤ 57 then some (c.toNat - 48) else none

/-- Read digits onto the value of the digits before them. -/
def readDigits (limit : Nat) : (value : Nat) → List Char → Except NumeralFault Nat
  | value, [] => .ok value
  | value, c :: rest =>
      match digitValue? c with
      | none => .error .notDigit
      | some d =>
          if limit < value * 10 + d then .error .tooLarge
          else readDigits limit (value * 10 + d) rest

/-- Read a numeral whose value is at most `limit`. -/
def readNumeral (limit : Nat) (text : String) : Except NumeralFault Nat :=
  match text.toList with
  | [] => .error .empty
  | ['+'] => .error .notDigit
  | '+' :: digits => readDigits limit 0 digits
  | digits => readDigits limit 0 digits

/-- A numeral for a number of at most 16 bits. -/
def readUInt16 (text : String) : Except NumeralFault UInt16 :=
  UInt16.ofNat <$> readNumeral (UInt16.size - 1) text

/-- A numeral for a number of at most 32 bits. -/
def readUInt32 (text : String) : Except NumeralFault UInt32 :=
  UInt32.ofNat <$> readNumeral (UInt32.size - 1) text

/-- A numeral for a number of at most 64 bits. -/
def readUInt64 (text : String) : Except NumeralFault UInt64 :=
  UInt64.ofNat <$> readNumeral (UInt64.size - 1) text

end BridgeGuardian.Text
