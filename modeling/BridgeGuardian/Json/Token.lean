import BridgeGuardian.Json.Basic
import BridgeGuardian.Text.Numeral

/-! # JSON tokens — the words of a JSON text

    A text is cut into brackets, separators and scalars.  Where no token
    begins, `unreadable` is the last token. -/

namespace BridgeGuardian.Json

/-- A word of a JSON text. -/
inductive Token
  | beginArray
  | endArray
  | beginObject
  | endObject
  | comma
  | colon
  | scalar (value : Json)
  | unreadable

/-! ## Strings -/

/-- A character of a string: written plainly or as the number of a
    16-bit unit. -/
inductive Piece
  | plain (c : Char)
  | unit (n : Nat)

/-- The value of a hexadecimal digit. -/
def hexValue? (c : Char) : Option Nat :=
  let n := c.toNat
  if 48 ≤ n ∧ n ≤ 57 then some (n - 48)
  else if 65 ≤ n ∧ n ≤ 70 then some (n - 55)
  else if 97 ≤ n ∧ n ≤ 102 then some (n - 87)
  else none

/-- The number spelled by four hexadecimal digits. -/
def unit? (a b c d : Char) : Option Nat := do
  let a ← hexValue? a
  let b ← hexValue? b
  let c ← hexValue? c
  let d ← hexValue? d
  return ((a * 16 + b) * 16 + c) * 16 + d

/-- The character of a two-character escape. -/
def escape? : Char → Option Char
  | '"' => some '"'
  | '\\' => some '\\'
  | '/' => some '/'
  | 'b' => some '\x08'
  | 'f' => some '\x0c'
  | 'n' => some '\n'
  | 'r' => some '\r'
  | 't' => some '\t'
  | _ => none

/-- The characters of a string up to the closing quote, and the text
    behind it. -/
def stringPieces : List Char → Option (List Piece × List Char)
  | '"' :: rest => some ([], rest)
  | '\\' :: 'u' :: a :: b :: c :: d :: rest => do
      let n ← unit? a b c d
      let (pieces, rest) ← stringPieces rest
      return (.unit n :: pieces, rest)
  | '\\' :: e :: rest => do
      let c ← escape? e
      let (pieces, rest) ← stringPieces rest
      return (.plain c :: pieces, rest)
  | c :: rest =>
      if c.toNat < 32 ∨ c = '\\' then none
      else do
        let (pieces, rest) ← stringPieces rest
        return (.plain c :: pieces, rest)
  | [] => none

/-- Whether a 16-bit unit is the first half of a pair. -/
def isHighHalf (n : Nat) : Bool := 0xd800 ≤ n && n < 0xdc00

/-- Whether a 16-bit unit is the second half of a pair. -/
def isLowHalf (n : Nat) : Bool := 0xdc00 ≤ n && n < 0xe000

/-- The text that the characters spell; halves must come in pairs. -/
def spell? : List Piece → Option (List Char)
  | [] => some []
  | .plain c :: rest => (c :: ·) <$> spell? rest
  | .unit high :: .unit low :: rest =>
      if isHighHalf high then
        if isLowHalf low then
          (Char.ofNat (0x10000 + (high - 0xd800) * 0x400 + (low - 0xdc00)) :: ·) <$> spell? rest
        else none
      else if isLowHalf high then none
      else (Char.ofNat high :: ·) <$> spell? (.unit low :: rest)
  | .unit n :: rest =>
      if isHighHalf n || isLowHalf n then none else (Char.ofNat n :: ·) <$> spell? rest

/-! ## Numbers -/

/-- Whether a character is an ASCII digit. -/
def isDigit (c : Char) : Bool := (Text.digitValue? c).isSome

/-- The value of a run of digits. -/
def digitsValue (digits : List Char) : Nat :=
  digits.foldl (fun n c => n * 10 + (c.toNat - 48)) 0

/-- Digits in front of a text. -/
def takeDigits (text : List Char) : List Char × List Char :=
  (text.takeWhile isDigit, text.dropWhile isDigit)

/-- The digits behind a decimal point, if there is one. -/
def fraction? : List Char → Option (Option (List Char) × List Char)
  | '.' :: rest =>
      match takeDigits rest with
      | ([], _) => none
      | (digits, rest) => some (some digits, rest)
  | text => some (none, text)

/-- The sign of an exponent and the text behind it. -/
def exponentSign : List Char → Bool × List Char
  | '-' :: rest => (true, rest)
  | '+' :: rest => (false, rest)
  | text => (false, text)

/-- The exponent, if there is one. -/
def exponent? : List Char → Option (Option Int × List Char)
  | [] => some (none, [])
  | c :: rest =>
      if c = 'e' ∨ c = 'E' then
        let (negative, rest) := exponentSign rest
        match takeDigits rest with
        | ([], _) => none
        | (digits, rest) =>
            let value : Int := digitsValue digits
            some (some (if negative then -value else value), rest)
      else some (none, c :: rest)

/-- Put digits behind a number as long as 64 bits hold it; the number and
    the digits that are left. -/
def appendDigits (n : Nat) : List Char → Nat × List Char
  | [] => (n, [])
  | c :: rest =>
      let longer := n * 10 + (c.toNat - 48)
      if longer < UInt64.size then appendDigits longer rest else (n, c :: rest)

/-- The numeral of a sign, the digits in front of the point and behind it,
    and an exponent.  Digits that are left over in front of the point raise
    the exponent, those behind it do not count. -/
def decimalOf (negative : Bool) (whole places : List Char) (exponent : Int) : JsonNumber :=
  let (front, skipped) := appendDigits 0 whole
  let (digits, ignored) := appendDigits front places
  .decimal negative digits (skipped.length - (places.length - ignored.length : Nat) + exponent)

/-- The number that sign and digits spell: an integer where no other part
    is written and 64 bits hold it, with or without a sign bit. -/
def numberOf (negative : Bool) (whole : List Char) (fraction : Option (List Char))
    (exponent : Option Int) : JsonNumber :=
  let n := digitsValue whole
  if fraction.isSome ∨ exponent.isSome then
    decimalOf negative whole (fraction.getD []) (exponent.getD 0)
  else if negative then
    if n ≠ 0 ∧ n ≤ UInt64.size / 2 then .integer (-n) else decimalOf true whole [] 0
  else if n < UInt64.size then .integer n
  else decimalOf false whole [] 0

/-- A number in front of a text, behind its sign. -/
def unsigned? (negative : Bool) (text : List Char) : Option (JsonNumber × List Char) :=
  match takeDigits text with
  | ([], _) => none
  | ('0' :: _ :: _, _) => none
  | (whole, rest) => do
      let (fraction, rest) ← fraction? rest
      let (exponent, rest) ← exponent? rest
      return (numberOf negative whole fraction exponent, rest)

/-- A number in front of a text. -/
def number? : List Char → Option (JsonNumber × List Char)
  | '-' :: rest => unsigned? true rest
  | text => unsigned? false text

/-! ## Texts -/

/-- The scalar in front of a text. -/
def scalar? : List Char → Option (Json × List Char)
  | 't' :: 'r' :: 'u' :: 'e' :: rest => some (.bool true, rest)
  | 'f' :: 'a' :: 'l' :: 's' :: 'e' :: rest => some (.bool false, rest)
  | 'n' :: 'u' :: 'l' :: 'l' :: rest => some (.null, rest)
  | '"' :: rest => do
      let (pieces, rest) ← stringPieces rest
      return (.string ((spell? pieces).map String.ofList), rest)
  | text => do
      let (n, rest) ← number? text
      return (.number n, rest)

/-- The bracket or separator a character is. -/
def mark? : Char → Option Token
  | '[' => some .beginArray
  | ']' => some .endArray
  | '\x7b' => some .beginObject
  | '\x7d' => some .endObject
  | ',' => some .comma
  | ':' => some .colon
  | _ => none

/-- Whether a character may stand between tokens. -/
def isSpace (c : Char) : Bool := c = ' ' || c = '\n' || c = '\t' || c = '\r'

/-- The tokens of a text, at most `fuel` of them and of the spaces between
    them. -/
def tokensWithin : (fuel : Nat) → List Char → List Token
  | 0, _ => []
  | _, [] => []
  | fuel + 1, c :: rest =>
      if isSpace c then tokensWithin fuel rest
      else match mark? c with
        | some token => token :: tokensWithin fuel rest
        | none =>
            match scalar? (c :: rest) with
            | some (value, rest) => .scalar value :: tokensWithin fuel rest
            | none => [.unreadable]

/-- The tokens of a text: each takes at least one character. -/
def tokens (text : List Char) : List Token := tokensWithin text.length text

end BridgeGuardian.Json
