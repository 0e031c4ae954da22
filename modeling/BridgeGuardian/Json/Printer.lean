import BridgeGuardian.Json.Basic

/-! # Printing JSON — the compact form

    No blanks between tokens; in strings, quotes, backslashes and control
    characters are escaped and everything else is written as it is. -/

namespace BridgeGuardian.Json

/-- A hexadecimal digit. -/
def hexDigit (n : Nat) : Char := Char.ofNat (if n < 10 then n + 48 else n + 87)

/-- One character of a string. -/
def printChar (c : Char) : List Char :=
  match c with
  | '"' => ['\\', '"']
  | '\\' => ['\\', '\\']
  | '\x08' => ['\\', 'b']
  | '\x0c' => ['\\', 'f']
  | '\n' => ['\\', 'n']
  | '\r' => ['\\', 'r']
  | '\t' => ['\\', 't']
  | c =>
      if c.toNat < 32 then ['\\', 'u', '0', '0', hexDigit (c.toNat / 16), hexDigit (c.toNat % 16)]
      else [c]

/-- A string between quotes. -/
def printString (s : String) : String :=
  "\"" ++ String.ofList (s.toList.flatMap printChar) ++ "\""

/-- A number; a double keeps an exponent so that it stays one. -/
def printNumber : JsonNumber → String
  | .integer value => toString value
  | .decimal negative digits exponent =>
      let (digits, exponent) :=
        match Double.ofDecimal? digits exponent with
        | some d => d.shortest
        | none => (digits, exponent)
      (if negative then "-" else "") ++ toString digits ++ "e" ++ toString exponent

mutual

/-- Put the text of a value behind a text. -/
def printOnto (front : String) : Json → String
  | .null => front ++ "null"
  | .bool true => front ++ "true"
  | .bool false => front ++ "false"
  | .number n => front ++ printNumber n
  | .string s => front ++ printString (s.getD "")
  | .array items => printItems (front ++ "[") items ++ "]"
  | .object fields => printFields (front ++ "\x7b") fields ++ "\x7d"
  | .broken => front

/-- Put items between commas behind a text. -/
def printItems (front : String) : List Json → String
  | [] => front
  | [v] => printOnto front v
  | v :: w :: rest => printItems (printOnto front v ++ ",") (w :: rest)

/-- Put fields between commas behind a text. -/
def printFields (front : String) : List (JsonText × Json) → String
  | [] => front
  | [(k, v)] => printOnto (front ++ printString (k.getD "") ++ ":") v
  | (k, v) :: f :: rest =>
      printFields (printOnto (front ++ printString (k.getD "") ++ ":") v ++ ",") (f :: rest)

end

/-- The text of a value. -/
def print (v : Json) : String := printOnto "" v

end BridgeGuardian.Json
