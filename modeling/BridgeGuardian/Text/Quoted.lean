import BridgeGuardian.Text.Unprintable

/-! # Quoted text — a text or a character shown between quotes

    Diagnostics show user-given texts between double quotes and single
    characters between single quotes.  The enclosing quote, the backslash
    and four control characters have a two-character spelling, every other
    unprintable character is written by its code point in hexadecimal. -/

namespace BridgeGuardian.Text

/-- The lowercase hexadecimal spelling of a number without leading
    zeros. -/
def hexNumeral (n : Nat) : String := String.ofList (Nat.toDigits 16 n)

/-- One character of a quoted text; `quote` is the enclosing quote. -/
def quoteInside (quote c : Char) : String :=
  if c = quote then String.ofList ['\\', c]
  else match c with
    | '\\' => "\\\\"
    | '\n' => "\\n"
    | '\r' => "\\r"
    | '\t' => "\\t"
    | '\x00' => "\\0"
    | c =>
        if isUnprintable c.toNat then "\\u\x7b" ++ hexNumeral c.toNat ++ "\x7d"
        else c.toString

/-- A text between double quotes. -/
def quote (text : String) : String :=
  "\"" ++ String.join (text.toList.map (quoteInside '"')) ++ "\""

/-- A character between single quotes. -/
def quoteChar (c : Char) : String :=
  "'" ++ quoteInside '\'' c ++ "'"

end BridgeGuardian.Text
