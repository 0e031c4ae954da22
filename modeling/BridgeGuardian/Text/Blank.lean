/-! # Blanks — trimming and comma-separated lists

    A blank is a character with the Unicode property White_Space.  Lists in
    settings are separated by commas; blanks around an item do not belong
    to it, and an item that is nothing but blanks does not count. -/

namespace BridgeGuardian.Text

/-- Characters with the Unicode property White_Space. -/
def isBlank (c : Char) : Bool :=
  let n := c.toNat
  (9 ≤ n && n ≤ 13) || n == 0x20 || n == 0x85 || n == 0xa0 || n == 0x1680
    || (0x2000 ≤ n && n ≤ 0x200a) || n == 0x2028 || n == 0x2029 || n == 0x202f
    || n == 0x205f || n == 0x3000

/-- The characters without the blanks at both ends. -/
def trimChars (cs : List Char) : List Char :=
  ((cs.dropWhile isBlank).reverse.dropWhile isBlank).reverse

/-- The text without the blanks at both ends. -/
def trim (text : String) : String := String.ofList (trimChars text.toList)

/-- The text without the characters at its end that are the given one. -/
def dropTrailing (last : Char) (text : String) : String :=
  String.ofList ((text.toList.reverse.dropWhile (· == last)).reverse)

/-- The pieces between the separators; there is always at least one. -/
def splitChars (separator : Char) : List Char → List (List Char)
  | [] => [[]]
  | c :: rest =>
      match splitChars separator rest with
      | [] => [[c]]
      | piece :: pieces =>
          if c = separator then [] :: piece :: pieces else (c :: piece) :: pieces

/-- The items of a comma-separated list. -/
def listItems (text : String) : List String :=
  ((splitChars ',' text.toList).map trimChars).filterMap fun piece =>
    if piece.isEmpty then none else some (String.ofList piece)

end BridgeGuardian.Text
