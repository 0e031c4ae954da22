/-! # Media types — what a body is declared to be

    A media type is two tokens with a slash between them, and parameters
    behind semicolons; the last semicolon need not be followed by one.  It
    declares JSON when it is `application/json`, whatever suffix it has, or
    an application type with the suffix `+json`, in any case. -/

namespace BridgeGuardian.Http.MediaType

/-- Whether a character may stand in a token. -/
def isTokenChar (c : Char) : Bool := c.isAlphanum || "!#$%&'*+-.^_`|~".toList.contains c

/-- Whether a character may stand between quotes. -/
def isQuotedChar (c : Char) : Bool := 31 < c.toNat && c.toNat < 127

/-- A token in front of a text, of at least one character. -/
def token? (text : List Char) : Option (List Char × List Char) :=
  let token := text.takeWhile isTokenChar
  if token.isEmpty then none else some (token, text.dropWhile isTokenChar)

/-- The text behind a quoted value and the blanks that follow it.  The value
    has at least one character, and only the first can be a quote. -/
def behindQuoted? : List Char → Option (List Char)
  | [] => none
  | c :: text =>
      let inside := fun c => isQuotedChar c && c != '"'
      match isQuotedChar c, text.dropWhile inside with
      | true, '"' :: rest => some (rest.dropWhile (· == ' '))
      | _, _ => none

/-- The text behind a value, which may be missing at the end of the text
    only. -/
def behindValue? : List Char → Option (List Char)
  | [] => some []
  | '"' :: text => behindQuoted? text
  | text => (token? text).map Prod.snd

/-- Whether a text is a list of parameters, at most `fuel` of them; the
    first semicolon is behind. -/
def areParameters : (fuel : Nat) → List Char → Bool
  | 0, _ => false
  | fuel + 1, text =>
      match text.dropWhile (· == ' ') with
      | [] => true
      | text =>
          match token? text with
          | some (_, '=' :: rest) =>
              match behindValue? rest with
              | some [] => true
              | some (';' :: rest) => areParameters fuel rest
              | _ => false
          | _ => false

/-- The parts of a token in front of its last plus sign and behind it; a
    plus sign that stands in front of everything does not count. -/
def splitSuffix (token : List Char) : List Char × Option (List Char) :=
  let suffix := (token.reverse.takeWhile (· != '+')).reverse
  match (token.reverse.dropWhile (· != '+')).reverse with
  | first :: second :: rest => ((first :: second :: rest).dropLast, some suffix)
  | _ => (token, none)

/-- Whether a media type declares JSON. -/
def isJson (text : String) : Bool :=
  match token? text.toList with
  | some (main, '/' :: rest) =>
      let sub := rest.takeWhile isTokenChar
      let isValid :=
        match rest.dropWhile isTokenChar with
        | [] => true
        | ';' :: rest => !sub.isEmpty && areParameters (rest.length + 1) rest
        | _ => false
      let lower := fun cs : List Char => String.ofList (cs.map Char.toLower)
      let (name, suffix) := splitSuffix sub
      isValid && lower main == "application"
        && (lower name == "json" || suffix.any fun s => lower s == "json")
  | _ => false

end BridgeGuardian.Http.MediaType
