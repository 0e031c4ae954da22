import BridgeGuardian.Table
import BridgeGuardian.Text.Alphanumeric
import BridgeGuardian.Text.Blank

/-! # Environment files — definitions of variables, line by line

    A line is a name, an equals sign and a value, with `export` in front if
    one likes; blank lines and lines that begin with `#` define nothing.  A
    value ends at a blank, behind which only a comment may follow.  Between
    double quotes a blank is part of the value, between single quotes every
    character is; a quoted value may go on in the next line.  Outside
    single quotes a backslash escapes, and a dollar sign names a variable
    whose value is inserted.

    Variables that are set keep their value, so the first definition
    counts.  A line that makes no sense spoils the file. -/

namespace BridgeGuardian

/-- The values of variables. -/
abbrev Environment := Table String String

/-- What stands behind a beginning of a text. -/
def behind? : (beginning text : List Char) → Option (List Char)
  | [], text => some text
  | _ :: _, [] => none
  | b :: beginning, c :: text => if b = c then behind? beginning text else none

/-- Look a name up.  A variable is kept as the text of its name, an equals
    sign and its value, and what counts is that the text begins with the
    name looked up and an equals sign; the rest of the text is found. -/
def Environment.lookUp (env : Environment) (name : List Char) : Option (List Char) :=
  env.findSome? fun (key, value) => behind? (name ++ ['=']) (key.toList ++ '=' :: value.toList)

namespace EnvironmentFile

/-! ## Lines -/

/-- Cut a text behind every line feed. -/
def cutLines : List Char → List (List Char)
  | [] => []
  | '\n' :: rest => ['\n'] :: cutLines rest
  | c :: rest =>
      match cutLines rest with
      | [] => [[c]]
      | line :: lines =>
          (c :: line) :: lines

/-- Where the end of a line would find its reader. -/
inductive LineState
  | plain
  | blank
  | escape
  | double
  | doubleEscape
  | single
  | singleEscape
deriving DecidableEq, Repr

/-- The state behind a character outside quotes. -/
def LineState.outside (c : Char) : LineState :=
  match c with
  | '\\' => .escape
  | '"' => .double
  | '\'' => .single
  | _ => .plain

/-- The state behind a character. -/
def LineState.next (state : LineState) (c : Char) : LineState :=
  match state with
  | .plain =>
      if Text.isBlank c && c != '\n' && c != '\r' then .blank else LineState.outside c
  | .blank => LineState.outside c
  | .escape => .plain
  | .double => if c = '\\' then .doubleEscape else if c = '"' then .plain else .double
  | .doubleEscape => .double
  | .single => if c = '\\' then .singleEscape else if c = '\'' then .plain else .single
  | .singleEscape => .single

/-- Go through a line, of which `front` has been read, the latest first;
    what stands in front of a comment, or the state at the end. -/
def scanLine (front : List Char) (state : LineState) : List Char → List Char ⊕ LineState
  | [] => .inr state
  | c :: rest =>
      if state = .blank ∧ c = '#' then .inl front.reverse
      else scanLine (c :: front) (state.next c) rest

/-- A line without the line feed at its end, and the carriage return in
    front of that. -/
def dropLineEnd (line : List Char) : List Char :=
  match line.reverse with
  | '\n' :: '\r' :: rest => rest.reverse
  | '\n' :: rest => rest.reverse
  | _ => line

/-- Join the lines of a value that goes on; `before` is what has been
    joined.  Nothing when the file ends inside a value. -/
def joinLines (state : LineState) (before : List Char) :
    List (List Char) → Option (List (List Char))
  | [] => if state = .plain then some [] else none
  | line :: rest =>
      let joined := before ++ line
      if (joined.dropWhile Text.isBlank).head? = some '#' then joinLines .plain [] rest
      else match scanLine [] state line with
        | .inl front => ((before ++ front) :: ·) <$> joinLines .plain [] rest
        | .inr .plain => (dropLineEnd joined :: ·) <$> joinLines .plain [] rest
        | .inr state => joinLines state joined rest

/-! ## Values -/

/-- A variable that is being named. -/
inductive Reference
  | none
  | bare (name : List Char)
  | braced (name : List Char)
deriving DecidableEq, Repr

/-- What has been read of a value. -/
structure ValueState where
  isSingle : Bool
  isDouble : Bool
  isEscaped : Bool
  isEnded : Bool
  reference : Reference
  value : List Char
deriving DecidableEq, Repr

namespace ValueState

/-- Nothing has been read. -/
def start : ValueState := ⟨false, false, false, false, .none, []⟩

/-- Add a character. -/
def push (s : ValueState) (c : Char) : ValueState := { s with value := s.value ++ [c] }

/-- Insert the value of a variable; one that is not set is empty. -/
def insertVariable (s : ValueState) (env : Environment) (name : List Char) : ValueState :=
  let inserted := (Environment.lookUp env name).getD []
  { s with value := s.value ++ inserted, reference := .none }

/-- An escaped character. -/
def unescape (s : ValueState) (c : Char) : Option ValueState :=
  let s := { s with isEscaped := false }
  if c = '\\' ∨ c = '\'' ∨ c = '"' ∨ c = '$' ∨ c = ' ' then some (s.push c)
  else if c = 'n' then some (s.push '\n')
  else none

/-- A character behind a dollar sign. -/
def nameChar (s : ValueState) (env : Environment) (c : Char) : ValueState :=
  match s.reference with
  | .none => s
  | .bare name =>
      if Text.isAlphanumeric c then { s with reference := .bare (name ++ [c]) }
      else if c = '\x7b' ∧ name = [] then { s with reference := .braced [] }
      else
        let s := s.insertVariable env name
        if c = '$' then { s with reference := .bare [] } else s.push c
  | .braced name =>
      if c = '\x7d' then s.insertVariable env name
      else { s with reference := .braced (name ++ [c]) }

/-- A character that is none of the above. -/
def plainChar (s : ValueState) (c : Char) : ValueState :=
  if c = '$' then { s with reference := .bare [] }
  else if c = '\\' then { s with isEscaped := true }
  else if s.isDouble then
    if c = '"' then { s with isDouble := false } else s.push c
  else if c = '\'' then { s with isSingle := true }
  else if c = '"' then { s with isDouble := true }
  else if c = ' ' ∨ c = '\t' then { s with isEnded := true }
  else s.push c

/-- The value, unless a quote or a name is still open. -/
def finish (s : ValueState) (env : Environment) : Option (List Char) :=
  if s.isSingle ∨ s.isDouble then none
  else match s.reference with
    | .none => some s.value
    | .bare name => some (s.insertVariable env name).value
    | .braced _ => none

/-- Read the rest of a value. -/
def read (s : ValueState) (env : Environment) : List Char → Option (List Char)
  | [] => s.finish env
  | c :: rest =>
      if s.isEnded then
        if c = ' ' ∨ c = '\t' then s.read env rest
        else if c = '#' then s.finish env
        else none
      else if s.isEscaped then
        match s.unescape c with
        | some s => s.read env rest
        | none => none
      else if s.isSingle then
        (if c = '\'' then { s with isSingle := false } else s.push c).read env rest
      else if s.reference ≠ .none then (s.nameChar env c).read env rest
      else (s.plainChar c).read env rest

end ValueState

/-! ## Definitions -/

/-- The characters behind the blanks in front. -/
def skipBlanks (text : List Char) : List Char := text.dropWhile Text.isBlank

/-- Whether a character may stand in a name. -/
def isNameChar (c : Char) : Bool := c.isAlphanum || c == '_' || c == '.'

/-- Read a name and the blanks behind it. -/
def scanName : List Char → Option (List Char × List Char)
  | [] => none
  | c :: rest =>
      if c.isAlpha || c == '_' then
        let text := c :: rest
        some (text.takeWhile isNameChar, skipBlanks (text.dropWhile isNameChar))
      else none

/-- Read a name up to and with the equals sign; `export` may stand in front
    of the name or be the name. -/
def scanHead (text : List Char) : Option (List Char × List Char) :=
  match scanName text with
  | none => none
  | some (name, '=' :: rest) => some (name, rest)
  | some (name, rest) =>
      if name = "export".toList then
        match scanName rest with
        | some (name, '=' :: rest) => some (name, rest)
        | _ => none
      else none

/-- Read the definition on a line, if there is one. -/
def readLine (env : Environment) (line : List Char) : Option (Option (String × String)) :=
  let text := skipBlanks ((line.reverse.dropWhile Text.isBlank).reverse)
  if text.isEmpty ∨ text.head? = some '#' then some none
  else match scanHead text with
    | none => none
    | some (name, rest) =>
        let rest := skipBlanks rest
        if rest.isEmpty ∨ rest.head? = some '#' then some (some (String.ofList name, ""))
        else match ValueState.start.read env rest with
          | some value => some (some (String.ofList name, String.ofList value))
          | none => none

/-- Take over the definitions of lines in order. -/
def define (env : Environment) : List (List Char) → Option Environment
  | [] => some env
  | line :: rest =>
      match readLine env line with
      | none => none
      | some none => define env rest
      | some (some (name, value)) => define (env.putNew name value) rest

/-- The text without the mark of its encoding in front. -/
def dropMark : List Char → List Char
  | c :: rest => if c.toNat = 0xfeff then rest else c :: rest
  | [] => []

/-- Take over the definitions of a file; nothing if it makes no sense. -/
def apply (env : Environment) (text : String) : Option Environment :=
  match joinLines .plain [] (cutLines (dropMark text.toList)) with
  | none => none
  | some lines => define env lines

end EnvironmentFile

end BridgeGuardian
