import BridgeGuardian.Json.Parser

/-! # Embedded texts — values that are written as the text of a value

    A reserved key marks a value that is given by its text: an object that
    begins with the key holds one string and nothing else, and stands for
    the value that the string spells.  That value may hold embedded texts
    in its turn.  Behind another key the reserved one means nothing. -/

namespace BridgeGuardian.Json

/-- The reserved key. -/
def embeddingKey : String := "$serde_json::private::RawValue"

/-- How deeply containers may be nested in texts from outside. -/
def maximalDepth : Nat := 127

/-- What an object with the given fields embeds, if it begins with the
    reserved key: a text, unless something else is in its place. -/
def embedding? : List (JsonText × Json) → Option JsonText
  | (some key, v) :: rest =>
      if key = embeddingKey then
        match v, rest with
        | .string text, [] => some text
        | _, _ => some none
      else none
  | _ => none

mutual

/-- Replace what is embedded by the values that `read` finds in the
    texts. -/
def replaceEmbedded (read : String → Option Json) : Json → Option Json
  | .array items => .array <$> replaceInItems read items
  | .object fields =>
      match embedding? fields with
      | some text => text.bind read
      | none => .object <$> replaceInFields read fields
  | v => some v

/-- Replace what is embedded in items. -/
def replaceInItems (read : String → Option Json) : List Json → Option (List Json)
  | [] => some []
  | v :: rest => do
      let v ← replaceEmbedded read v
      let rest ← replaceInItems read rest
      return v :: rest

/-- Replace what is embedded in fields. -/
def replaceInFields (read : String → Option Json) :
    List (JsonText × Json) → Option (List (JsonText × Json))
  | [] => some []
  | (key, v) :: rest => do
      let v ← replaceEmbedded read v
      let rest ← replaceInFields read rest
      return (key, v) :: rest

end

/-- The value of an embedded text, in which texts may be embedded `levels`
    deep. -/
def readEmbedded : (levels : Nat) → String → Option Json
  | 0, _ => none
  | levels + 1, text =>
      let document := parse text
      if !document.isFollowed && document.value.isSound maximalDepth then
        replaceEmbedded (readEmbedded levels) document.value
      else none

mutual

/-- The length of all strings in a value together. -/
def textLength : Json → Nat
  | .string (some s) => s.length
  | .array items => itemsTextLength items
  | .object fields => fieldsTextLength fields
  | _ => 0

/-- The length of all strings in items together. -/
def itemsTextLength : List Json → Nat
  | [] => 0
  | v :: rest => textLength v + itemsTextLength rest

/-- The length of all strings in the values of fields together. -/
def fieldsTextLength : List (JsonText × Json) → Nat
  | [] => 0
  | (_, v) :: rest => textLength v + fieldsTextLength rest

end

/-- The value with nothing embedded in it.  A text is longer than the texts
    embedded in it, so that there are fewer levels than characters. -/
def resolve? (v : Json) : Option Json := replaceEmbedded (readEmbedded (textLength v)) v

end BridgeGuardian.Json
