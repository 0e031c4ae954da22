import BridgeGuardian.Json.Token

/-! # Parsing JSON — from tokens to a value

    The tokens drive a machine whose stack holds the containers that are
    still open.  When a token does not fit, or the tokens end too early,
    the open containers are closed around `broken`. -/

namespace BridgeGuardian.Json

/-- A container that is still open, with what it holds so far, the latest
    first. -/
inductive Frame
  | array (before : List Json)
  | object (before : List (JsonText × Json)) (key : JsonText)

/-- What the machine waits for. -/
inductive Expecting
  /-- A value. -/
  | value
  /-- A value, or the end of the array just opened. -/
  | firstItem
  /-- A key; the end of the object too, if it was just opened. -/
  | key (before : List (JsonText × Json)) (isFirst : Bool)
  /-- The colon behind a key. -/
  | colon (before : List (JsonText × Json)) (key : JsonText)
  /-- A separator or the end of the container around a value. -/
  | next (value : Json)

/-- A token where a value is due. -/
def Expecting.onValue (stack : List Frame) : Token → Option (Expecting × List Frame)
  | .scalar v => some (.next v, stack)
  | .beginArray => some (.firstItem, .array [] :: stack)
  | .beginObject => some (.key [] true, stack)
  | _ => none

/-- One token; nothing when it does not fit. -/
def Expecting.step (state : Expecting) (stack : List Frame) (token : Token) :
    Option (Expecting × List Frame) :=
  match state, stack, token with
  | .firstItem, .array before :: outer, .endArray => some (.next (.array before.reverse), outer)
  | .firstItem, stack, token => Expecting.onValue stack token
  | .value, stack, token => Expecting.onValue stack token
  | .key before true, stack, .endObject => some (.next (.object before.reverse), stack)
  | .key before _, stack, .scalar (.string k) => some (.colon before k, stack)
  | .colon before k, stack, .colon => some (.value, .object before k :: stack)
  | .next v, .array before :: outer, .comma => some (.value, .array (v :: before) :: outer)
  | .next v, .array before :: outer, .endArray =>
      some (.next (.array (v :: before).reverse), outer)
  | .next v, .object before k :: outer, .comma => some (.key ((k, v) :: before) false, outer)
  | .next v, .object before k :: outer, .endObject =>
      some (.next (.object ((k, v) :: before).reverse), outer)
  | _, _, _ => none

/-- Close the open containers around a value. -/
def closeAround (inner : Json) : List Frame → Json
  | [] => inner
  | .array before :: outer => closeAround (.array (inner :: before).reverse) outer
  | .object before k :: outer => closeAround (.object ((k, inner) :: before).reverse) outer

/-- What has been read when the text stops making sense. -/
def Expecting.abandon (state : Expecting) (stack : List Frame) : Json :=
  match state, stack with
  | .value, stack => closeAround .broken stack
  | .firstItem, stack => closeAround .broken stack
  | .key before _, stack => closeAround (.object ((some "", .broken) :: before).reverse) stack
  | .colon before k, stack => closeAround (.object ((k, .broken) :: before).reverse) stack
  | .next v, [] => v
  | .next v, .array before :: outer =>
      closeAround (.array (.broken :: v :: before).reverse) outer
  | .next v, .object before k :: outer =>
      closeAround (.object ((some "", .broken) :: (k, v) :: before).reverse) outer

/-- Run the machine up to the end of one value. -/
def build (state : Expecting) (stack : List Frame) : List Token → Json × List Token
  | [] => (state.abandon stack, [])
  | token :: rest =>
      match state, stack with
      | .next v, [] => (v, token :: rest)
      | state, stack =>
          match state.step stack token with
          | some (state, stack) => build state stack rest
          | none => (state.abandon stack, [])

/-- A parsed text: its value, and whether anything follows it. -/
structure Document where
  value : Json
  isFollowed : Bool

/-- Parse a text. -/
def parse (text : String) : Document :=
  let (value, rest) := build .value [] (tokens text.toList)
  ⟨value, !rest.isEmpty⟩

end BridgeGuardian.Json
