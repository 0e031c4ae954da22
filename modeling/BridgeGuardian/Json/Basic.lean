import BridgeGuardian.Json.Double

/-! # JSON values — as they are written, faults included

    A value keeps what its text says: the fields of an object in their
    order and with their repetitions, and whether a number is written as an
    integer.  Two things a text can hold have no meaning of their own but
    matter to the order in which faults are found: a string whose escapes
    spell no text, and the place from which on the text makes no sense.
    The first is a string without a text, the second is `broken`, which is
    then the last thing in every container around it. -/

namespace BridgeGuardian

/-- A number: an integer of at most 64 bits, or any other numeral as its
    first digits, as many as 64 bits hold, and a power of ten. -/
inductive JsonNumber
  | integer (value : Int)
  | decimal (negative : Bool) (digits : Nat) (exponent : Int)
deriving DecidableEq, Repr

/-- The text of a string, unless its escapes spell none. -/
abbrev JsonText := Option String

/-- A value as it is written. -/
inductive Json
  | null
  | bool (value : Bool)
  | number (value : JsonNumber)
  | string (text : JsonText)
  | array (items : List Json)
  | object (fields : List (JsonText × Json))
  | broken
deriving Repr, Inhabited

namespace JsonNumber

/-- Whether a double can hold the number without becoming infinite. -/
def isFinite : JsonNumber → Bool
  | .integer _ => true
  | .decimal _ digits exponent => (Json.Double.ofDecimal? digits exponent).isSome

end JsonNumber

namespace Json

/-- A string that spells a text. -/
def text (s : String) : Json := .string (some s)

/-- A natural number. -/
def nat (n : Nat) : Json := .number (.integer n)

/-- An object with the given fields. -/
def record (fields : List (String × Json)) : Json :=
  .object (fields.map fun field => (some field.1, field.2))

/-- An optional value; its absence is `null`. -/
def option : Option Json → Json
  | none => .null
  | some v => v

/-- Replace the value of a key, keeping the keys ascending. -/
def insertField (key : String) (value : Json) : List (JsonText × Json) → List (JsonText × Json)
  | [] => [(some key, value)]
  | (none, v) :: rest => (none, v) :: insertField key value rest
  | (some k, v) :: rest =>
      if key < k then (some key, value) :: (some k, v) :: rest
      else if key = k then (some key, value) :: rest
      else (some k, v) :: insertField key value rest

mutual

/-- The value with the keys of every object ascending and, of repeated
    keys, only the last. -/
def canonical : Json → Json
  | .array items => .array (canonicalItems items)
  | .object fields => .object (canonicalFields [] fields)
  | v => v

/-- The items, each in canonical form. -/
def canonicalItems : List Json → List Json
  | [] => []
  | v :: rest => canonical v :: canonicalItems rest

/-- Insert the fields one by one into those before them. -/
def canonicalFields (before : List (JsonText × Json)) :
    List (JsonText × Json) → List (JsonText × Json)
  | [] => before
  | (none, v) :: rest => canonicalFields (before ++ [(none, canonical v)]) rest
  | (some key, v) :: rest => canonicalFields (insertField key (canonical v) before) rest

end

mutual

/-- Whether the text of the value makes sense to its end. -/
def isComplete : Json → Bool
  | .broken => false
  | .array items => itemsComplete items
  | .object fields => fieldsComplete fields
  | _ => true

/-- Whether every item is complete. -/
def itemsComplete : List Json → Bool
  | [] => true
  | v :: rest => isComplete v && itemsComplete rest

/-- Whether every field is complete. -/
def fieldsComplete : List (JsonText × Json) → Bool
  | [] => true
  | (_, v) :: rest => isComplete v && fieldsComplete rest

end

mutual

/-- Whether the value can be held as data: complete, every string a text,
    every number finite, and at most `depth` containers around anything. -/
def isSound (depth : Nat) : Json → Bool
  | .broken => false
  | .string none => false
  | .number n => n.isFinite
  | .array items => depth ≠ 0 && itemsSound (depth - 1) items
  | .object fields => depth ≠ 0 && fieldsSound (depth - 1) fields
  | _ => true

/-- Whether every item is sound. -/
def itemsSound (depth : Nat) : List Json → Bool
  | [] => true
  | v :: rest => isSound depth v && itemsSound depth rest

/-- Whether every field has a text as its key and a sound value. -/
def fieldsSound (depth : Nat) : List (JsonText × Json) → Bool
  | [] => true
  | (key, v) :: rest => key.isSome && isSound depth v && fieldsSound depth rest

end

end Json

end BridgeGuardian
