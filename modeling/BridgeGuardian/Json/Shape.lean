import BridgeGuardian.Json.Embedded

/-! # JSON shapes — reading typed data off a JSON value

    A shape takes a value in reading order and stops at the first fault:
    the text makes no sense, or it makes sense but says the wrong thing.
    Containers may be nested up to a depth, which is counted only where
    the content is read.

    A record is an object with known fields: unknown fields are skipped
    without being understood, a repeated known field is a fault, and `null`
    stands for nothing but an optional value.  A record may also be written
    as the array of its fields in order, where fields with a default may be
    missing at the end. -/

namespace BridgeGuardian.Json

/-- Why a text is not the data it is read as. -/
inductive Fault
  | illFormed
  | mismatch
deriving DecidableEq, Repr

/-- Reading data, with the number of containers that may still be
    opened. -/
abbrev Shape (α : Type) := (depth : Nat) → Json → Except Fault α

namespace Shape

variable {α : Type}

/-- The fault of finding a value where data of another kind is due.
    Scalars are looked at before that is noticed, containers are not. -/
def unexpected : Json → Fault
  | .broken => .illFormed
  | .string none => .illFormed
  | .number n => if n.isFinite then .mismatch else .illFormed
  | _ => .mismatch

/-- A text. -/
def text : Shape String
  | _, .string (some s) => .ok s
  | _, v => .error (unexpected v)

/-- A truth value. -/
def bool : Shape Bool
  | _, .bool b => .ok b
  | _, v => .error (unexpected v)

/-- An integer between two bounds. -/
def integer (low high : Int) : Shape Int
  | _, .number (.integer n) => if low ≤ n ∧ n ≤ high then .ok n else .error .mismatch
  | _, v => .error (unexpected v)

/-- An unsigned integer of 8 bits. -/
def uint8 : Shape UInt8 := fun depth v =>
  (integer 0 (UInt8.size - 1) depth v).map fun n => UInt8.ofNat n.toNat

/-- An unsigned integer of 16 bits. -/
def uint16 : Shape UInt16 := fun depth v =>
  (integer 0 (UInt16.size - 1) depth v).map fun n => UInt16.ofNat n.toNat

/-- An unsigned integer of 32 bits. -/
def uint32 : Shape UInt32 := fun depth v =>
  (integer 0 (UInt32.size - 1) depth v).map fun n => UInt32.ofNat n.toNat

/-- An unsigned integer of 64 bits. -/
def uint64 : Shape UInt64 := fun depth v =>
  (integer 0 (UInt64.size - 1) depth v).map fun n => UInt64.ofNat n.toNat

/-- A signed integer of 32 bits. -/
def int32 : Shape Int32 := fun depth v =>
  (integer Int32.minValue.toInt Int32.maxValue.toInt depth v).map Int32.ofInt

/-- Data or `null`. -/
def optional (item : Shape α) : Shape (Option α)
  | _, .null => .ok none
  | depth, v => (item depth v).map some

/-- An array of data. -/
def list (item : Shape α) : Shape (List α)
  | depth, .array items =>
      if depth = 0 then .error .illFormed else items.mapM (item (depth - 1))
  | _, v => .error (unexpected v)

/-- Any data, in canonical form and with nothing embedded in it. -/
def any : Shape Json := fun depth v =>
  if v.isSound depth then
    match v.resolve? with
    | some v => .ok v.canonical
    | none => .error .mismatch
  else .error .illFormed

/-- Understand a value as a whole before reading it. -/
def whole (shape : Shape α) : Shape α := fun depth v =>
  if v.isSound depth then (shape depth v).mapError fun _ => .mismatch else .error .illFormed

/-- Interpret data further. -/
def refine {β : Type} (shape : Shape α) (f : α → Option β) : Shape β := fun depth v => do
  let a ← shape depth v
  match f a with
  | some b => return b
  | none => throw .mismatch

/-! ## Records -/

/-- A known field and how its value is checked. -/
structure Slot where
  name : String
  check : (depth : Nat) → Json → Except Fault Unit

/-- A known field of a shape. -/
def slot (name : String) (shape : Shape α) : Slot :=
  ⟨name, fun depth v => (shape depth v).map fun _ => ()⟩

/-- Go through the fields of an object in order; `seen` are the known ones
    before. -/
def walk (slots : List Slot) (depth : Nat) :
    (seen : List String) → List (JsonText × Json) → Except Fault Unit
  | _, [] => .ok ()
  | _, (none, _) :: _ => .error .illFormed
  | seen, (some key, v) :: rest =>
      match slots.find? fun s => s.name == key with
      | none => if v.isComplete then walk slots depth seen rest else .error .illFormed
      | some s =>
          if seen.contains key then .error .mismatch
          else do
            s.check depth v
            walk slots depth (key :: seen) rest

/-- The fields of a record that has been gone through. -/
structure Found where
  depth : Nat
  fields : List (JsonText × Json)

/-- The value of a field. -/
def Found.get? (found : Found) (name : String) : Option Json :=
  (found.fields.find? fun field => field.1 == some name).map Prod.snd

/-- A field that must be there. -/
def Found.required (found : Found) (name : String) (shape : Shape α) : Except Fault α :=
  match found.get? name with
  | some v => shape found.depth v
  | none => .error .mismatch

/-- A field with a default. -/
def Found.withDefault (found : Found) (name : String) (shape : Shape α) (default : α) :
    Except Fault α :=
  match found.get? name with
  | some v => shape found.depth v
  | none => .ok default

/-- Give the items of an array the names of the fields. -/
def named (slots : List Slot) (items : List Json) : List (JsonText × Json) :=
  slots.zipWith (fun s v => (some s.name, v)) items

/-- A record whose fields fill the slots. -/
def record (slots : List Slot) (fill : Found → Except Fault α) : Shape α
  | 0, .object _ => .error .illFormed
  | 0, .array _ => .error .illFormed
  | depth + 1, .object fields => do
      walk slots depth [] fields
      fill ⟨depth, fields⟩
  | depth + 1, .array items => do
      let fields := named slots items
      walk slots depth [] fields
      let filled ← fill ⟨depth, fields⟩
      if slots.length < items.length then throw .illFormed
      return filled
  | _, v => .error (unexpected v)

/-! ## Choices -/

/-- Go through the fields of a tagged object in order; the tag is looked
    at when it comes, everything else is understood as a whole. -/
def walkTagged {κ : Type} (tagName : String) (kind? : String → Option κ) (depth : Nat) :
    (tag : Option κ) → List (JsonText × Json) → Except Fault (Option κ)
  | tag, [] => .ok tag
  | _, (none, _) :: _ => .error .illFormed
  | tag, (some key, v) :: rest =>
      if key = tagName then
        match tag with
        | some _ => .error .mismatch
        | none => do
            let kind ← refine text kind? depth v
            walkTagged tagName kind? depth (some kind) rest
      else if v.isSound depth then walkTagged tagName kind? depth tag rest
      else .error .illFormed

/-- One of several records, told apart by a tag that may stand anywhere
    among the fields, or first in an array. -/
def tagged {κ : Type} (tagName : String) (kind? : String → Option κ) (shapeOf : κ → Shape α) :
    Shape α
  | 0, .object _ => .error .illFormed
  | 0, .array _ => .error .illFormed
  | depth + 1, .object fields => do
      match ← walkTagged tagName kind? depth none fields with
      | none => throw .mismatch
      | some kind =>
          let others := fields.filter fun field => field.1 != some tagName
          (shapeOf kind (depth + 1) (.object others)).mapError fun _ => .mismatch
  | _ + 1, .array [] => .error .mismatch
  | depth + 1, .array (tag :: others) => do
      let kind ← refine text kind? depth tag
      whole (shapeOf kind) (depth + 1) (.array others)
  | _, v => .error (unexpected v)

/-- A name out of a list, written as a string or as an object with this one
    key and the value `null`. -/
def oneOf (named? : String → Option α) : Shape α
  | 0, .object _ => .error .illFormed
  | _ + 1, .object [] => .error .mismatch
  | _ + 1, .object ((none, _) :: _) => .error .illFormed
  | _ + 1, .object ((some key, v) :: rest) =>
      match named? key with
      | none => .error .mismatch
      | some a =>
          match v with
          | .null => if rest.isEmpty then .ok a else .error .illFormed
          | v => .error (unexpected v)
  | depth, .string s => refine text named? depth (.string s)
  | _, v => .error (unexpected v)

end Shape

/-- Read a text as data of a shape, with nothing behind it. -/
def decode {α : Type} (shape : Shape α) (text : String) : Except Fault α := do
  let document := parse text
  let a ← shape maximalDepth document.value
  if document.isFollowed then throw .illFormed
  return a

end BridgeGuardian.Json
