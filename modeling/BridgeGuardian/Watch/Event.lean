import BridgeGuardian.Json.Shape
import BridgeGuardian.Text.Numeral

/-! # Events and blocks — what the node tells about a contract

    The node answers in JSON with camel-case names.  A list of events comes
    bare or inside a record that names the chain; heights and timestamps
    come as integers or as texts that hold a numeral. -/

namespace BridgeGuardian.Watch

open Json (Shape)
open Json.Shape

/-- A value that an event carries. -/
structure EventField where
  kind : String
  value : Json
deriving Repr

/-- What a contract emitted. -/
structure Event where
  blockHash : String
  contractAddress : String
  transaction : String
  indexInBlock : Int32
  fields : List EventField
deriving Repr

/-- Events of a contract on the chain between two groups. -/
structure EventList where
  chainFrom : UInt32
  chainTo : UInt32
  events : List Event
deriving Repr

/-- A block's place in its chain. -/
structure BlockHeader where
  hash : String
  timestamp : UInt64
  chainFrom : UInt32
  chainTo : UInt32
  height : UInt64
deriving DecidableEq, Repr

/-! ## Shapes -/

/-- A number, or a text that holds its numeral. -/
def number : Shape UInt64 := whole fun depth v =>
  match v with
  | .string (some s) =>
      match Text.readUInt64 s with
      | .ok n => .ok n
      | .error _ => .error .mismatch
  | v => uint64 depth v

namespace EventField

/-- The value of a field. -/
def toJson (f : EventField) : Json := .record [("type", .text f.kind), ("value", f.value)]

/-- The shape of a field. -/
def shape : Shape EventField :=
  record [slot "type" text, slot "value" any] fun found => do
    return ⟨← found.required "type" text, ← found.required "value" any⟩

end EventField

namespace Event

/-- The value of an event. -/
def toJson (e : Event) : Json :=
  .record [("blockHash", .text e.blockHash), ("contractAddress", .text e.contractAddress),
    ("txId", .text e.transaction), ("eventIndex", .number (.integer e.indexInBlock.toInt)),
    ("fields", .array (e.fields.map EventField.toJson))]

/-- The shape of an event; everything behind the contract may be left
    out. -/
def shape : Shape Event :=
  record [slot "blockHash" text, slot "contractAddress" text, slot "txId" text,
      slot "eventIndex" int32, slot "fields" (list EventField.shape)] fun found => do
    return ⟨← found.required "blockHash" text, ← found.required "contractAddress" text,
      ← found.withDefault "txId" text "", ← found.withDefault "eventIndex" int32 0,
      ← found.withDefault "fields" (list EventField.shape) []⟩

end Event

namespace EventList

/-- The shape of events inside a record. -/
def shape : Shape EventList :=
  record [slot "chainFrom" uint32, slot "chainTo" uint32, slot "events" (list Event.shape)]
    fun found => do
      return ⟨← found.withDefault "chainFrom" uint32 0, ← found.withDefault "chainTo" uint32 0,
        ← found.withDefault "events" (list Event.shape) []⟩

/-- The shape of a reply with events: inside a record or bare. -/
def reply : Shape (List Event) := whole fun depth v =>
  match shape depth v with
  | .ok wrapped => .ok wrapped.events
  | .error _ => list Event.shape depth v

end EventList

namespace BlockHeader

/-- The value of a header. -/
def toJson (h : BlockHeader) : Json :=
  .record [("hash", .text h.hash), ("timestamp", .nat h.timestamp.toNat),
    ("chainFrom", .nat h.chainFrom.toNat), ("chainTo", .nat h.chainTo.toNat),
    ("height", .nat h.height.toNat)]

/-- The shape of a header; everything but the hash may be left out. -/
def shape : Shape BlockHeader :=
  record [slot "hash" text, slot "timestamp" number, slot "chainFrom" uint32,
      slot "chainTo" uint32, slot "height" number] fun found => do
    return ⟨← found.required "hash" text, ← found.withDefault "timestamp" number 0,
      ← found.withDefault "chainFrom" uint32 0, ← found.withDefault "chainTo" uint32 0,
      ← found.withDefault "height" number 0⟩

end BlockHeader

/-- The shape of a reply about a chain: its height. -/
def heightReply : Shape UInt64 :=
  record [slot "currentHeight" number] fun found => found.required "currentHeight" number

end BridgeGuardian.Watch
