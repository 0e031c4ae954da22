import BridgeGuardian.Coordinate
import BridgeGuardian.Failure
import BridgeGuardian.Json.Shape

/-! # Recovery requests — what operators ask for

    A request names an emitter by a wide chain number and a hexadecimal
    address, which are checked in this order before anything else
    happens. -/

namespace BridgeGuardian

open Json (Shape)
open Json.Shape

/-- Accept a chain number; `field` is what it is called. -/
def ChainId.ofRequest (field : String) (wide : UInt32) : Except Failure ChainId :=
  match ChainId.ofUInt32? wide with
  | some chain => .ok chain
  | none => .error (.invalid s!"invalid {field}: {wide.toNat}")

/-- Accept an emitter. -/
def Emitter.ofRequest (chain : UInt32) (address : String) : Except Failure Emitter :=
  match ChainId.ofRequest "emitter_chain" chain with
  | .error failure => .error failure
  | .ok chain =>
      match Bytes32.read address with
      | .error fault => .error (.invalid s!"invalid emitter address encoding: {fault.message}")
      | .ok address => .ok ⟨chain, address⟩

/-- Which messages of an emitter are missing, after asking peers for them
    if so wished. -/
structure MissingRequest where
  emitterChain : UInt32
  emitterAddress : String
  asksPeers : Bool
  peers : List String
deriving DecidableEq, Repr

/-- The shape of a request for missing messages; every field may be
    left out. -/
def MissingRequest.shape : Shape MissingRequest :=
  record [slot "emitter_chain" uint32, slot "emitter_address" text, slot "rpc_backfill" bool,
      slot "backfill_nodes" (list text)] fun found => do
    return ⟨← found.withDefault "emitter_chain" uint32 0,
      ← found.withDefault "emitter_address" text "",
      ← found.withDefault "rpc_backfill" bool false,
      ← found.withDefault "backfill_nodes" (list text) []⟩

/-- Undo the transfer with a sequence number of an emitter, by a governance
    message with another sequence number. -/
structure UndoRequest where
  emitterChain : UInt32
  emitterAddress : String
  sequence : UInt64
  governanceSequence : UInt64
  peers : List String
deriving DecidableEq, Repr

/-- The shape of a request to undo a transfer. -/
def UndoRequest.shape : Shape UndoRequest :=
  record [slot "emitter_chain" uint32, slot "emitter_address" text, slot "sequence" uint64,
      slot "gov_sequence" uint64, slot "backfill_nodes" (list text)] fun found => do
    return ⟨← found.required "emitter_chain" uint32, ← found.required "emitter_address" text,
      ← found.required "sequence" uint64, ← found.required "gov_sequence" uint64,
      ← found.withDefault "backfill_nodes" (list text) []⟩

/-- What is still missing of an emitter's messages. -/
structure MissingReport where
  missing : List Coordinate
  first : UInt64
  last : UInt64
deriving DecidableEq, Repr

/-- The value of a report. -/
def MissingReport.toJson (r : MissingReport) : Json :=
  .record [("missing_messages", .array (r.missing.map fun c => .text c.path)),
    ("first_sequence", .nat r.first.toNat), ("last_sequence", .nat r.last.toNat)]

end BridgeGuardian
