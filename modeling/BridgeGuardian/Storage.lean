import BridgeGuardian.Archive

/-! # Storage — asking an archive that may be out of reach

    Services reach the archive only through the queries listed here.  The
    archive may be held in memory, where every query succeeds, or by a
    database that does not answer.  A database has no room for numbers
    above 2⁶³ − 1, and this is noticed before it is asked. -/

namespace BridgeGuardian

/-- What can be asked of an archive. -/
inductive StoreQuery
  | vaa (c : Coordinate)
  | storeVaa (c : Coordinate) (bytes : Bytes)
  | gaps (e : Emitter)
  | localWrapper (token : Bytes32) (chain : ChainId)
  | remoteWrapper (token : Bytes32)
  | addLocalWrapper (token : Bytes32) (chain : ChainId) (wrapper : Bytes32)
  | addRemoteWrapper (token wrapper : Bytes32)
  | addUndone (chain : ChainId) (sequences : List UInt64)
  | undone (chain : ChainId)
  | markExecuting (chain : ChainId) (sequence : UInt64)
  | nextIndex (contract : String)
  | setNextIndex (contract : String) (index : UInt64)
deriving DecidableEq, Repr

namespace StoreQuery

/-- What a successful query yields. -/
abbrev Result : StoreQuery → Type
  | .vaa _ => Option Bytes
  | .storeVaa _ _ => Unit
  | .gaps _ => GapReport
  | .localWrapper _ _ => Option Bytes32
  | .remoteWrapper _ => Option Bytes32
  | .addLocalWrapper _ _ _ => Unit
  | .addRemoteWrapper _ _ => Unit
  | .addUndone _ _ => Unit
  | .undone _ => List UInt64
  | .markExecuting _ _ => Bool
  | .nextIndex _ => Option UInt64
  | .setNextIndex _ _ => Unit

/-- Answer a query from an archive. -/
def answer (a : Archive) : (q : StoreQuery) → q.Result × Archive
  | .vaa c => (a.vaa? c, a)
  | .storeVaa c bytes => ((), a.storeVaa c bytes)
  | .gaps e => (a.gaps e, a)
  | .localWrapper token chain => (a.localWrapper? token chain, a)
  | .remoteWrapper token => (a.remoteWrapper? token, a)
  | .addLocalWrapper token chain wrapper => ((), a.addLocalWrapper token chain wrapper)
  | .addRemoteWrapper token wrapper => ((), a.addRemoteWrapper token wrapper)
  | .addUndone chain sequences => ((), a.addUndone chain sequences)
  | .undone chain => (a.undone chain, a)
  | .markExecuting chain sequence => a.markExecuting chain sequence
  | .nextIndex contract => (a.nextIndex? contract, a)
  | .setNextIndex contract index => ((), a.setNextIndex contract index)

/-- The numbers that a database has to hold to answer a query, in the order
    in which they are handed to it. -/
def numbers : StoreQuery → List UInt64
  | .vaa c => [c.sequence]
  | .storeVaa c _ => [c.sequence]
  | .addUndone _ sequences => sequences
  | .markExecuting _ sequence => [sequence]
  | .setNextIndex _ index => [index]
  | _ => []

/-- What is said about a query that failed. -/
def attempt : StoreQuery → String
  | .vaa c => s!"Failed to get signed VAA {c}"
  | .storeVaa c _ => s!"Failed to store signed VAA {c}"
  | .gaps _ => "Failed to get emitter sequence range"
  | .localWrapper _ _ => "Failed to get local token wrapper"
  | .remoteWrapper _ => "Failed to get remote token wrapper"
  | .addLocalWrapper _ _ _ => "Failed to add local token wrapper"
  | .addRemoteWrapper _ _ => "Failed to add remote token wrapper"
  | .addUndone _ _ => "Failed to add undone sequences"
  | .undone chain => s!"Failed to get undone sequences for chain {chain}"
  | .markExecuting chain sequence =>
      s!"Failed to set sequence {sequence.toNat} executing for chain {chain}"
  | .nextIndex _ => "Failed to get contract event index"
  | .setNextIndex contract _ => s!"Failed to update event index for contract {contract}"

end StoreQuery

/-- Why a database does not answer. -/
inductive Outage
  | poolTimeout
  | connection (reason : String)
deriving DecidableEq, Repr

/-- The wording of an outage. -/
def Outage.message : Outage → String
  | .poolTimeout => "pool timed out while waiting for an open connection"
  | .connection reason => s!"error communicating with database: {reason}: {reason}"

/-- Why a query has no result. -/
inductive StoreFault
  | outOfRange (number : UInt64)
  | unavailable (attempt : String) (outage : Outage)
  | refused (reason : String)
deriving DecidableEq, Repr

/-- The wording of a fault, from what was attempted to what went wrong. -/
def StoreFault.message : StoreFault → String
  | .outOfRange number => s!"sequence {number.toNat} exceeds database range"
  | .unavailable attempt outage => attempt ++ ": " ++ outage.message
  | .refused reason => reason

/-- Where the archive is kept. -/
inductive Storage
  | memory (archive : Archive)
  | database (outage : Outage)
deriving DecidableEq, Repr

namespace Storage

/-- The greatest number a database can hold. -/
def greatestNumber : Nat := UInt64.size / 2 - 1

/-- Ask a database that does not answer. -/
def askUnreachable (outage : Outage) (q : StoreQuery) : StoreFault :=
  match q.numbers.find? fun number => greatestNumber < number.toNat with
  | some number => .outOfRange number
  | none => .unavailable q.attempt outage

/-- Ask the archive, wherever it is. -/
def answer (s : Storage) (q : StoreQuery) : Except StoreFault q.Result × Storage :=
  match s with
  | .memory archive =>
      let (result, archive) := q.answer archive
      (.ok result, .memory archive)
  | .database outage => (.error (askUnreachable outage q), s)

/-- How far the undoing of a transfer has come; only memory can tell. -/
def undoStatus? (s : Storage) (chain : ChainId) (sequence : UInt64) : Option UndoStatus :=
  match s with
  | .memory archive => archive.undoStatus? chain sequence
  | .database _ => none

end Storage

end BridgeGuardian
