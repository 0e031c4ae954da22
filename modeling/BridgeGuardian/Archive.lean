import BridgeGuardian.Coordinate
import BridgeGuardian.Gap
import BridgeGuardian.Table

/-! # The archive — what a guardian remembers

    Five tables: signed messages by coordinate, where the first bytes stay
    for good; wrappers of tokens, where the last one counts; how far the
    undoing of each transfer has come; and how far the events of each
    contract have been read.

    A transfer is undone at most once: `markExecuting` succeeds for a pair
    of chain and sequence number exactly the first time. -/

namespace BridgeGuardian

/-- How far the undoing of a transfer has come. -/
inductive UndoStatus
  | undone
  | executing
deriving DecidableEq, Repr

/-- The word for a status. -/
def UndoStatus.name : UndoStatus → String
  | .undone => "undone"
  | .executing => "executing"

/-- The status a word names. -/
def UndoStatus.named? : String → Option UndoStatus
  | "undone" => some .undone
  | "executing" => some .executing
  | _ => none

/-- Everything a guardian remembers. -/
structure Archive where
  vaas : Table Coordinate Bytes
  localWrappers : Table (Bytes32 × ChainId) Bytes32
  remoteWrappers : Table Bytes32 Bytes32
  undoing : Table (ChainId × UInt64) UndoStatus
  eventIndexes : Table String UInt64
deriving DecidableEq, Repr

namespace Archive

/-- The archive of a guardian that has seen nothing. -/
def empty : Archive := ⟨[], [], [], [], []⟩

/-! ## Signed messages -/

/-- The bytes of a message. -/
def vaa? (a : Archive) (c : Coordinate) : Option Bytes := a.vaas.get? c

/-- Keep the bytes of a message, unless some are kept already. -/
def storeVaa (a : Archive) (c : Coordinate) (bytes : Bytes) : Archive :=
  { a with vaas := a.vaas.putNew c bytes }

/-- The stored sequence numbers of an emitter. -/
def sequences (a : Archive) (e : Emitter) : List UInt64 :=
  (a.vaas.filter fun entry => entry.1.emitter == e).map fun entry => entry.1.sequence

/-- What is missing between the stored messages of an emitter. -/
def gaps (a : Archive) (e : Emitter) : GapReport := .ofSequences (a.sequences e)

/-! ## Wrappers -/

/-- The wrapper of a local token on a remote chain. -/
def localWrapper? (a : Archive) (token : Bytes32) (chain : ChainId) : Option Bytes32 :=
  a.localWrappers.get? (token, chain)

/-- The local wrapper of a remote token. -/
def remoteWrapper? (a : Archive) (token : Bytes32) : Option Bytes32 :=
  a.remoteWrappers.get? token

/-- Register the wrapper of a local token on a remote chain. -/
def addLocalWrapper (a : Archive) (token : Bytes32) (chain : ChainId) (wrapper : Bytes32) :
    Archive :=
  { a with localWrappers := a.localWrappers.put (token, chain) wrapper }

/-- Register the local wrapper of a remote token. -/
def addRemoteWrapper (a : Archive) (token wrapper : Bytes32) : Archive :=
  { a with remoteWrappers := a.remoteWrappers.put token wrapper }

/-! ## Transfers to undo -/

/-- How far the undoing of a transfer has come, if it is known at all. -/
def undoStatus? (a : Archive) (chain : ChainId) (sequence : UInt64) : Option UndoStatus :=
  a.undoing.get? (chain, sequence)

/-- Note that transfers are to be undone; what has begun stays begun. -/
def addUndone (a : Archive) (chain : ChainId) (sequences : List UInt64) : Archive :=
  { a with
    undoing := sequences.foldl (fun t sequence => t.putNew (chain, sequence) .undone) a.undoing }

/-- The transfers still to be undone, ascending. -/
def undone (a : Archive) (chain : ChainId) : List UInt64 :=
  ((a.undoing.filter fun entry => entry.1.1 == chain && entry.2 == .undone).map
    fun entry => entry.1.2).mergeSort (· ≤ ·)

/-- Begin to undo a transfer; `false` when somebody has begun before. -/
def markExecuting (a : Archive) (chain : ChainId) (sequence : UInt64) : Bool × Archive :=
  if a.undoStatus? chain sequence = some .executing then (false, a)
  else (true, { a with undoing := a.undoing.put (chain, sequence) .executing })

/-! ## Event indexes -/

/-- The next event of a contract, if any cycle has come to its end. -/
def nextIndex? (a : Archive) (contract : String) : Option UInt64 := a.eventIndexes.get? contract

/-- Note the next event of a contract. -/
def setNextIndex (a : Archive) (contract : String) (index : UInt64) : Archive :=
  { a with eventIndexes := a.eventIndexes.put contract index }

end Archive

end BridgeGuardian
