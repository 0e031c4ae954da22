import BridgeGuardian.Table
import BridgeGuardian.Watch.Event

/-! # Confirmation — which events are final

    An event is settled when enough blocks lie on top of its own.  Of a
    list of events only the settled ones in front count: those in the main
    chain are confirmed, the others are dropped for good, and the first
    event that is not settled ends the list. -/

namespace BridgeGuardian.Watch

/-- An event with its place in the contract's stream and what the node says
    about its block. -/
structure ClassifiedEvent where
  index : UInt64
  event : Event
  header : BlockHeader
  isCanonical : Bool
deriving Repr

/-- The value of a classified event. -/
def ClassifiedEvent.toJson (e : ClassifiedEvent) : Json :=
  .record [("index", .nat e.index.toNat), ("event", e.event.toJson), ("header", e.header.toJson),
    ("canonical", .bool e.isCanonical)]

/-- An event that is final. -/
structure ConfirmedEvent where
  index : UInt64
  event : Event
deriving Repr

/-- The value of a confirmed event. -/
def ConfirmedEvent.toJson (e : ConfirmedEvent) : Json :=
  .record [("index", .nat e.index.toNat), ("event", e.event.toJson)]

/-- Whether enough blocks lie on top of a block; above the current height
    there are none. -/
def isSettled (minConfirmations blockHeight currentHeight : UInt64) : Bool :=
  minConfirmations.toNat ≤ currentHeight.toNat - blockHeight.toNat

/-- The current height of each chain. -/
abbrev Heights := Table (UInt32 × UInt32) UInt64

/-- The chain of a block, by the groups it connects. -/
def BlockHeader.chain (h : BlockHeader) : UInt32 × UInt32 := (h.chainFrom, h.chainTo)

/-- Whether an event is final for all that is known; without the height of
    its chain only if no blocks on top are needed. -/
def ClassifiedEvent.isFinal (minConfirmations : UInt64) (heights : Heights) (e : ClassifiedEvent) :
    Bool :=
  match heights.get? e.header.chain with
  | some current => isSettled minConfirmations e.header.height current
  | none => minConfirmations = 0

/-- What a list of events comes to. -/
structure Confirmation where
  confirmed : List ConfirmedEvent
  dropped : Nat
  nextIndex : UInt64
  isStopped : Bool
deriving Repr

/-- Go through events in order; `next` is the index behind those before. -/
def confirm (minConfirmations : UInt64) (heights : Heights) :
    (next : UInt64) → List ClassifiedEvent → Confirmation
  | next, [] => ⟨[], 0, next, false⟩
  | next, e :: rest =>
      if e.isFinal minConfirmations heights then
        let others := confirm minConfirmations heights (e.index + 1) rest
        if e.isCanonical then { others with confirmed := ⟨e.index, e.event⟩ :: others.confirmed }
        else { others with dropped := others.dropped + 1 }
      else ⟨[], 0, next, true⟩

end BridgeGuardian.Watch
