import BridgeGuardian.Program
import BridgeGuardian.Telemetry.Measurement
import BridgeGuardian.Watch.Confirmation
import BridgeGuardian.Watch.Node

/-! # Watch cycles — reading the events of a contract

    A cycle reads the index of the next event, asks the node how many there
    are, and goes through the new ones batch by batch: it classifies each
    event by its block and keeps the settled ones in front.  What is
    confirmed goes to the consumer in one piece, and the index behind it is
    the result.  A cycle that fails on the way delivers nothing. -/

namespace BridgeGuardian.Watch

/-- Final events of a contract, and the index behind them. -/
structure Batch where
  contract : String
  events : List ConfirmedEvent
  nextIndex : UInt64
deriving Repr

/-- The value of a batch. -/
def Batch.toJson (b : Batch) : Json :=
  .record [("contract", .text b.contract), ("next_index", .nat b.nextIndex.toNat),
    ("events", .array (b.events.map ConfirmedEvent.toJson))]

namespace Surroundings

/-- What a watcher asks of the world. -/
inductive Query
  /-- Read the index of the next event. -/
  | readIndex (contract : String)
  /-- Keep the index of the next event. -/
  | writeIndex (contract : String) (index : UInt64)
  /-- Ask the node. -/
  | node (q : NodeQuery)
  /-- Hand events to the consumer. -/
  | deliver (batch : Batch)
  /-- Wait for a number of milliseconds. -/
  | pause (milliseconds : UInt64)
  /-- Report a measurement. -/
  | record (m : Measurement)

/-- What an answer looks like; texts say why something went wrong. -/
abbrev Query.Answer : Query → Type
  | .readIndex _ => Except String (Option UInt64)
  | .writeIndex _ _ => Except String Unit
  | .node q => Except WatchFailure q.Result
  | .deliver _ => Except String Unit
  | .pause _ => Pause
  | .record _ => Unit

end Surroundings

/-- The surroundings of a watcher. -/
def Surroundings : Interface := ⟨Surroundings.Query, Surroundings.Query.Answer⟩

/-- Ask one thing. -/
def Surroundings.ask (q : Surroundings.Query) : Program Surroundings q.Answer :=
  Program.ask q Program.done

/-- A part of a watch cycle. -/
abbrev Step := ExceptT WatchFailure (Program Surroundings)

namespace Step

/-- Ask the node. -/
def node (q : NodeQuery) : Step q.Result :=
  ExceptT.mk (Surroundings.ask (.node q))

/-- Read the index of the next event. -/
def readIndex (contract : String) : Step (Option UInt64) := ExceptT.mk do
  let answer : Except String (Option UInt64) ←
    Surroundings.ask (.readIndex contract)
  return answer.mapError .store

/-- Hand events to the consumer. -/
def deliver (batch : Batch) : Step Unit := ExceptT.mk do
  let answer : Except String Unit ← Surroundings.ask (.deliver batch)
  return answer.mapError .consumer

/-- Report a measurement. -/
def record (m : Measurement) : Step Unit :=
  ExceptT.lift (Surroundings.ask (.record m))

/-- The outcome as data. -/
def outcome {α : Type} (step : Step α) : Program Surroundings (Except WatchFailure α) := step

end Step

/-! ## Classification -/

/-- What the node says about a block. -/
structure BlockStatus where
  header : BlockHeader
  isCanonical : Bool
deriving DecidableEq, Repr

/-- Ask about a block. -/
def lookUp (hash : String) : Step BlockStatus := do
  let header ← Step.node (.header hash)
  let isCanonical ← Step.node (.isInMainChain hash)
  return ⟨header, isCanonical⟩

/-- Classify events; the node is asked about each block once, and `known`
    are the answers so far. -/
def classifyFrom (known : Table String BlockStatus) :
    List (UInt64 × Event) → Step (List ClassifiedEvent)
  | [] => return []
  | (index, event) :: rest => do
      match known.get? event.blockHash with
      | some block =>
          let others ← classifyFrom known rest
          return ⟨index, event, block.header, block.isCanonical⟩ :: others
      | none =>
          let block ← lookUp event.blockHash
          let others ← classifyFrom (known.put event.blockHash block) rest
          return ⟨index, event, block.header, block.isCanonical⟩ :: others

/-- Classify events. -/
def classify (events : List (UInt64 × Event)) : Step (List ClassifiedEvent) :=
  classifyFrom [] events

/-- Ask for the height of each chain once; `known` are those so far. -/
def heightsFrom (known : Heights) : List ClassifiedEvent → Step Heights
  | [] => return known
  | e :: rest =>
      match known.get? e.header.chain with
      | some _ => heightsFrom known rest
      | none => do
          let height ← Step.node (.height e.header.chainFrom e.header.chainTo)
          heightsFrom (known.put e.header.chain height) rest

/-- The heights that matter: none if no blocks on top are needed. -/
def currentHeights (minConfirmations : UInt64) (events : List ClassifiedEvent) : Step Heights :=
  if minConfirmations = 0 then return [] else heightsFrom [] events

/-! ## Batches -/

/-- Indexes from one to another, both included. -/
structure EventRange where
  first : UInt64
  last : UInt64
deriving DecidableEq, Repr

namespace EventRange

/-- The number of indexes, modulo 2⁶⁴. -/
def size (r : EventRange) : UInt64 := r.last - r.first + 1

/-- At most `left` ranges that cover the indexes from `start` up to
    `count`, each of at most `batchSize` indexes.  A sum that leaves 64
    bits gives a range that ends before it starts, which is the last. -/
def upTo (batchSize count : UInt64) : (left : Nat) → (start : UInt64) → List EventRange
  | 0, _ => []
  | left + 1, start =>
      if start < count then
        let last := min (start + batchSize - 1) (count - 1)
        let range := ⟨start, last⟩
        if last < start then [range] else range :: upTo batchSize count left (last + 1)
      else []

/-- Ranges that cover the indexes from `start` up to `count`; each covers
    at least one of them. -/
def cover (batchSize start count : UInt64) : List EventRange :=
  upTo batchSize count (count.toNat - start.toNat) start

end EventRange

/-- How a watcher is set up. -/
structure Settings where
  minConfirmations : UInt64
  batchSize : UInt64
  /-- The address of the node, for reports. -/
  nodeUrl : String
deriving DecidableEq, Repr

/-- Settings with batches of at least one event. -/
def Settings.of (minConfirmations batchSize : UInt64) (nodeUrl : String) : Settings :=
  ⟨minConfirmations, max batchSize 1, nodeUrl⟩

/-- Events with their indexes, counted from the first. -/
def numbered : (first : UInt64) → List Event → List (UInt64 × Event)
  | _, [] => []
  | first, event :: rest => (first, event) :: numbered (first + 1) rest

/-- The failure of getting another number of events than asked for. -/
def Settings.wrongCount (s : Settings) (r : EventRange) (found : Nat) : WatchFailure :=
  .undecodable s.nodeUrl (s!"expected {r.size.toNat} events for range " ++
    s!"[{r.first.toNat}, {r.last.toNat}], got {found}")

/-- Fetch, classify and confirm the events of a range. -/
def readRange (s : Settings) (contract : String) (r : EventRange) : Step Confirmation := do
  let events ← Step.node (.events contract r.first r.last)
  if events.length ≠ r.size.toNat then throw (s.wrongCount r events.length)
  else
    let classified ← classify (numbered r.first events)
    let heights ← currentHeights s.minConfirmations classified
    let result := confirm s.minConfirmations heights r.first classified
    if 0 < result.dropped then Step.record (.eventsDropped contract result.dropped)
    return result

/-- Read ranges until an event is not settled; the result is what was
    confirmed, and the index behind the last event that was. -/
def readRanges (s : Settings) (contract : String) :
    (next : UInt64) → List EventRange → Step (List ConfirmedEvent × UInt64)
  | next, [] => return ([], next)
  | _, r :: rest => do
      let result ← readRange s contract r
      if result.isStopped then return (result.confirmed, result.nextIndex)
      else
        let (others, next) ← readRanges s contract result.nextIndex rest
        return (result.confirmed ++ others, next)

/-! ## Cycles -/

/-- One cycle; the result is the index of the next event.  As long as no
    index is kept, nothing is read and the first event is next. -/
def cycle (s : Settings) (contract : String) : Step UInt64 := do
  let index? ← Step.readIndex contract
  let count ← Step.node (.eventCount contract)
  match index? with
  | none => return 0
  | some start =>
      let (events, next) ← readRanges s contract start (EventRange.cover s.batchSize start count)
      Step.deliver ⟨contract, events, next⟩
      Step.record (.eventsConfirmed contract events.length)
      return next

/-- Report how a cycle ended, and keep the index of one that succeeded;
    an index that cannot be kept is read again by the next cycle. -/
def report (contract : String) : Except WatchFailure UInt64 → Program Surroundings Unit
  | .error _ => Surroundings.ask (.record (.watchCycle contract false))
  | .ok next => do
      Surroundings.ask (.record (.watchCycle contract true))
      Surroundings.ask (.record (.eventIndex contract next))
      let _kept : Except String Unit ←
        Surroundings.ask (.writeIndex contract next)
      return ()

/-- At most `cycles` cycles with pauses between them.  The watcher ends
    when it is stopped. -/
def watch (s : Settings) (contract : String) (interval : UInt64) :
    (cycles : Nat) → Program Surroundings Unit
  | 0 => return ()
  | cycles + 1 => do
      match ← (cycle s contract).outcome with
      | .error .cancelled => return ()
      | outcome =>
          report contract outcome
          let pause : Pause ← Surroundings.ask (.pause interval)
          match pause with
          | .cancelled => return ()
          | .elapsed => watch s contract interval cycles

end BridgeGuardian.Watch
