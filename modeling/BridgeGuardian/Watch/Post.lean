import BridgeGuardian.Telemetry.Register
import BridgeGuardian.Watch.Cycle

/-! # A watch post — one watcher with its storage, node and consumer

    The index of the next event is kept in a storage, the node is reached
    over the network, and the consumer keeps what it is handed.  Reading
    the index, keeping it and handing over events can be made to fail, and
    the consumer can stop the watcher after a number of batches. -/

namespace BridgeGuardian.Watch

/-- What the network replies to a question put to the node. -/
abbrev NodeNetwork := NodeLine → NodeQuery → NetworkReply

/-- A network on which the node cannot be reached. -/
def NodeNetwork.down : NodeNetwork := fun _ _ => .error .failed

/-- A watcher and what it has come to. -/
structure Post where
  storage : Storage
  register : Register
  line : NodeLine
  settings : Settings
  contract : String
  network : NodeNetwork
  /-- Why the index cannot be read, if so. -/
  readFault : Option String
  /-- Why the index cannot be kept, if so. -/
  writeFault : Option String
  /-- Why the consumer refuses events, if so. -/
  refusal : Option String
  /-- After how many batches the consumer stops the watcher, if so. -/
  stopsAfter : Option Nat
  delivered : List Batch
  isCancelled : Bool

namespace Post

/-- Ask storage for a result. -/
def ask (p : Post) (q : StoreQuery) : Except StoreFault q.Result × Post :=
  let (answer, storage) := p.storage.answer q
  (answer, { p with storage })

/-- Ask the node.  Stopping the watcher cuts short what has to wait for a
    reply; where no connection can be made there is nothing to wait for. -/
def askNode (p : Post) (q : NodeQuery) : Except WatchFailure q.Result :=
  match p.network p.line q with
  | .error .failed => p.line.ofReply q (.error .failed)
  | reply => if p.isCancelled then .error .cancelled else p.line.ofReply q reply

/-- Hand a batch to the consumer. -/
def deliver (p : Post) (batch : Batch) : Except String Unit × Post :=
  let delivered := p.delivered ++ [batch]
  let isCancelled := p.isCancelled || p.stopsAfter == some delivered.length
  (match p.refusal with | some reason => .error reason | none => .ok (),
    { p with delivered, isCancelled })

/-- Answer what a watcher asks. -/
def answer (p : Post) : (q : Surroundings.Query) → q.Answer × Post
  | .readIndex contract =>
      match p.readFault with
      | some reason => (.error reason, p)
      | none =>
          let (answer, p) := p.ask (.nextIndex contract)
          (answer.mapError StoreFault.message, p)
  | .writeIndex contract index =>
      match p.writeFault with
      | some reason => (.error reason, p)
      | none =>
          let (answer, p) := p.ask (.setNextIndex contract index)
          (answer.mapError StoreFault.message, p)
  | .node q => (p.askNode q, p)
  | .deliver batch => p.deliver batch
  | .pause _ => (if p.isCancelled then .cancelled else .elapsed, p)
  | .record m => ((), { p with register := p.register.record m })

/-- Let the watcher do something. -/
def run {α : Type} (p : Post) (program : Program Surroundings α) : α × Post :=
  program.run answer p

/-- Let the watcher do one cycle; the index is kept if so wished. -/
def cycleOnce (p : Post) (keepsIndex : Bool) : Except WatchFailure UInt64 × Post :=
  let (outcome, p) := p.run (cycle p.settings p.contract).outcome
  match outcome with
  | .ok next =>
      if keepsIndex then (outcome, (p.ask (.setNextIndex p.contract next)).2) else (outcome, p)
  | .error _ => (outcome, p)

/-- Let the watcher do cycles, at most so many. -/
def watchFor (p : Post) (interval : UInt64) (cycles : Nat) : Post :=
  (p.run (watch p.settings p.contract interval cycles)).2

end Post

end BridgeGuardian.Watch
