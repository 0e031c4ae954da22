import BridgeGuardian.Program
import BridgeGuardian.Storage
import BridgeGuardian.Telemetry.Measurement
import BridgeGuardian.Vaa

/-! # Surroundings — what the services of a guardian ask of the world

    A service reads and writes storage, fetches from peers, hands messages
    to queues, waits, and reports measurements.  Everything that waits can
    be cut short: the caller withdraws the request, or time runs out. -/

namespace BridgeGuardian

/-- Why something that was waited for did not come. -/
inductive Interruption
  | failed
  | expired
  | cancelled
deriving DecidableEq, Repr

/-- The answer to a request over the network; the body comes after the
    status, if it comes. -/
structure NetworkResponse where
  status : Nat
  body : Except Interruption String

/-- What comes of a request over the network. -/
abbrev NetworkReply := Except Interruption NetworkResponse

/-- What comes of handing a message to the intake queue. -/
inductive Submission
  | accepted
  | closed
  | cancelled
deriving DecidableEq, Repr

/-- What comes of waiting. -/
inductive Pause
  | elapsed
  | cancelled
deriving DecidableEq, Repr

namespace Surroundings

/-- What may be asked. -/
inductive Query
  /-- Ask storage. -/
  | store (q : StoreQuery)
  /-- The time in milliseconds. -/
  | now
  /-- Choose an order in which to try peers. -/
  | peerOrder (peers : List String)
  /-- Fetch from an address until a moment. -/
  | fetch (url : String) (deadline : Nat)
  /-- Hand a signed message to the intake queue. -/
  | submit (message : Bytes)
  /-- Hand an unsigned message to the governance queue. -/
  | announce (vaa : Vaa)
  /-- Wait for a number of milliseconds. -/
  | pause (milliseconds : UInt64)
  /-- Whether the caller has withdrawn the request. -/
  | isCancelled
  /-- An arbitrary number. -/
  | nonce
  /-- Report a measurement. -/
  | record (m : Measurement)

/-- What an answer looks like: peers are all tried, each as often as it is
    listed; the governance queue accepts a message or is closed. -/
abbrev Query.Answer : Query → Type
  | .store q => Except StoreFault q.Result
  | .now => Nat
  | .peerOrder peers => { order : List String // order.Perm peers }
  | .fetch _ _ => NetworkReply
  | .submit _ => Submission
  | .announce _ => Bool
  | .pause _ => Pause
  | .isCancelled => Bool
  | .nonce => UInt32
  | .record _ => Unit

end Surroundings

/-- The surroundings of a guardian's services. -/
def Surroundings : Interface := ⟨Surroundings.Query, Surroundings.Query.Answer⟩

/-- Ask one thing. -/
def Surroundings.ask (q : Surroundings.Query) : Program Surroundings q.Answer :=
  Program.ask q Program.done

/-- What a service does to answer a request. -/
abbrev Work := ExceptT Failure (Program Surroundings)

namespace Work

/-- What a service does to answer a request, with its outcome as data. -/
def outcome {α : Type} (task : Work α) : Program Surroundings (Except Failure α) := task

/-- Ask storage; its fault is a failure of the service. -/
def store (q : StoreQuery) : Work q.Result := ExceptT.mk do
  let answer : Except StoreFault q.Result ← Surroundings.ask (.store q)
  return answer.mapError fun fault => .internal fault.message

/-- The time. -/
def now : Work Nat := ExceptT.lift (Surroundings.ask .now)

/-- Peers in the order in which to try them. -/
def peerOrder (peers : List String) : Work (List String) := ExceptT.lift do
  let order : { order : List String // order.Perm peers } ←
    Surroundings.ask (.peerOrder peers)
  return order.val

/-- Fetch from an address. -/
def fetch (url : String) (deadline : Nat) : Work NetworkReply :=
  ExceptT.lift (Surroundings.ask (.fetch url deadline))

/-- Hand a signed message to the intake queue. -/
def submit (message : Bytes) : Work Unit := do
  let result : Submission ← ExceptT.lift (Surroundings.ask (.submit message))
  match result with
  | .accepted => return
  | .closed => throw (.internal "signed VAA ingestion queue is closed")
  | .cancelled => throw .cancelled

/-- Hand an unsigned message to the governance queue. -/
def announce (vaa : Vaa) : Work Unit := do
  let accepted : Bool ← ExceptT.lift (Surroundings.ask (.announce vaa))
  if accepted then return else throw (.internal "governance queue is closed")

/-- Give up if the caller has withdrawn the request. -/
def checkCancelled : Work Unit := do
  let isCancelled : Bool ← ExceptT.lift (Surroundings.ask .isCancelled)
  if isCancelled then throw .cancelled else return

/-- An arbitrary number. -/
def nonce : Work UInt32 := ExceptT.lift (Surroundings.ask .nonce)

/-- Report a measurement. -/
def record (m : Measurement) : Work Unit :=
  ExceptT.lift (Surroundings.ask (.record m))

/-- Go on with a result that has been computed. -/
def ofExcept {α : Type} (result : Except Failure α) : Work α := ExceptT.mk (pure result)

end Work

end BridgeGuardian
