import BridgeGuardian.Bytes.Base64
import BridgeGuardian.Json.Shape
import BridgeGuardian.Surroundings
import BridgeGuardian.Text.Blank

/-! # Backfill — asking peers for a message that was never seen

    Peers are tried one after the other.  A peer may serve the message, not
    have it, answer nonsense, or answer outside the protocol: with a status
    that is neither 200 nor 404, or with another message than the one asked
    for.  The first peer that serves or violates decides; what is served
    goes to the intake queue, where it is verified like any other message. -/

namespace BridgeGuardian

open Json (Shape)
open Json.Shape

/-- What a peer's reply amounts to. -/
inductive PeerVerdict
  | serving (message : Bytes)
  | missing
  | failing
  | violating (reason : String)
  | cancelled
deriving DecidableEq, Repr

namespace PeerVerdict

/-- The shape of a reply that serves a message: its octets in base 64. -/
def messageShape : Shape Bytes :=
  refine (record [slot "vaaBytes" text] fun found => found.required "vaaBytes" text) Base64.decode

/-- The verdict on the octets of a message. -/
def ofMessage (wanted : Coordinate) (message : Bytes) : PeerVerdict :=
  match Vaa.parse message with
  | .error _ => .failing
  | .ok vaa =>
      if vaa.coordinate = wanted then .serving message
      else .violating s!"requested {wanted}, peer returned {vaa.coordinate}"

/-- The verdict on the body of a reply. -/
def ofBody (wanted : Coordinate) : Except Interruption String → PeerVerdict
  | .error .cancelled => .cancelled
  | .error _ => .failing
  | .ok body =>
      match Json.decode messageShape body with
      | .error _ => .failing
      | .ok message => ofMessage wanted message

/-- The verdict on a reply. -/
def ofReply (wanted : Coordinate) : NetworkReply → PeerVerdict
  | .error .cancelled => .cancelled
  | .error _ => .failing
  | .ok response =>
      if response.status = 404 then .missing
      else if response.status = 200 then ofBody wanted response.body
      else .violating s!"unexpected response status: {response.status}"

end PeerVerdict

namespace Backfill

/-- Where a peer serves a message. -/
def address (peer : String) (c : Coordinate) : String :=
  Text.dropTrailing '/' peer ++ "/v1/signed_vaa/" ++ c.path

/-- Try peers until one decides. -/
def tryPeers (c : Coordinate) (deadline : Nat) : List String → Work Bool
  | [] => return false
  | peer :: others => do
      match PeerVerdict.ofReply c (← Work.fetch (address peer c) deadline) with
      | .serving message =>
          Work.record (.backfillAttempt c.chain .found)
          Work.submit message
          return true
      | .missing =>
          Work.record (.backfillAttempt c.chain .notFound)
          tryPeers c deadline others
      | .failing =>
          Work.record (.backfillAttempt c.chain .error)
          tryPeers c deadline others
      | .violating reason =>
          Work.record (.backfillAttempt c.chain .protocolError)
          throw (.violation reason)
      | .cancelled => throw .cancelled

/-- Ask peers for a message, all of them within `timeout` milliseconds; the
    result tells whether it was submitted. -/
def fetch (timeout : UInt64) (peers : List String) (c : Coordinate) : Work Bool := do
  let order ← Work.peerOrder peers
  let start ← Work.now
  tryPeers c (start + timeout.toNat) order

end Backfill

end BridgeGuardian
