import BridgeGuardian.Surroundings
import BridgeGuardian.Text.Blank
import BridgeGuardian.Text.Form
import BridgeGuardian.Watch.Event
import BridgeGuardian.Watch.Failure

/-! # The node — questions about a blockchain and their addresses

    Each question is one request to the node.  Only a success counts, and
    its body has to have the shape of the answer. -/

namespace BridgeGuardian.Watch

/-- What can be asked of a node. -/
inductive NodeQuery
  /-- How many events a contract has emitted. -/
  | eventCount (contract : String)
  /-- The events of a contract from one index to another, both included. -/
  | events (contract : String) (first last : UInt64)
  /-- The header of a block. -/
  | header (hash : String)
  /-- Whether a block is in the main chain. -/
  | isInMainChain (hash : String)
  /-- The height of the chain between two groups. -/
  | height (fromGroup toGroup : UInt32)
deriving DecidableEq, Repr

namespace NodeQuery

/-- What a node answers. -/
abbrev Result : NodeQuery → Type
  | .eventCount _ => UInt64
  | .events _ _ _ => List Event
  | .header _ => BlockHeader
  | .isInMainChain _ => Bool
  | .height _ _ => UInt64

/-- The path of a question. -/
def path : NodeQuery → String
  | .eventCount _ => "/events/contract/current-count"
  | .events _ _ _ => "/events/contract"
  | .header hash => "/blockflow/blocks/" ++ hash
  | .isInMainChain _ => "/blockflow/is-block-in-main-chain"
  | .height _ _ => "/blockflow/chain-info"

/-- The details of a question. -/
def details : NodeQuery → List (String × String)
  | .eventCount contract => [("contractAddress", contract)]
  | .events contract first last =>
      [("start", toString first.toNat), ("end", toString last.toNat), ("contractAddress", contract)]
  | .header _ => []
  | .isInMainChain hash => [("blockHash", hash)]
  | .height fromGroup toGroup =>
      [("fromGroup", toString fromGroup.toNat), ("toGroup", toString toGroup.toNat)]

/-- The path of a question with its details. -/
def target (q : NodeQuery) : String := q.path ++ Text.formQuery q.details

/-- The shape of an answer. -/
def shape : (q : NodeQuery) → Json.Shape q.Result
  | .eventCount _ => Json.Shape.uint64
  | .events _ _ _ => EventList.reply
  | .header _ => BlockHeader.shape
  | .isInMainChain _ => Json.Shape.bool
  | .height _ _ => heightReply

end NodeQuery

/-- A line to a node: its address without slashes at the end, and the key
    that is shown to it. -/
structure NodeLine where
  baseUrl : String
  apiKey : Option String
deriving DecidableEq, Repr

namespace NodeLine

/-- A line to the node at an address; an empty key is none. -/
def ofAddress (address : String) (apiKey : Option String) : NodeLine :=
  ⟨Text.dropTrailing '/' address, apiKey.filter fun key => !key.isEmpty⟩

/-- The address of a question, without its details. -/
def url (l : NodeLine) (q : NodeQuery) : String := l.baseUrl ++ q.path

/-- The wording of a body that is no answer. -/
def decodeReason : Json.Fault → String
  | .illFormed => "ill-formed text"
  | .mismatch => "unexpected value"

/-- The wording of a request that came to nothing. -/
def requestReason : Interruption → String
  | .failed => "connection failed"
  | .expired => "operation timed out"
  | .cancelled => "cancelled"

/-- A request that came to nothing. -/
def ofInterruption (url : String) : Interruption → WatchFailure
  | .cancelled => .cancelled
  | interruption => .unreachable url (requestReason interruption)

/-- The answer that a reply holds. -/
def ofReply (l : NodeLine) (q : NodeQuery) : NetworkReply → Except WatchFailure q.Result
  | .error interruption => .error (ofInterruption (l.url q) interruption)
  | .ok response =>
      if response.status < 200 ∨ 299 < response.status then
        .error (.status (l.url q) response.status)
      else match response.body with
        | .error interruption => .error (ofInterruption (l.url q) interruption)
        | .ok body =>
            (Json.decode q.shape body).mapError fun fault =>
              .undecodable (l.url q) (decodeReason fault)

end NodeLine

end BridgeGuardian.Watch
