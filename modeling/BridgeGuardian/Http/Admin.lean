import BridgeGuardian.Governance.Injection
import BridgeGuardian.Governance.Wire
import BridgeGuardian.Http.MediaType
import BridgeGuardian.Http.Message
import BridgeGuardian.Http.Path
import BridgeGuardian.Recovery.Missing
import BridgeGuardian.Recovery.Undo
import BridgeGuardian.Text.Numeral

/-! # The administrative service

    ```text
    POST /v1/admin/find_missing_messages
    GET  /v1/admin/undone_sequences/CHAIN
    POST /v1/admin/undone_transfer
    POST /v1/admin/inject_governance_vaa
    ```

    A body has to be declared as JSON, to be JSON, and to have the right
    shape, in this order.  A request that names no peers means the
    configured ones. -/

namespace BridgeGuardian.Http

open Json (Shape)
open Json.Shape

/-- How the administrative service is set up. -/
structure AdminService where
  recovery : Recovery.Settings
  guardianSetIndex : UInt32
  peers : List String
deriving DecidableEq, Repr

/-- Governance messages to inject, under a guardian set. -/
structure InjectionRequest where
  messages : List GovernanceMessage
  currentSetIndex : Option UInt32
deriving DecidableEq, Repr

/-- The shape of a request to inject governance messages. -/
def InjectionRequest.shape : Shape InjectionRequest :=
  record [slot "messages" (list GovernanceMessage.shape),
      slot "current_set_index" (optional uint32)] fun found => do
    return ⟨← found.required "messages" (list GovernanceMessage.shape),
      ← found.withDefault "current_set_index" (optional uint32) none⟩

/-- Sequence numbers as a value. -/
def sequencesToJson (sequences : List UInt64) : Json :=
  .record [("sequences", .array (sequences.map fun n => .nat n.toNat))]

/-- Digests as a value. -/
def digestsToJson (digests : List Bytes32) : Json :=
  .record [("digests", .array (digests.map fun d => .text (Hex.encodeMarked d.bytes)))]

namespace AdminService

/-- The peers that are meant. -/
def peersOr (s : AdminService) (peers : List String) : List String :=
  if peers.isEmpty then s.peers else peers

/-- Read the body of a request and go on with it. -/
def withBody {α : Type} (shape : Shape α) (request : Request)
    (handle : α → Program Surroundings Response) : Program Surroundings Response :=
  if request.contentType.any MediaType.isJson then
    match Json.decode shape request.body with
    | .ok value => handle value
    | .error .illFormed => return .bare 400
    | .error .mismatch => return .bare 422
  else return .bare 415

/-- Report missing messages. -/
def findMissing (s : AdminService) (request : MissingRequest) : Program Surroundings Response := do
  let request := { request with peers := s.peersOr request.peers }
  let outcome ← (Recovery.findMissing s.recovery.backfillTimeout request).outcome
  return .ofOutcome MissingReport.toJson outcome

/-- Report the transfers of a chain that are to be undone. -/
def undoneSequences (chain : String) : Program Surroundings Response :=
  match Path.part? chain with
  | none => return .bare 400
  | some chain =>
      match Text.readUInt32 chain with
      | .error _ => return .bare 400
      | .ok chain => do
          let outcome ← (Recovery.undoneSequences chain).outcome
          return .ofOutcome sequencesToJson outcome

/-- Undo a transfer. -/
def undoTransfer (s : AdminService) (request : UndoRequest) : Program Surroundings Response := do
  let request := { request with peers := s.peersOr request.peers }
  let outcome ← (Recovery.undoTransfer s.recovery request).outcome
  return .ofOutcome GovernanceMessage.toJson outcome

/-- Inject governance messages. -/
def inject (s : AdminService) (request : InjectionRequest) : Program Surroundings Response := do
  let index := request.currentSetIndex.getD s.guardianSetIndex
  let outcome ← (Governance.inject index request.messages).outcome
  return .ofOutcome digestsToJson outcome

/-- A request to something that takes posts only. -/
def onPost (request : Request) (handle : Program Surroundings Response) :
    Program Surroundings Response :=
  if request.method = "POST" then handle else return .bare 405

/-- A request to something that can be read only; whoever asks for the head
    gets no content but its type. -/
def onGet (request : Request) (handle : Program Surroundings Response) :
    Program Surroundings Response :=
  if request.method = "GET" then handle
  else if request.method = "HEAD" then do
    let response ← handle
    return { response with
      content := match response.mediaType? with
        | some mediaType => .text mediaType ""
        | none => .none }
  else return .bare 405

/-- Answer a request. -/
def answer (s : AdminService) (request : Request) : Program Surroundings Response :=
  match Path.ofTarget request.target with
  | "/v1/admin/find_missing_messages" =>
      onPost request (withBody MissingRequest.shape request s.findMissing)
  | "/v1/admin/undone_transfer" =>
      onPost request (withBody UndoRequest.shape request s.undoTransfer)
  | "/v1/admin/inject_governance_vaa" =>
      onPost request (withBody InjectionRequest.shape request s.inject)
  | path =>
      match Path.behind? "/v1/admin/undone_sequences/" path with
      | some chain =>
          if chain.isEmpty || chain.toList.contains '/' then return .bare 404
          else onGet request (undoneSequences chain)
      | none => return .bare 404

end AdminService

end BridgeGuardian.Http
