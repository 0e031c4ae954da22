import BridgeGuardian.Governance.Request
import BridgeGuardian.Polling
import BridgeGuardian.Recovery.Backfill
import BridgeGuardian.Recovery.Request

/-! # Undoing a transfer — the governance message that returns the funds

    The steps run strictly in order: load the signed transfer, from peers
    if need be; read it; find the local wrapper of its token; mark the
    sequence as being executed, which succeeds once; build the message.
    Nothing is marked before every other step has succeeded. -/

namespace BridgeGuardian.Recovery

/-- How a recovery service is set up. -/
structure Settings where
  /-- The chain this guardian is local to. -/
  localChain : ChainId
  /-- How long peers may take together, in milliseconds. -/
  backfillTimeout : UInt64
  /-- How to wait for a submitted message to be stored. -/
  polling : PollPolicy
deriving DecidableEq, Repr

/-- The signed message with a coordinate, from storage or from peers
    through storage. -/
def loadVaa (s : Settings) (peers : List String) (c : Coordinate) : Work Bytes := do
  match ← Work.store (.vaa c) with
  | some bytes => return bytes
  | none =>
      if ← Backfill.fetch s.backfillTimeout peers c then
        ExceptT.mk (s.polling.poll s!"vaa {c}" (fun ms => Surroundings.ask (.pause ms))
          (Work.store (.vaa c)).outcome)
      else
        throw (.unrecoverable
          s!"failed to fetch vaa {c} from remote guardians, try other guardians")

/-- The wrapper on the local chain through which a transfer is undone. -/
def findWrapper (s : Settings) (t : Transfer) (remoteChain : ChainId) : Work Bytes32 := do
  let wrapper ←
    if t.tokenChain = s.localChain then Work.store (.localWrapper t.token remoteChain)
    else Work.store (.remoteWrapper t.token)
  match wrapper with
  | some wrapper => return wrapper
  | none =>
      throw (.notFound (s!"no token wrapper for token {t.token.toHex} " ++
        s!"(token chain {t.tokenChain}, remote chain {remoteChain})"))

/-- Mark a transfer as being undone, unless somebody has before. -/
def claim (c : Coordinate) : Work Unit := do
  if ← Work.store (.markExecuting c.chain c.sequence) then return
  else
    throw (.conflict
      s!"sequence {c.sequence.toNat} of chain {c.chain} is already executing or done")

/-- Undo the transfer with a coordinate. -/
def reconstruct (s : Settings) (governanceSequence : UInt64) (peers : List String)
    (c : Coordinate) : Work GovernanceMessage := do
  let bytes ← loadVaa s peers c
  let vaa ← Work.ofExcept (Vaa.parseOrFail bytes)
  let transfer ← Work.ofExcept (Transfer.decodeOrFail vaa.payload)
  let wrapper ← findWrapper s transfer c.chain
  Work.checkCancelled
  claim c
  let payload := (GovernancePayload.undo transfer wrapper c.sequence).serialize
  let nonce ← Work.nonce
  return ⟨governanceSequence, nonce, .undoneTransfer vaa.consistencyLevel payload⟩

/-- How a reconstruction that failed is counted. -/
def outcomeOf : Failure → ReconstructionOutcome
  | .invalid _ | .undecodable _ _ => .invalid
  | .unrecoverable _ => .notRecoverable
  | .notFound _ => .notFound
  | .expired _ => .timeout
  | .conflict _ => .conflict
  | .cancelled => .cancelled
  | _ => .error

/-- Build the governance message that undoes the requested transfer; how it
    went is reported once the request makes sense. -/
def undoTransfer (s : Settings) (request : UndoRequest) : Work GovernanceMessage := do
  let e ← Work.ofExcept (Emitter.ofRequest request.emitterChain request.emitterAddress)
  let outcome ← ExceptT.lift
    (reconstruct s request.governanceSequence request.peers ⟨e, request.sequence⟩).outcome
  match outcome with
  | .ok message =>
      Work.record (.reconstruction e.chain .ok)
      return message
  | .error failure =>
      Work.record (.reconstruction e.chain (outcomeOf failure))
      throw failure

end BridgeGuardian.Recovery
