import BridgeGuardian.Recovery.Backfill
import BridgeGuardian.Recovery.Request

/-! # Missing messages — what an emitter's stored sequence leaves out

    The gaps are read off storage once, at the beginning.  If peers are to
    be asked, they are asked for every missing message in turn, and what
    none of them had is still missing. -/

namespace BridgeGuardian.Recovery

/-- Ask peers for messages in turn; the result is what none of them had. -/
def fillGaps (timeout : UInt64) (peers : List String) (e : Emitter) :
    List UInt64 → Work (List UInt64)
  | [] => return []
  | sequence :: rest => do
      let found ← ExceptT.adapt failToFill (Backfill.fetch timeout peers ⟨e, sequence⟩)
      let others ← fillGaps timeout peers e rest
      return if found then others else sequence :: others
where
  /-- A withdrawn request stays one; any other failure is internal. -/
  failToFill : Failure → Failure
    | .cancelled => .cancelled
    | failure => .internal s!"failed to backfill VAA: {failure.message}"

/-- Report what is missing of an emitter's messages. -/
def findMissing (timeout : UInt64) (request : MissingRequest) : Work MissingReport := do
  let e ← Work.ofExcept (Emitter.ofRequest request.emitterChain request.emitterAddress)
  let gaps ← Work.store (.gaps e)
  let missing ←
    if request.asksPeers && !gaps.missing.isEmpty then
      fillGaps timeout request.peers e gaps.missing
    else pure gaps.missing
  return ⟨missing.map fun sequence => ⟨e, sequence⟩, gaps.first, gaps.last⟩

/-- The transfers of a remote chain that are still to be undone. -/
def undoneSequences (chain : UInt32) : Work (List UInt64) := do
  let chain ← Work.ofExcept (ChainId.ofRequest "remote_chain_id" chain)
  Work.store (.undone chain)

end BridgeGuardian.Recovery
