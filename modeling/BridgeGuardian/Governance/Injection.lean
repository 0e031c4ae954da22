import BridgeGuardian.Governance.Request
import BridgeGuardian.Surroundings

/-! # Injection — handing governance messages to the signing pipeline

    Requests become unsigned messages in order.  The first request that is
    at fault ends the call: everything before it has been submitted,
    nothing behind it is. -/

namespace BridgeGuardian.Governance

/-- Submit a message for every request under the current guardian set; the
    result is what guardians are going to sign. -/
def inject (currentIndex : UInt32) : List GovernanceMessage → Work (List Bytes32)
  | [] => return []
  | m :: rest => do
      let vaa ← Work.ofExcept (m.toVaaOrFail currentIndex)
      Work.announce vaa
      Work.record (.governance m.request.kind)
      let digests ← inject currentIndex rest
      return vaa.signingDigest :: digests

end BridgeGuardian.Governance
