/-! # Watch failures — why a watch cycle came to nothing -/

namespace BridgeGuardian

/-- Why a watch cycle came to nothing; addresses carry no query. -/
inductive WatchFailure
  /-- The node could not be reached. -/
  | unreachable (url reason : String)
  /-- The node answered with a status other than success. -/
  | status (url : String) (code : Nat)
  /-- The node answered something else than asked for. -/
  | undecodable (url reason : String)
  /-- The event index could not be read. -/
  | store (reason : String)
  /-- The consumer refused the events. -/
  | consumer (reason : String)
  /-- The watcher is being stopped. -/
  | cancelled
deriving DecidableEq, Repr

/-- The wording of a failure. -/
def WatchFailure.message : WatchFailure → String
  | .unreachable url reason => s!"request to {url} failed: {reason}"
  | .status url code => s!"unexpected status {code} from {url}"
  | .undecodable url reason => s!"failed to decode response from {url}: {reason}"
  | .store reason => "event index store failed: " ++ reason
  | .consumer reason => "confirmed events handler failed: " ++ reason
  | .cancelled => "watch cycle cancelled"

end BridgeGuardian
