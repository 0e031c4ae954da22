/-! # Failures — what a service answers when it cannot do its job

    A failure has a class and a text.  Operators see the wording, a coarse
    kind that tells a request that can never succeed from one worth
    repeating, and the status code of the administrative interface. -/

namespace BridgeGuardian

/-- The coarse classes that operators see. -/
inductive FailureKind
  | validation
  | notFound
  | transport
  | protocol
  | internal
  | conflict
  | cancelled
deriving DecidableEq, Repr

/-- The name of a kind in answers. -/
def FailureKind.name : FailureKind → String
  | .validation => "validation"
  | .notFound => "not_found"
  | .transport => "transport"
  | .protocol => "protocol"
  | .internal => "internal"
  | .conflict => "conflict"
  | .cancelled => "cancelled"

/-- The status code of an answer of a kind. -/
def FailureKind.status : FailureKind → Nat
  | .validation => 400
  | .notFound => 404
  | .conflict => 409
  | .transport => 504
  | .protocol => 502
  | .cancelled => 503
  | .internal => 500

/-- Why a service gave up. -/
inductive Failure
  /-- The request itself is wrong. -/
  | invalid (reason : String)
  /-- Octets are not the record they were read as. -/
  | undecodable (what reason : String)
  /-- Something the request refers to does not exist. -/
  | notFound (what : String)
  /-- A peer could not be reached. -/
  | transport (reason : String)
  /-- A peer answered outside the protocol. -/
  | violation (reason : String)
  /-- Storage or a queue failed. -/
  | internal (reason : String)
  /-- The work is already being done. -/
  | conflict (reason : String)
  /-- The result did not arrive in time. -/
  | expired (reason : String)
  /-- No peer has what is needed. -/
  | unrecoverable (reason : String)
  /-- The caller withdrew the request. -/
  | cancelled
deriving DecidableEq, Repr

namespace Failure

/-- The wording of a failure. -/
def message : Failure → String
  | .invalid reason => "invalid argument: " ++ reason
  | .undecodable what reason => "failed to decode " ++ what ++ ": " ++ reason
  | .notFound what => "not found: " ++ what
  | .transport reason => "transport error: " ++ reason
  | .violation reason => "protocol violation: " ++ reason
  | .internal reason => "internal error: " ++ reason
  | .conflict reason => "conflict: " ++ reason
  | .expired reason => "timed out: " ++ reason
  | .unrecoverable reason => "not recoverable: " ++ reason
  | .cancelled => "operation cancelled"

/-- The coarse class of a failure. -/
def kind : Failure → FailureKind
  | .invalid _ | .undecodable _ _ => .validation
  | .notFound _ | .unrecoverable _ => .notFound
  | .transport _ | .expired _ => .transport
  | .violation _ => .protocol
  | .internal _ => .internal
  | .conflict _ => .conflict
  | .cancelled => .cancelled

/-- Whether the same request may succeed later without anyone's help. -/
def isRetryable : Failure → Bool
  | .transport _ | .expired _ | .cancelled => true
  | _ => false

end Failure

end BridgeGuardian
