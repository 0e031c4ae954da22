import BridgeGuardian.Coordinate

/-! # Measurements — what services report about their work -/

namespace BridgeGuardian

/-- How a request to a peer ended. -/
inductive BackfillOutcome
  | found
  | notFound
  | error
  | protocolError
deriving DecidableEq, Repr

/-- How a reconstruction ended. -/
inductive ReconstructionOutcome
  | ok
  | invalid
  | notRecoverable
  | notFound
  | timeout
  | conflict
  | cancelled
  | error
deriving DecidableEq, Repr

/-- How a queued message was dealt with. -/
inductive IntakeOutcome
  | stored
  | duplicate
  | rejected
deriving DecidableEq, Repr

/-- One report. -/
inductive Measurement
  /-- A watch cycle came to its end. -/
  | watchCycle (contract : String) (isOk : Bool)
  /-- Events of a contract were delivered. -/
  | eventsConfirmed (contract : String) (count : Nat)
  /-- Events of a contract are outside the main chain. -/
  | eventsDropped (contract : String) (count : Nat)
  /-- The next event of a contract. -/
  | eventIndex (contract : String) (index : UInt64)
  /-- A peer was asked for a message of a chain. -/
  | backfillAttempt (chain : ChainId) (outcome : BackfillOutcome)
  /-- A transfer of a chain was to be undone. -/
  | reconstruction (chain : ChainId) (outcome : ReconstructionOutcome)
  /-- A queued message was dealt with. -/
  | intake (outcome : IntakeOutcome)
  /-- A governance message was submitted. -/
  | governance (kind : String)
  /-- The service begins or ends to serve. -/
  | up (isUp : Bool)
deriving DecidableEq, Repr

/-- The word for an outcome. -/
def BackfillOutcome.name : BackfillOutcome → String
  | .found => "found"
  | .notFound => "not_found"
  | .error => "error"
  | .protocolError => "protocol_error"

/-- The word for an outcome. -/
def ReconstructionOutcome.name : ReconstructionOutcome → String
  | .ok => "ok"
  | .invalid => "invalid"
  | .notRecoverable => "not_recoverable"
  | .notFound => "not_found"
  | .timeout => "timeout"
  | .conflict => "conflict"
  | .cancelled => "cancelled"
  | .error => "error"

/-- The word for an outcome. -/
def IntakeOutcome.name : IntakeOutcome → String
  | .stored => "stored"
  | .duplicate => "duplicate"
  | .rejected => "rejected"

end BridgeGuardian
