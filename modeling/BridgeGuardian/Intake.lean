import BridgeGuardian.Guardians
import BridgeGuardian.DigestCache
import BridgeGuardian.Storage

/-! # Intake — how signed messages reach the archive

    A message that was stored a short while ago is dropped as a duplicate;
    any other is stored if a quorum of guardians signed it, and only then
    remembered.  A message that is rejected, or cannot be stored, changes
    nothing. -/

namespace BridgeGuardian

/-- What became of an accepted message. -/
inductive Receipt
  | stored
  | duplicate
deriving DecidableEq, Repr

/-- A worker's memory of what it stored, and whom it trusts. -/
structure IntakeDesk where
  guardians : GuardianSet
  seen : DigestCache

namespace IntakeDesk

/-- Deal with a message at a moment; `write` puts it into storage. -/
def process {m : Type → Type} [Monad m] (d : IntakeDesk) (now : Nat)
    (write : Coordinate → Bytes → m (Except StoreFault Unit)) (message : Bytes) :
    m (Except Failure Receipt × IntakeDesk) :=
  match Vaa.parseOrFail message with
  | .error failure => pure (.error failure, d)
  | .ok vaa =>
      if d.seen.contains now vaa.signingDigest then pure (.ok .duplicate, d)
      else match d.guardians.verifyOrFail vaa with
        | .error failure => pure (.error failure, d)
        | .ok () => do
            match ← write vaa.coordinate message with
            | .error fault => pure (.error (.internal fault.message), d)
            | .ok () =>
                pure (.ok .stored, { d with seen := (d.seen.insert now vaa.signingDigest).2 })

/-- Put a message into storage. -/
def writeTo (c : Coordinate) (bytes : Bytes) : StateM Storage (Except StoreFault Unit) :=
  fun s => s.answer (.storeVaa c bytes)

/-- Deal with a message that goes into the given storage. -/
def processInto (d : IntakeDesk) (now : Nat) (s : Storage) (message : Bytes) :
    (Except Failure Receipt × IntakeDesk) × Storage :=
  (d.process now writeTo message).run s

end IntakeDesk

end BridgeGuardian
