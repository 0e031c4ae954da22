import BridgeGuardian.Failure
import BridgeGuardian.Surroundings

/-! # Polling — waiting for something that others bring about

    A check is made after every pause until it yields a value, fails, or
    has been made often enough.  A withdrawn request ends the waiting at
    the next pause, before another check. -/

namespace BridgeGuardian

/-- How often to check, and how long to pause before each check, in
    milliseconds. -/
structure PollPolicy where
  attempts : UInt32
  interval : UInt64
deriving DecidableEq, Repr

namespace PollPolicy

/-- The longest time the checks can take. -/
def totalWait (p : PollPolicy) : Nat := p.interval.toNat * p.attempts.toNat

/-- The failure of having checked often enough. -/
def expiry (p : PollPolicy) (what : String) : Failure :=
  .expired s!"{what} not available after {p.attempts.toNat} attempts"

/-- Pause and check up to `left` times. -/
def pollFor {m : Type → Type} [Monad m] {α : Type} (expiry : Failure) (pause : m Pause)
    (check : m (Except Failure (Option α))) : (left : Nat) → m (Except Failure α)
  | 0 => pure (.error expiry)
  | left + 1 => do
      match ← pause with
      | .cancelled => pure (.error .cancelled)
      | .elapsed =>
          match ← check with
          | .error failure => pure (.error failure)
          | .ok (some value) => pure (.ok value)
          | .ok none => pollFor expiry pause check left

/-- Check for `what` until there is a value. -/
def poll {m : Type → Type} [Monad m] {α : Type} (p : PollPolicy) (what : String)
    (pause : UInt64 → m Pause) (check : m (Except Failure (Option α))) : m (Except Failure α) :=
  pollFor (p.expiry what) (pause p.interval) check p.attempts.toNat

end PollPolicy

/-! ## Checks that are known beforehand -/

/-- Results of checks to come, and when the request is withdrawn: before
    the first pause, or in the course of a check. -/
structure CheckScript (α : Type) where
  results : List (Except Failure (Option α))
  isCancelled : Bool
  cancelledIn : Option Nat
  made : Nat

namespace CheckScript

variable {α : Type}

/-- A pause, which a withdrawn request cuts short. -/
def pause : StateM (CheckScript α) Pause := do
  return if (← get).isCancelled then .cancelled else .elapsed

/-- The next check; there is nothing behind the last result. -/
def check : StateM (CheckScript α) (Except Failure (Option α)) := do
  let s ← get
  let made := s.made + 1
  set { s with
    results := s.results.tail
    isCancelled := s.isCancelled || s.cancelledIn == some made
    made }
  return s.results.head?.getD (.ok none)

end CheckScript

end BridgeGuardian
