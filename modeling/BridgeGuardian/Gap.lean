import BridgeGuardian.Coordinate

/-! # Gaps — sequence numbers missing between the stored ones

    Of an emitter's stored sequence numbers only the set matters.  They are
    sorted, repetitions are dropped, and one walk over them notes every
    number that should have come and did not.  Behind the greatest number
    there is none to expect, so the walk ends there. -/

namespace BridgeGuardian

/-- The number behind another one, unless it is the greatest. -/
def successor? (n : UInt64) : Option UInt64 :=
  if n.toNat + 1 < UInt64.size then some (n + 1) else none

/-- How far a walk over stored numbers has come: the number that should come
    next, and those missing so far, the latest in front. -/
structure GapWalk where
  expected : UInt64
  missing : List UInt64
deriving DecidableEq, Repr

namespace GapWalk

/-- Note numbers as missing until one is found; at most `left` of them. -/
def countTo (found : UInt64) : (left : Nat) → GapWalk → GapWalk
  | 0, w => w
  | left + 1, w =>
      if w.expected < found then countTo found left ⟨w.expected + 1, w.expected :: w.missing⟩
      else w

/-- Walk along ascending numbers. -/
def along : List UInt64 → GapWalk → GapWalk
  | [], w => w
  | found :: rest, w =>
      let reached := w.countTo found (found.toNat - w.expected.toNat)
      match successor? found with
      | some next => along rest ⟨next, reached.missing⟩
      | none => reached

end GapWalk

/-- What is stored of an emitter's sequence, and what is missing in
    between. -/
structure GapReport where
  missing : List UInt64
  first : UInt64
  last : UInt64
deriving DecidableEq, Repr

namespace GapReport

/-- The report on an emitter of which nothing is stored. -/
def none : GapReport := ⟨[], 0, 0⟩

/-- Numbers in ascending order, each of them once. -/
def ascending (stored : List UInt64) : List UInt64 := (stored.mergeSort (· ≤ ·)).eraseReps

/-- The report on stored sequence numbers, in any order and with any
    repetition. -/
def ofSequences (stored : List UInt64) : GapReport :=
  match (ascending stored).head?, (ascending stored).getLast? with
  | some first, some last =>
      ⟨(GapWalk.along (ascending stored) ⟨first, []⟩).missing.reverse, first, last⟩
  | _, _ => none

end GapReport

end BridgeGuardian
