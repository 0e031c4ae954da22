import BridgeGuardian.Rounding

/-! # Magnitudes — counts as they are kept and shown

    A count is kept with 53 significant binary digits; what does not fit is
    rounded to the nearest such number, a tie to the even one.  It is shown
    with the fewest significant decimal digits that are rounded to it, and
    zeros behind them. -/

namespace BridgeGuardian.Magnitude

/-- The count that is kept for a count. -/
def round (n : Nat) : Nat := Rounding.whole n

/-- Of the two neighbours of a count on the grid of `unit`, the nearer one
    that is rounded to the count. -/
def neighbour? (n unit : Nat) : Option Nat :=
  let low := n / unit * unit
  let high := low + unit
  let nearerFirst := if 2 * (n - low) ≤ unit then [low, high] else [high, low]
  nearerFirst.find? fun candidate => round candidate == n

/-- The first neighbour on the grids of `10 ^ zeros` and finer ones. -/
def shortestFrom (n : Nat) : (zeros : Nat) → Nat
  | 0 => n
  | zeros + 1 =>
      match neighbour? n (Nat.pow 10 (zeros + 1)) with
      | some shown => shown
      | none => shortestFrom n zeros

/-- The numeral of a count. -/
def numeral (n : Nat) : String :=
  if n < Nat.pow 2 Rounding.precision then toString n
  else toString (shortestFrom n ((Nat.toDigits 10 n).length - 1))

end BridgeGuardian.Magnitude
