import BridgeGuardian.Rounding

/-! # Doubles — how a numeral that is no integer is kept

    A double is a whole number of units of `2 ^ -1074` with 53 significant
    binary digits, below `2 ^ 1024`; signs are kept apart.  A numeral is
    understood from its first digits, as many as 64 bits hold, and a power
    of ten: both are rounded to doubles, and so is their product or
    quotient.  A double is shown with the fewest decimal digits that are
    rounded to it. -/

namespace BridgeGuardian.Json

/-- A double that is not negative. -/
structure Double where
  units : Nat
deriving DecidableEq, Repr

namespace Double

/-- The number one in units. -/
def one : Nat := Nat.pow 2 1074

/-- The double nearest to a quotient of numbers of units. -/
def nearest (num den : Nat) : Double := ⟨Rounding.quotient num den⟩

/-- The double nearest to a whole number. -/
def ofNat (n : Nat) : Double := nearest (n * one) 1

/-- The double nearest to a power of ten. -/
def powerOfTen (n : Nat) : Double := ofNat (Nat.pow 10 n)

/-- The double nearest to a product. -/
def times (a b : Double) : Double := nearest (a.units * b.units) one

/-- The double nearest to a quotient. -/
def dividedBy (a b : Double) : Double := nearest (a.units * one) b.units

/-- Nothing. -/
def zero : Double := ⟨0⟩

/-- A double, unless it is too great. -/
def finite? (d : Double) : Option Double :=
  if d.units < Nat.pow 2 1024 * one then some d else none

/-- The greatest power of ten that is a double. -/
def greatestPower : Nat := 308

/-- A double times a power of ten.  Where the power is not a double, its
    inverse is applied in two steps, of which the first takes the greatest
    power that is one. -/
def scale? (d : Double) (exponent : Int) : Option Double :=
  let power := exponent.natAbs
  if 0 ≤ exponent then
    if power ≤ greatestPower then (d.times (powerOfTen power)).finite?
    else if d = zero then some zero
    else none
  else if power ≤ greatestPower then some (d.dividedBy (powerOfTen power))
  else if power ≤ 2 * greatestPower then
    some ((d.dividedBy (powerOfTen greatestPower)).dividedBy (powerOfTen (power - greatestPower)))
  else some zero

/-- The double that digits and a power of ten are understood as. -/
def ofDecimal? (digits : Nat) (exponent : Int) : Option Double := (ofNat digits).scale? exponent

/-! ## Decimal digits -/

/-- A decimal number in units, as a quotient. -/
def decimalUnits (digits : Nat) (exponent : Int) : Nat × Nat :=
  if 0 ≤ exponent then (digits * Nat.pow 10 exponent.natAbs * one, 1)
  else (digits * one, Nat.pow 10 exponent.natAbs)

/-- Of the two neighbours of a double on the grid of a power of ten, the
    nearer one that is rounded to the double. -/
def neighbour? (d : Double) (exponent : Int) : Option Nat :=
  let (num, den) := decimalUnits 1 exponent
  let low := d.units * den / num
  let excess := d.units * den % num
  let nearerFirst := if 2 * excess ≤ num then [low, low + 1] else [low + 1, low]
  nearerFirst.find? fun digits =>
    let (num, den) := decimalUnits digits exponent
    nearest num den == d

/-- The first neighbour on the grid of a power of ten and, at most `fuel`
    times, the next finer one. -/
def shortestFrom (d : Double) : (fuel : Nat) → (exponent : Int) → Nat × Int
  | 0, exponent => (0, exponent)
  | fuel + 1, exponent =>
      match d.neighbour? exponent with
      | some digits => (digits, exponent)
      | none => shortestFrom d fuel (exponent - 1)

/-- The exponent of the finest grid that is needed: its neighbours are less
    than a unit apart. -/
def finestPower : Nat := 324

/-- The fewest digits of a double and their power of ten. -/
def shortest (d : Double) : Nat × Int :=
  if d = zero then (0, 0) else shortestFrom d (greatestPower + finestPower + 1) greatestPower

end Double

end BridgeGuardian.Json
