/-! # Rounding — numbers of 53 binary digits

    Where a number is kept with 53 significant binary digits, what does not
    fit is rounded to the nearest such number, a tie to the even one.  Below
    `2 ^ 53` these are the whole numbers, so that one rule serves counts and
    multiples of a smallest unit alike. -/

namespace BridgeGuardian.Rounding

/-- The significant binary digits of a number. -/
def precision : Nat := 53

/-- The number with at most 53 significant binary digits that is nearest to
    a quotient. -/
def quotient (num den : Nat) : Nat :=
  let unit := Nat.pow 2 ((num / den).log2 + 1 - precision)
  let step := den * unit
  let low := num / step
  let excess := num % step
  if step < 2 * excess ∨ (step = 2 * excess ∧ low % 2 = 1) then (low + 1) * unit else low * unit

/-- The number with at most 53 significant binary digits that is nearest to
    a whole number. -/
def whole (n : Nat) : Nat := quotient n 1

end BridgeGuardian.Rounding
