import ContentWeave.Text.Basic
import ContentWeave.Number.Exact

/-!
Numbers with a fixed count of decimals.  The exact value is rounded, and a half goes to the even
neighbour.
-/

namespace ContentWeave.Number

/-- The quotient to the nearest integer; a half goes to the even neighbour. -/
def roundDiv (num den : Nat) : Nat :=
  let q := num / den
  let twice := 2 * (num % den)
  if den < twice ∨ (twice = den ∧ q % 2 = 1) then q + 1 else q

structure FixedDigits where
  whole : Text
  fraction : Text
deriving DecidableEq, Repr

def FixedDigits.digits (d : FixedDigits) : Text := d.whole ++ d.fraction

def FixedDigits.ofScaled (n decimals : Nat) : FixedDigits :=
  let digits := Text.ofNat n
  let padded := List.replicate (decimals + 1 - digits.length) '0' ++ digits
  ⟨padded.take (padded.length - decimals), padded.drop (padded.length - decimals)⟩

def Exact.fixedDigits (x : Exact) (decimals : Nat) : FixedDigits :=
  .ofScaled (roundDiv (x.numerator * Nat.pow 10 decimals) x.denominator) decimals

end ContentWeave.Number
