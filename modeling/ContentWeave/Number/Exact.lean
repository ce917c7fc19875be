/-!
The exact value of a number.  A finite number is an integer times a power of two; everything that
is printed about it is computed from those two integers.
-/

namespace ContentWeave.Number

/-- The real number `significand · 2 ^ exponent`, with a sign of its own, so that zero has two. -/
structure Exact where
  negative : Bool
  significand : Nat
  exponent : Int
deriving DecidableEq, Repr

/-- The least exponent of a number; numbers with it may have short significands. -/
def leastExponent : Int := -1074

def normalSignificand : Nat := 0x10000000000000

def isNegative (x : Float) : Bool := 0x8000000000000000 ≤ x.toBits.toNat

def exactOf? (x : Float) : Option Exact :=
  let bits := x.toBits.toNat
  let biased := bits / normalSignificand % 2048
  let fraction := bits % normalSignificand
  if biased = 2047 then none
  else if biased = 0 then some ⟨isNegative x, fraction, leastExponent⟩
  else some ⟨isNegative x, normalSignificand + fraction, leastExponent + (biased - 1 : Nat)⟩

namespace Exact

def numerator (x : Exact) : Nat := x.significand * Nat.pow 2 x.exponent.toNat

def denominator (x : Exact) : Nat := Nat.pow 2 (-x.exponent).toNat

def truncate (x : Exact) : Exact := ⟨x.negative, x.numerator / x.denominator, 0⟩

end Exact
end ContentWeave.Number
