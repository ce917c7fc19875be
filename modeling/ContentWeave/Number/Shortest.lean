import ContentWeave.Text.Basic
import ContentWeave.Number.Exact

/-!
The text of a number: the fewest decimal digits that read back as it, and of those the nearest,
written without an exponent.
-/

namespace ContentWeave.Number

structure Decimal where
  digits : Nat
  exponent : Int
deriving DecidableEq, Repr

namespace Exact

/-- The numbers that read back as `x`: between the midpoints to its two neighbours, in quarters of
`2 ^ exponent`, the midpoints included exactly when the significand is even. -/
structure Interval where
  low : Nat
  high : Nat
  closed : Bool

/-- The interval of a number that is not zero.  Below a power of two the neighbours are half as far
apart as above it. -/
def interval (x : Exact) : Interval where
  low := 4 * x.significand -
    (if x.significand = normalSignificand ∧ leastExponent < x.exponent then 1 else 2)
  high := 4 * x.significand + 2
  closed := x.significand % 2 = 0

def admits (x : Exact) (d : Decimal) : Bool :=
  let left := 4 * d.digits * Nat.pow 10 d.exponent.toNat * Nat.pow 2 (-x.exponent).toNat
  let unit := Nat.pow 10 (-d.exponent).toNat * Nat.pow 2 x.exponent.toNat
  let i := x.interval
  if i.closed then i.low * unit ≤ left && left ≤ i.high * unit
  else i.low * unit < left && left < i.high * unit

/-- The exponent of the least power of ten above the magnitude of a number that is not zero: the
count of digits before its point, less the count of zeros that follow the point of a number below
one. -/
def decimalPoint (x : Exact) : Int :=
  let whole := x.numerator / x.denominator
  if whole = 0 then 1 - ((Nat.toDigits 10 ((x.denominator - 1) / x.numerator)).length : Int)
  else ((Nat.toDigits 10 whole).length : Int)

/-- The decimals with exponent `exponent` on the two sides of a number, the nearer one first; of
two equally near ones the larger comes first. -/
def neighbours (x : Exact) (exponent : Int) : List Decimal :=
  let num := x.numerator * Nat.pow 10 (-exponent).toNat
  let den := x.denominator * Nat.pow 10 exponent.toNat
  let below := num / den
  if 2 * (num % den) < den then [⟨below, exponent⟩, ⟨below + 1, exponent⟩]
  else [⟨below + 1, exponent⟩, ⟨below, exponent⟩]

/-- The shortest decimal for a number that is not zero, trying one digit more at a time; seventeen
digits always suffice. -/
def shortest (x : Exact) : Decimal :=
  let candidates := (List.range 17).flatMap fun (n : Nat) =>
    x.neighbours (x.decimalPoint - (n + 1 : Nat))
  (candidates.find? x.admits).getD ⟨0, 0⟩

end Exact

def Decimal.text (d : Decimal) : Text :=
  let digits := Text.ofNat d.digits
  if 0 ≤ d.exponent then digits ++ List.replicate d.exponent.toNat '0'
  else
    let places := (-d.exponent).toNat
    let padded := List.replicate (places + 1 - digits.length) '0' ++ digits
    let whole := padded.take (padded.length - places)
    let fraction := (padded.drop (padded.length - places)).reverse.dropWhile (· == '0')
    if fraction.isEmpty then whole else whole ++ '.' :: fraction.reverse

def text (x : Float) : Text :=
  match exactOf? x with
  | some e =>
    (if e.negative then ['-'] else []) ++
      (if e.significand = 0 then ['0'] else e.shortest.text)
  | none =>
    if x.isNaN then "NaN".toList else if isNegative x then "-inf".toList else "inf".toList

end ContentWeave.Number
