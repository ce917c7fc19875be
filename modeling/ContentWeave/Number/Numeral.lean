import ContentWeave.Text.Basic

/-!
Reading numbers.  Natural numbers are plain digits.  Other numbers are decimal numerals: an optional
sign, digits with an optional point, and an optional exponent.  A point needs a digit on one of its
sides, and an exponent mark is part of the numeral only if digits follow it.
-/

namespace ContentWeave.Number

def isDigit (c : Char) : Bool := '0' ≤ c && c ≤ '9'

def maxNatural : Nat := 0xffffffffffffffff

def natural? (s : Text) : Option Nat :=
  let digits := (Text.stripStart ['+'] s).getD s
  if digits.isEmpty || digits.any (fun c => !isDigit c) then none
  else
    let n := Text.foldDigits 0 digits
    if n ≤ maxNatural then some n else none

structure Numeral where
  negative : Bool
  whole : Text
  fraction : Text
  exponent : Int
deriving DecidableEq, Repr

def scanSign : Text → Bool × Text
  | '-' :: s => (true, s)
  | '+' :: s => (false, s)
  | s => (false, s)

def scanFraction : Text → Text × Text
  | '.' :: s => (s.takeWhile isDigit, s.dropWhile isDigit)
  | s => ([], s)

def scanExponent : Text → Int × Text
  | c :: s =>
    if c = 'e' ∨ c = 'E' then
      let (negative, t) := scanSign s
      let digits := t.takeWhile isDigit
      if digits.isEmpty then (0, c :: s)
      else
        let n : Int := Text.foldDigits 0 digits
        (if negative then -n else n, t.dropWhile isDigit)
    else (0, c :: s)
  | [] => (0, [])

def Numeral.scan (s : Text) : Option (Numeral × Text) :=
  let (negative, s) := scanSign s
  let whole := s.takeWhile isDigit
  let (fraction, s) := scanFraction (s.dropWhile isDigit)
  if whole.isEmpty && fraction.isEmpty then none
  else
    let (exponent, s) := scanExponent s
    some (⟨negative, whole, fraction, exponent⟩, s)

/-- The number nearest to `digits · 10 ^ exponent`.  Beyond the largest number that is infinity,
and far below the least one it is zero, whatever the digits are. -/
def ofDecimal (digits : Nat) (exponent : Int) : Float :=
  let size := (Nat.toDigits 10 digits).length + exponent
  if digits = 0 ∨ size < -400 then 0
  else if 400 < size then 1 / 0
  else Float.ofScientific digits (decide (exponent < 0)) exponent.natAbs

def Numeral.toFloat (n : Numeral) : Float :=
  let magnitude := ofDecimal (Text.foldDigits 0 (n.whole ++ n.fraction))
    (n.exponent - n.fraction.length)
  if n.negative then -magnitude else magnitude

def named? (s : Text) : Option Float :=
  let (negative, name) := scanSign s
  let lower := name.map Char.toLower
  if lower = "inf".toList ∨ lower = "infinity".toList then
    some (if negative then -(1 / 0) else 1 / 0)
  else if lower = "nan".toList then some (0 / 0)
  else none

def read? (s : Text) : Option Float :=
  match Numeral.scan s with
  | some (n, []) => some n.toFloat
  | _ => named? s

end ContentWeave.Number
