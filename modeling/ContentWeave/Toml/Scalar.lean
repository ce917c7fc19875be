import ContentWeave.Json.Reader
import ContentWeave.Number.Numeral
import ContentWeave.Toml.Basic

/-!
Values that are written without quotes: truth values, numbers, dates and times.
-/

namespace ContentWeave.Toml

def denseDigits? (isDigit : Char → Bool) (s : Text) : Option Text :=
  let runs := Text.splitOn '_' s
  if runs.all fun run => !run.isEmpty && run.all isDigit then some runs.flatten else none

def based? (base : Nat) (digits : Text) : Option Nat := do
  let dense ← denseDigits? (fun c => match Json.hexValue? c with
    | some d => decide (d < base)
    | none => false) digits
  return dense.foldl (fun n c => base * n + (Json.hexValue? c).getD 0) 0

def wholeDigits? (s : Text) : Option Text := do
  let dense ← denseDigits? Number.isDigit s
  match dense with
  | '0' :: _ :: _ => none
  | _ => return dense

def integer? (s : Text) : Option Int :=
  match s with
  | '0' :: 'x' :: digits => (based? 16 digits).map fun n => (n : Int)
  | '0' :: 'o' :: digits => (based? 8 digits).map fun n => (n : Int)
  | '0' :: 'b' :: digits => (based? 2 digits).map fun n => (n : Int)
  | s =>
    let (negative, digits) := Number.scanSign s
    (wholeDigits? digits).map fun dense =>
      let n : Int := Text.foldDigits 0 dense
      if negative then -n else n

def ofInteger (n : Int) : Scalar :=
  if -0x80000000000000000000000000000000 ≤ n ∧ n ≤ 0xffffffffffffffffffffffffffffffff then
    .integer n
  else .oversized

def exponent? (s : Text) : Option Int := do
  let (negative, digits) := Number.scanSign s
  let n : Int := Text.foldDigits 0 (← denseDigits? Number.isDigit digits)
  return if negative then -n else n

/-- A float as a value: digits with a fraction, an exponent, or both.  Infinity has to be named. -/
def float? (s : Text) : Option Scalar :=
  let (negative, body) := Number.scanSign s
  if body = "inf".toList ∨ body = "nan".toList then (Number.named? s).map .float
  else
    let isMark := fun c => c == 'e' || c == 'E'
    let mantissa := body.takeWhile (!isMark ·)
    let whole := mantissa.takeWhile (· != '.')
    let fraction : Option Text := match mantissa.dropWhile (· != '.') with
      | [] => some []
      | _ :: digits => denseDigits? Number.isDigit digits
    let exponent : Option Int := match body.dropWhile (!isMark ·) with
      | [] => some 0
      | _ :: exponent => exponent? exponent
    if mantissa = body ∧ whole = mantissa then none
    else match wholeDigits? whole, fraction, exponent with
      | some whole, some fraction, some exponent =>
        let x := Number.Numeral.toFloat ⟨negative, whole, fraction, exponent⟩
        some (if x.isFinite then .float x else .oversized)
      | _, _, _ => none

def readDigits? (count : Nat) (s : Text) : Option (Nat × Text) :=
  let digits := s.take count
  if digits.length = count ∧ digits.all Number.isDigit then
    some (Text.foldDigits 0 digits, s.drop count)
  else none

def daysIn (year month : Nat) : Nat :=
  if month = 2 then
    if year % 4 = 0 ∧ (year % 100 ≠ 0 ∨ year % 400 = 0) then 29 else 28
  else if month = 4 ∨ month = 6 ∨ month = 9 ∨ month = 11 then 30
  else 31

def afterDate? (s : Text) : Option Text := do
  let (year, s) ← readDigits? 4 s
  let (month, s) ← readDigits? 2 (← Text.stripStart ['-'] s)
  let (day, s) ← readDigits? 2 (← Text.stripStart ['-'] s)
  if 1 ≤ month ∧ month ≤ 12 ∧ 1 ≤ day ∧ day ≤ daysIn year month then some s else none

def afterTime? (s : Text) : Option Text := do
  let (hour, s) ← readDigits? 2 s
  let (minute, s) ← readDigits? 2 (← Text.stripStart [':'] s)
  if 24 ≤ hour ∨ 60 ≤ minute then none
  else match s with
    | ':' :: s =>
      let (second, s) ← readDigits? 2 s
      if 60 < second then none
      else match s with
        | '.' :: s =>
          if (s.takeWhile Number.isDigit).isEmpty then none
          else some (s.dropWhile Number.isDigit)
        | s => some s
    | s => some s

def isOffset (s : Text) : Bool :=
  match s with
  | [] => true
  | ['Z'] => true
  | ['z'] => true
  | sign :: s =>
    (sign == '+' || sign == '-') &&
      match readDigits? 2 s with
      | some (hours, ':' :: s) =>
        match readDigits? 2 s with
        | some (minutes, []) => decide (hours < 24 ∧ minutes < 60)
        | _ => false
      | _ => false

def isMoment (s : Text) : Bool :=
  match afterDate? s with
  | some [] => true
  | some (c :: s) =>
    (c == 'T' || c == 't' || c == ' ') &&
      match afterTime? s with
      | some s => isOffset s
      | none => false
  | none => afterTime? s == some []

def scalar? (s : Text) : Option Scalar :=
  if s = "true".toList then some (.boolean true)
  else if s = "false".toList then some (.boolean false)
  else if isMoment s then some .moment
  else match integer? s with
    | some n => some (ofInteger n)
    | none => float? s

end ContentWeave.Toml
