import ContentWeave.Json.Basic
import ContentWeave.Number.Numeral
import ContentWeave.Number.Shortest
import ContentWeave.Table

/-!
The normal form of a document.  Fields stand in the order of their names, each name once, and every
number is written in one way.  Whole numbers of 64 bits are exact and keep their digits; all others
are floating-point numbers, written with the fewest digits that read back as them.  A document has
no normal form if one of its numbers is out of range or one of its strings is no text.
-/

namespace ContentWeave.Json

open Number (Numeral Decimal)

def gather (n : Nat) : Text → Nat × Text
  | [] => (n, [])
  | d :: digits =>
    let next := Text.foldDigits n [d]
    if next ≤ Number.maxNatural then gather next digits else (n, d :: digits)

/-- The part of a numeral that is used: as many of its digits as fit into 64 bits.  The others count
as zeros. -/
def leading (n : Numeral) : Decimal :=
  let (whole, lost) := gather 0 n.whole
  let (digits, unread) := gather whole n.fraction
  ⟨digits, n.exponent + lost.length + unread.length - n.fraction.length⟩

def maxPower : Int := 308

/-- The value of a decimal by one multiplication or division, two for the smallest ones, each of
them rounded.  Numbers beyond the largest one have none. -/
def scaled? (d : Decimal) : Option Float :=
  let x := Number.ofDecimal d.digits 0
  if d.digits = 0 then some 0
  else if maxPower < d.exponent then none
  else if 0 ≤ d.exponent then
    let y := x * Number.ofDecimal 1 d.exponent
    if y.isInf then none else some y
  else if -maxPower ≤ d.exponent then some (x / Number.ofDecimal 1 (-d.exponent))
  else
    let rest := min maxPower (-d.exponent - maxPower)
    some (x / Number.ofDecimal 1 maxPower / Number.ofDecimal 1 rest)

/-- A decimal as digits with a point.  Below `10 ^ -5` and from `10 ^ 16` on it is one digit before
the point and a power of ten. -/
def writeDecimal (d : Decimal) : Text :=
  let digits := Text.ofNat d.digits
  let power := d.exponent + digits.length - 1
  if -5 ≤ power ∧ power ≤ 15 then
    let t := d.text
    if '.' ∈ t then t else t ++ ['.', '0']
  else
    let fraction := ((digits.drop 1).reverse.dropWhile (· == '0')).reverse
    digits.take 1 ++ (if fraction.isEmpty then [] else '.' :: fraction) ++
      ['e', if power < 0 then '-' else '+'] ++ Text.ofNat power.natAbs

def writeFloat (x : Float) : Text :=
  match Number.exactOf? x with
  | some e =>
    (if e.negative then ['-'] else []) ++
      (if e.significand = 0 then "0.0".toList else writeDecimal e.shortest)
  | none => "null".toList

/-- Whether a number is whole, not minus zero, and has 64 bits, with a sign or without. -/
def isWord (written : Text) : Bool :=
  let (negative, digits) := Number.scanSign written
  let n := Text.foldDigits 0 digits
  digits.all Number.isDigit &&
    (if negative then 0 < n && n ≤ 0x8000000000000000 else n ≤ Number.maxNatural)

def normalNumber? (written : Text) : Option Text :=
  if isWord written then some written
  else
    match Numeral.scan written with
    | some (n, _) => (scaled? (leading n)).map fun x => writeFloat (if n.negative then -x else x)
    | none => none

mutual

def normal? : Json → Option Json
  | null => some null
  | bool b => some (bool b)
  | number written => (normalNumber? written).map number
  | string t => some (string t)
  | unpaired => none
  | array items => (normalItems? items).map array
  | object fields => (normalFields? fields).map fun fields =>
    object ((Table.ofList fields).sorted.map fun (name, value) => (some name, value))

def normalItems? : List Json → Option (List Json)
  | [] => some []
  | item :: items =>
    match normal? item, normalItems? items with
    | some item, some items => some (item :: items)
    | _, _ => none

def normalFields? : List (Option Text × Json) → Option (List (Text × Json))
  | [] => some []
  | (name, value) :: fields =>
    match name, normal? value, normalFields? fields with
    | some name, some value, some fields => some ((name, value) :: fields)
    | _, _, _ => none

end

end ContentWeave.Json
