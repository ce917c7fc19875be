import ContentWeave.Json.Basic
import ContentWeave.Number.Numeral

/-!
Reading JSON documents.  Nothing may be left over behind a document but blanks.
-/

namespace ContentWeave.Json

def isSpace (c : Char) : Bool := c == ' ' || c == '\n' || c == '\r' || c == '\t'

def skipSpace (s : Text) : Text := s.dropWhile isSpace

def hexValue? (c : Char) : Option Nat :=
  if '0' ≤ c ∧ c ≤ '9' then some (c.toNat - '0'.toNat)
  else if 'a' ≤ c ∧ c ≤ 'f' then some (c.toNat - 'a'.toNat + 10)
  else if 'A' ≤ c ∧ c ≤ 'F' then some (c.toNat - 'A'.toNat + 10)
  else none

def hexNumber? (digits : Text) : Option Nat :=
  digits.foldlM (fun n c => (hexValue? c).map (16 * n + ·)) 0

def escaped? (c : Char) : Option Nat :=
  if c = '"' ∨ c = '\\' ∨ c = '/' then some c.toNat
  else if c = 'b' then some 0x08
  else if c = 'f' then some 0x0c
  else if c = 'n' then some 0x0a
  else if c = 'r' then some 0x0d
  else if c = 't' then some 0x09
  else none

/-- The code points of a string up to its closing quote, and what follows it.  A pair of surrogates
still counts as two. -/
def readUnits : Text → Option (List Nat × Text)
  | [] => none
  | '"' :: s => some ([], s)
  | '\\' :: 'u' :: a :: b :: c :: d :: s =>
    match hexNumber? [a, b, c, d], readUnits s with
    | some u, some (units, rest) => some (u :: units, rest)
    | _, _ => none
  | '\\' :: c :: s =>
    match escaped? c, readUnits s with
    | some u, some (units, rest) => some (u :: units, rest)
    | _, _ => none
  | c :: s =>
    if c.toNat < 0x20 ∨ c = '\\' then none
    else match readUnits s with
      | some (units, rest) => some (c.toNat :: units, rest)
      | none => none

def isHighSurrogate (u : Nat) : Bool := 0xd800 ≤ u && u ≤ 0xdbff

def isLowSurrogate (u : Nat) : Bool := 0xdc00 ≤ u && u ≤ 0xdfff

def textOfUnits? : List Nat → Option Text
  | [] => some []
  | [u] => if isHighSurrogate u || isLowSurrogate u then none else some [Char.ofNat u]
  | u :: v :: units =>
    if isHighSurrogate u then
      if isLowSurrogate v then
        (textOfUnits? units).map (Char.ofNat (0x10000 + (u - 0xd800) * 0x400 + (v - 0xdc00)) :: ·)
      else none
    else if isLowSurrogate u then none
    else (textOfUnits? (v :: units)).map (Char.ofNat u :: ·)

def readDigits? (s : Text) : Option (Text × Text) :=
  match s.takeWhile Number.isDigit with
  | [] => none
  | digits => some (digits, s.dropWhile Number.isDigit)

def readWhole? (s : Text) : Option (Text × Text) :=
  match s with
  | '0' :: s => some (['0'], s)
  | s => readDigits? s

def readFraction? (s : Text) : Option (Text × Text) :=
  match s with
  | '.' :: s => (readDigits? s).map fun (digits, rest) => ('.' :: digits, rest)
  | s => some ([], s)

def readExponent? (s : Text) : Option (Text × Text) :=
  match s with
  | e :: s =>
    if e = 'e' ∨ e = 'E' then
      match s with
      | sign :: t =>
        if sign = '+' ∨ sign = '-' then
          (readDigits? t).map fun (digits, rest) => (e :: sign :: digits, rest)
        else (readDigits? s).map fun (digits, rest) => (e :: digits, rest)
      | [] => none
    else some ([], e :: s)
  | [] => some ([], [])

def readNumber? (s : Text) : Option (Text × Text) := do
  let (sign, s) := match s with
    | '-' :: s => (['-'], s)
    | s => ([], s)
  let (whole, s) ← readWhole? s
  let (fraction, s) ← readFraction? s
  let (exponent, s) ← readExponent? s
  return (sign ++ whole ++ fraction ++ exponent, s)

def readString? (s : Text) : Option (Option Text × Text) :=
  (readUnits s).map fun (units, rest) => (textOfUnits? units, rest)

mutual

/-- The document that a text begins with.  `fuel` bounds the steps; twice the length of the text is
always enough. -/
def readValue? : (fuel : Nat) → Text → Option (Json × Text)
  | 0, _ => none
  | fuel + 1, s =>
    match skipSpace s with
    | '"' :: s => (readString? s).map fun (t, rest) =>
        match t with
        | some t => (string t, rest)
        | none => (unpaired, rest)
    | '[' :: s =>
      match skipSpace s with
      | ']' :: rest => some (array [], rest)
      | s => (readItems? fuel s).map fun (items, rest) => (array items, rest)
    | '\x7b' :: s =>
      match skipSpace s with
      | '\x7d' :: rest => some (object [], rest)
      | s => (readFields? fuel s).map fun (fields, rest) => (object fields, rest)
    | s =>
      match Text.stripStart "null".toList s, Text.stripStart "true".toList s,
          Text.stripStart "false".toList s with
      | some rest, _, _ => some (null, rest)
      | _, some rest, _ => some (bool true, rest)
      | _, _, some rest => some (bool false, rest)
      | none, none, none => (readNumber? s).map fun (written, rest) => (number written, rest)

def readItems? : (fuel : Nat) → Text → Option (List Json × Text)
  | 0, _ => none
  | fuel + 1, s =>
    match readValue? fuel s with
    | none => none
    | some (item, s) =>
      match skipSpace s with
      | ',' :: s => (readItems? fuel s).map fun (items, rest) => (item :: items, rest)
      | ']' :: rest => some ([item], rest)
      | _ => none

def readFields? : (fuel : Nat) → Text → Option (List (Option Text × Json) × Text)
  | 0, _ => none
  | fuel + 1, s =>
    match skipSpace s with
    | '"' :: s =>
      match readString? s with
      | none => none
      | some (name, s) =>
        match skipSpace s with
        | ':' :: s =>
          match readValue? fuel s with
          | none => none
          | some (value, s) =>
            match skipSpace s with
            | ',' :: s =>
              (readFields? fuel s).map fun (fields, rest) => ((name, value) :: fields, rest)
            | '\x7d' :: rest => some ([(name, value)], rest)
            | _ => none
        | _ => none
    | _ => none

end

def parse? (s : Text) : Option Json :=
  match readValue? (2 * s.length + 2) s with
  | some (j, rest) => if (skipSpace rest).isEmpty then some j else none
  | none => none

end ContentWeave.Json
