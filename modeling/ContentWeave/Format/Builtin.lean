import ContentWeave.Format.Error
import ContentWeave.Format.Grouping
import ContentWeave.Format.Markup
import ContentWeave.Text.Casing
import ContentWeave.Value

/-!
The formats that every registry can start with.
-/

namespace ContentWeave.Format

abbrev Formatter := Settings → Value → List Value → Except Error Text

def maxDecimals : Nat := 20

def numberOf (format : Text) (v : Value) : Except Error Float :=
  match v.toNumber? with
  | some x => if x.isFinite then .ok x else .error (.badValue format v.display)
  | none => .error (.badValue format v.display)

/-- A parameter that is a natural number; one that is missing or blank counts as absent. -/
def naturalParameter (format : Text) : Option Value → Except Error (Option Nat)
  | none => .ok none
  | some v =>
    let raw := Text.trim v.display
    if raw.isEmpty then .ok none
    else match Number.natural? raw with
      | some n => .ok (some n)
      | none => .error (.badParameter format raw "expected a non-negative integer".toList)

def decimalsParameter (format : Text) (p : Option Value) : Except Error (Option Nat) := do
  match ← naturalParameter format p with
  | some n =>
    if maxDecimals < n then
      .error (.badParameter format (Text.ofNat n) ("at most ".toList ++ Text.ofNat maxDecimals
        ++ " decimals are supported".toList))
    else return some n
  | none => return none

inductive Builtin where
  | raw | text | ntext | uppercase | lowercase | integer | decimal | percent | currency
  | boolean | truncate
deriving DecidableEq

namespace Builtin

def all : List Builtin :=
  [raw, text, ntext, uppercase, lowercase, integer, decimal, percent, currency, boolean, truncate]

def name : Builtin → Text
  | raw => "raw".toList
  | text => "text".toList
  | ntext => "ntext".toList
  | uppercase => "uppercase".toList
  | lowercase => "lowercase".toList
  | integer => "integer".toList
  | decimal => "decimal".toList
  | percent => "percent".toList
  | currency => "currency".toList
  | boolean => "boolean".toList
  | truncate => "truncate".toList

def currencyOf (settings : Settings) (p : Option Value) : Text :=
  match p.map Value.display with
  | some (c :: code) => c :: code
  | _ => settings.currencyCode

def cut (t : Text) (length : Nat) (suffix : Text) : Text :=
  if t.length ≤ length then t else t.take length ++ suffix

def format (b : Builtin) : Formatter := fun settings v parameters =>
  match b with
  | raw => .ok v.display
  | text => .ok (escape v.display)
  | ntext => .ok (breakLines (escape v.display))
  | uppercase => .ok (Text.toUpper v.display)
  | lowercase => .ok (Text.toLower v.display)
  | integer => do
    let x ← numberOf b.name v
    return groupedWhole x settings
  | decimal => do
    let x ← numberOf b.name v
    let decimals ← decimalsParameter b.name parameters[0]?
    return grouped x (decimals.getD 2) settings
  | percent => do
    let x ← numberOf b.name v
    let decimals ← decimalsParameter b.name parameters[0]?
    return grouped (x * 100) (decimals.getD 0) settings ++ ['%']
  | currency => do
    let x ← numberOf b.name v
    let decimals ← decimalsParameter b.name parameters[1]?
    return currencyOf settings parameters[0]? ++ [' '] ++ grouped x (decimals.getD 2) settings
  | boolean => .ok (if v.isTrue then settings.booleanTrue else settings.booleanFalse)
  | truncate => do
    match ← naturalParameter b.name parameters[0]? with
    | none => throw (.badParameter b.name [] "length is required".toList)
    | some length =>
      return cut v.display length ((parameters[1]?.map Value.display).getD "...".toList)

end Builtin
end ContentWeave.Format
