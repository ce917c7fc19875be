import ContentWeave.Text.Basic
import ContentWeave.Text.CaseTable
import ContentWeave.Text.Property.Casing

/-!
Upper and lower case in every script.  One character may become several, and a capital sigma at
the end of a word becomes a final sigma.
-/

namespace ContentWeave.Text

def CaseRun.target? (run : CaseRun) (n : Nat) : Option Nat :=
  if run.first ≤ n ∧ n ≤ run.last ∧ (n - run.first) % run.stride = 0 then
    some (n + run.distance).toNat
  else none

def mapCase (runs : List CaseRun) (expansions : List (Nat × List Nat)) (c : Char) : Text :=
  match expansions.lookup c.toNat with
  | some codes => codes.map Char.ofNat
  | none =>
    match runs.findSome? (·.target? c.toNat) with
    | some code => [Char.ofNat code]
    | none => [c]

def upperChar (c : Char) : Text :=
  if c.toNat < 0x80 then [c.toUpper] else mapCase upperRuns upperExpansions c

def lowerChar (c : Char) : Text :=
  if c.toNat < 0x80 then [c.toLower] else mapCase lowerRuns lowerExpansions c

def casedNext (s : Text) : Bool :=
  match s.dropWhile (caseIgnorable.has ·) with
  | [] => false
  | c :: _ => cased.has c

def toUpper (s : Text) : Text := s.flatMap upperChar

/-- The text `s` in lower case, when the characters of `before` stand in front of it, last one
first.  A capital sigma is final if a cased character comes before it and none comes after. -/
def lowerAfter : (before s : Text) → Text
  | _, [] => []
  | before, c :: cs =>
    (if c = 'Σ' then (if casedNext before && !casedNext cs then ['ς'] else ['σ']) else lowerChar c)
      ++ lowerAfter (c :: before) cs

def toLower (s : Text) : Text := lowerAfter [] s

end ContentWeave.Text
