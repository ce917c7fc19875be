/-!
Text is a list of characters.  The readers of this library take text apart from the left, and the
small operations here are the ones that more than one of them needs.
-/

namespace ContentWeave

abbrev Text := List Char

instance : LE Text := List.instLE

instance : DecidableLE Text := fun s t => List.decidableLE s t

namespace Text

def stripStart : (start s : Text) → Option Text
  | [], s => some s
  | _ :: _, [] => none
  | p :: ps, c :: cs => if p = c then stripStart ps cs else none

theorem stripStart_eq_some_iff {start s rest : Text} :
    stripStart start s = some rest ↔ s = start ++ rest := by
  induction start generalizing s with
  | nil => simp [stripStart]
  | cons p ps ih =>
    cases s with
    | nil => simp [stripStart]
    | cons c cs =>
      by_cases h : p = c
      · simp [stripStart, h, ih]
      · simp [stripStart, h, Ne.symm h]

def startsWith (start s : Text) : Bool := (stripStart start s).isSome

def contains (part : Text) : Text → Bool
  | [] => part.isEmpty
  | c :: cs => startsWith part (c :: cs) || contains part cs

def splitOn (sep : Char) : Text → List Text
  | [] => [[]]
  | c :: cs =>
    if c = sep then [] :: splitOn sep cs
    else match splitOn sep cs with
      | [] => [[c]]
      | piece :: pieces => (c :: piece) :: pieces

def joinWith (sep : Text) : List Text → Text
  | [] => []
  | [piece] => piece
  | piece :: next :: pieces => piece ++ sep ++ joinWith sep (next :: pieces)

theorem splitOn_ne_nil (sep : Char) (s : Text) : splitOn sep s ≠ [] := by
  cases s with
  | nil => simp [splitOn]
  | cons c cs =>
    simp only [splitOn]
    split
    · simp
    · split <;> simp

def ofNat (n : Nat) : Text := Nat.toDigits 10 n

def ofInt : Int → Text
  | .ofNat n => ofNat n
  | .negSucc n => '-' :: ofNat (n + 1)

def digit? (c : Char) : Option Nat :=
  if '0' ≤ c ∧ c ≤ '9' then some (c.toNat - '0'.toNat) else none

/-- The number that a run of decimal digits stands for, continuing from `acc`; other characters
are passed over. -/
def foldDigits (acc : Nat) (digits : Text) : Nat :=
  digits.foldl (fun n c => match digit? c with | some d => 10 * n + d | none => n) acc

def trimBoth (p : Char → Bool) (s : Text) : Text :=
  ((s.dropWhile p).reverse.dropWhile p).reverse

end Text
end ContentWeave
