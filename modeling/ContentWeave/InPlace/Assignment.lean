import ContentWeave.Argument
import ContentWeave.Text.Slice

/-!
Assignments in place.  A scan of a call stands at a place of it and looks for the next `=`.  In front of
it is the name, behind it the value, and behind what ends the value the scan goes on.
-/

namespace ContentWeave.Assignment

open Text (Misplaced Move slice sliceFrom byteLength find? placed)

/-- The place behind the character at this place, if it ends an assignment. -/
def endingAt? (raw : Text) (place : Nat) : Except Misplaced (Option Nat) := do
  match ← sliceFrom raw place with
  | [] => return none
  | c :: _ => if isEnd c then return some (place + c.utf8Size) else return none

/-- The places of the quotes that can close a literal.  A quote must be behind a character other than a
backslash, and a line end can only be the last character of the literal. -/
def closers (previous : Option Char) : List (Nat × Char) → List Nat
  | [] => []
  | (place, c) :: places =>
    let closes := c == '\'' && previous.any (· != '\\')
    if previous = some '\n' then if closes then [place] else []
    else if closes then place :: closers (some c) places
    else closers (some c) places

section Literals

variable {α : Type} (follow : Literal → Nat → Except Misplaced (Option α))

/-- What follows the quoted literal that begins at `start`, if it is closed by the first of the quotes
that something follows. -/
def firstClosed? (raw : Text) (start : Nat) : List Nat → Except Misplaced (Option α)
  | [] => return none
  | close :: more => do
    let content ← slice raw (start + 1) close
    match ← follow (.quoted content) (close + 1) with
    | some found => return some found
    | none => firstClosed? raw start more

def quotedIn? (raw : Text) (start : Nat) : Except Misplaced (Option α) := do
  match ← sliceFrom raw start with
  | '\'' :: _ =>
    let behind ← sliceFrom raw (start + 1)
    firstClosed? follow raw start (closers none (placed (start + 1) behind))
  | _ => return none

def bareIn? (stop : Char → Bool) (raw : Text) (start : Nat) : Except Misplaced (Option α) := do
  match find? stop (← sliceFrom raw start) with
  | none => return none
  | some length =>
    let content ← slice raw start (start + length)
    follow (.bare content) (start + length)

/-- What follows the literal that begins at `start`.  It is bare up to the first character that `stop`
takes, if it is not quoted. -/
def literalIn? (stop : Char → Bool) (raw : Text) (start : Nat) : Except Misplaced (Option α) := do
  match ← quotedIn? follow raw start with
  | some found => return some found
  | none => bareIn? follow stop raw start

end Literals

def afterDefault? (raw : Text) (default : Literal) (place : Nat) :
    Except Misplaced (Option (Literal × Nat)) := do
  return (← endingAt? raw place).map fun stop => (default, stop)

def defaultFrom? (raw : Text) (start : Nat) : Except Misplaced (Option (Literal × Nat)) :=
  literalIn? (afterDefault? raw) isEnd raw start

/-- What follows a value: its end, or a bar and a default.  Behind a bar it is settled that the value
ends there, even if there is no default. -/
def afterValue? (raw : Text) (value : Literal) (place : Nat) :
    Except Misplaced (Option (Option (Literal × Option Literal × Nat))) := do
  match ← endingAt? raw place with
  | some stop => return some (some (value, none, stop))
  | none =>
    match ← sliceFrom raw place with
    | '|' :: _ =>
      let default ← defaultFrom? raw (place + 1)
      return some (default.map fun (default, stop) => (value, some default, stop))
    | _ => return none

/-- The value that begins at `start`, its default, and the place behind what ends them. -/
def valuesFrom? (raw : Text) (start : Nat) :
    Except Misplaced (Option (Literal × Option Literal × Nat)) := do
  return (← literalIn? (afterValue? raw) isValueEnd raw start).join

/-- The place where the word that ends at `stop` begins, if `front` is what stands from `place` to
`stop`. -/
def wordStart (place stop : Nat) (front : Text) : Nat :=
  let word := (placed 0 front).reverse.takeWhile fun entry => Text.isWordChar entry.2
  word.getLast?.elim stop fun (offset, _) => place + offset

def step (raw : Text) (place : Nat) : Except Misplaced (Option (Move Assignment)) := do
  match find? (· == '=') (← sliceFrom raw place) with
  | none => return none
  | some offset =>
    let sign := place + offset
    let front ← slice raw place sign
    let name ← slice raw (wordStart place sign front) sign
    match ← valuesFrom? raw (sign + 1) with
    | none => return none
    | some (value, default, stop) => return some ⟨some ⟨name, value, default⟩, stop⟩

end ContentWeave.Assignment
