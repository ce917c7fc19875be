import ContentWeave.Directive
import ContentWeave.Text.Slice

/-!
Directives in place.  A scan of a text stands at a place of it.  It looks for double brackets from there
on, and cuts the directive out if one begins with them; otherwise it goes on behind the first of the
brackets.
-/

namespace ContentWeave.Directive

open Text (Misplaced Move slice sliceFrom bytesFrom byteLength find? findWord? placed)

def keyRun? (raw : Text) (start : Nat) : Except Misplaced (Option Text) := do
  let rest ← sliceFrom raw start
  let length := (find? (!isKeyChar ·) rest).getD (byteLength rest)
  if length = 0 then return none
  else
    match ← sliceFrom rest length with
    | [] => return none
    | c :: _ => if endsKey c then return some (← slice rest 0 length) else return none

def tokenAndKeyHere? (raw : Text) (place : Nat) (c : Char) :
    Except Misplaced (Option (Option Char × Text)) := do
  let withToken ←
    if Text.isWordChar c || c == '[' then pure none else keyRun? raw (place + c.utf8Size)
  match withToken with
  | some key => return some (some c, key)
  | none => return (← keyRun? raw place).map fun key => (none, key)

def tokenAndKeyFrom? (raw : Text) : List (Nat × Char) → Except Misplaced (Option (Option Char × Text))
  | [] => return none
  | (place, c) :: places => do
    match ← tokenAndKeyHere? raw place c with
    | some found => return some found
    | none => tokenAndKeyFrom? raw places

def parseInPlace (raw : Text) : Except Misplaced Directive := do
  match ← tokenAndKeyFrom? raw (placed 0 raw) with
  | some (token, key) => return ⟨raw, token, key⟩
  | none => return ⟨raw, none, []⟩

def isBracketByte (b : UInt8) : Bool := b == 0x5b || b == 0x5d

/-- Where a directive ends whose brackets begin at `start`, if one begins there. -/
def stopAt? (text : Text) (start : Nat) : Except Misplaced (Option Nat) := do
  let bodyStart := start + 2
  let bracket := (← bytesFrom text bodyStart).findIdx? isBracketByte
  let bodyEnd := bracket.elim (byteLength text) (bodyStart + ·)
  if bodyStart < bodyEnd && [0x5d, 0x5d].isPrefixOf (← bytesFrom text bodyEnd) then
    return some (bodyEnd + 2)
  else return none

def step (text : Text) (place : Nat) : Except Misplaced (Option (Move Directive)) := do
  match findWord? ['[', '['] (← sliceFrom text place) with
  | none => return none
  | some offset =>
    let start := place + offset
    match ← stopAt? text start with
    | some stop => return some ⟨some (← parseInPlace (← slice text start stop)), stop⟩
    | none => return some ⟨none, start + 1⟩

end ContentWeave.Directive
