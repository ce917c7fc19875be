import ContentWeave.Placeholder
import ContentWeave.Text.Slice

/-!
Placeholders in place.  A scan of a template stands at a place of it, as a scan for directives does.
-/

namespace ContentWeave.Placeholder

open Text (Misplaced Move slice sliceFrom byteLength find? findWord?)

def partsOf? (body : Text) : Except Misplaced (Option (Text × Text × List Text)) := do
  let nameLength := (find? (!isNameChar ·) body).getD (byteLength body)
  if nameLength = 0 then return none
  else
    let name ← slice body 0 nameLength
    let rest ← sliceFrom body nameLength
    let (format, parameters) := cutAtComma ((Text.stripStart [':'] rest).getD rest)
    return some (name, Text.trim format, parametersOf parameters)

def matchAt? (template : Text) (start : Nat) : Except Misplaced (Option Placeholder) := do
  let tokenStart := start + 2
  match ← sliceFrom template tokenStart with
  | [] => return none
  | token :: _ =>
    if !isToken token then return none
    else
      let bodyStart := tokenStart + token.utf8Size
      match find? (· == ']') (← sliceFrom template bodyStart) with
      | none => return none
      | some length =>
        let bodyEnd := bodyStart + length
        if !Text.startsWith [']', ']'] (← sliceFrom template bodyEnd) then return none
        else
          match ← partsOf? (← slice template bodyStart bodyEnd) with
          | none => return none
          | some (name, format, parameters) =>
            return some ⟨← slice template start (bodyEnd + 2), token, name, format, parameters⟩

def step (template : Text) (place : Nat) : Except Misplaced (Option (Move Placeholder)) := do
  match findWord? ['[', '['] (← sliceFrom template place) with
  | none => return none
  | some offset =>
    let start := place + offset
    match ← matchAt? template start with
    | some p => return some ⟨some p, start + byteLength p.raw⟩
    | none => return some ⟨none, start + 1⟩

end ContentWeave.Placeholder
