import ContentWeave.Text.Utf8

/-!
Text by places.  A place is a number of bytes from the start of a text.  Text can be cut only at the
places where a character begins and at its end; a cut anywhere else is a fault, as is one whose start
is behind its stop.
-/

namespace ContentWeave.Text

/-- A cut that cannot be made. -/
structure Misplaced where
  start : Nat
  stop : Nat
deriving DecidableEq, Repr

/-- Whether a text can be cut at a place.  Its bytes tell: behind the first one of a character stand
bytes that no character begins with. -/
def isBoundary (s : Text) (place : Nat) : Bool :=
  match s.toUtf8[place]? with
  | some b => decide b.IsUTF8FirstByte
  | none => place == byteLength s

def slice (s : Text) (start stop : Nat) : Except Misplaced Text :=
  if start ≤ stop ∧ isBoundary s start ∧ isBoundary s stop then
    match ofUtf8? ((s.toUtf8.drop start).take (stop - start)) with
    | some t => .ok t
    | none => .error ⟨start, stop⟩
  else .error ⟨start, stop⟩

def sliceFrom (s : Text) (start : Nat) : Except Misplaced Text := slice s start (byteLength s)

def bytesFrom (s : Text) (start : Nat) : Except Misplaced Bytes :=
  if start ≤ byteLength s then .ok (s.toUtf8.drop start) else .error ⟨start, byteLength s⟩

def find? (p : Char → Bool) : Text → Option Nat
  | [] => none
  | c :: cs => if p c then some 0 else (find? p cs).map (c.utf8Size + ·)

def findWord? (word : Text) : Text → Option Nat
  | [] => if word.isEmpty then some 0 else none
  | c :: cs =>
    if startsWith word (c :: cs) then some 0 else (findWord? word cs).map (c.utf8Size + ·)

def placed : (place : Nat) → Text → List (Nat × Char)
  | _, [] => []
  | place, c :: cs => (place, c) :: placed (place + c.utf8Size) cs

/-- One move of a scan: what it found, if it found something, and the place where it goes on. -/
structure Move (α : Type) where
  found : Option α
  next : Nat
deriving DecidableEq, Repr

end ContentWeave.Text
