import ContentWeave.Text.Basic

/-!
A pattern recognises items at the start of a text.  Scanning with a pattern cuts a text, from left
to right, into items and the characters between them: where no item begins, one character is
passed over; an item is passed over as a whole, so items never overlap.
-/

namespace ContentWeave.Text

structure Pattern (α : Type) where
  first? : Text → Option α
  raw : α → Text
  raw_of_first? : ∀ {s a}, first? s = some a → raw a ≠ [] ∧ raw a <+: s

inductive Piece (α : Type) where
  | gap (c : Char)
  | item (a : α)
deriving DecidableEq

def Piece.item? {α : Type} : Piece α → Option α
  | gap _ => none
  | item a => some a

namespace Pattern

variable {α : Type} (p : Pattern α)

/-- The pieces of a text whose first `skip` characters belong to an item already found. -/
def piecesFrom : (skip : Nat) → Text → List (Piece α)
  | _, [] => []
  | skip + 1, _ :: cs => piecesFrom skip cs
  | 0, c :: cs =>
    match p.first? (c :: cs) with
    | some a => .item a :: piecesFrom ((p.raw a).length - 1) cs
    | none => .gap c :: piecesFrom 0 cs

def pieces (s : Text) : List (Piece α) := p.piecesFrom 0 s

def items (s : Text) : List α := (p.pieces s).filterMap Piece.item?

def write : Piece α → Text
  | .gap c => [c]
  | .item a => p.raw a

def substitute (f : α → Text) (s : Text) : Text :=
  (p.pieces s).flatMap fun
    | .gap c => [c]
    | .item a => f a

theorem piecesFrom_append (x s : Text) : p.piecesFrom x.length (x ++ s) = p.pieces s := by
  induction x with
  | nil => rfl
  | cons c x ih => simpa [piecesFrom] using ih

@[simp] theorem pieces_nil : p.pieces [] = [] := by rw [pieces, piecesFrom]

theorem pieces_of_first? {s : Text} {a : α} (h : p.first? s = some a) :
    ∃ rest, s = p.raw a ++ rest ∧ p.pieces s = .item a :: p.pieces rest := by
  obtain ⟨hne, rest, hs⟩ := p.raw_of_first? h
  refine ⟨rest, hs.symm, ?_⟩
  obtain ⟨c, cs, hraw⟩ := List.exists_cons_of_ne_nil hne
  rw [hraw, List.cons_append] at hs
  subst hs
  rw [pieces, piecesFrom, h]
  simp only [hraw, List.length_cons, Nat.add_sub_cancel]
  rw [piecesFrom_append]

theorem pieces_cons_of_first?_eq_none {c : Char} {cs : Text} (h : p.first? (c :: cs) = none) :
    p.pieces (c :: cs) = .gap c :: p.pieces cs := by
  rw [pieces, piecesFrom, h]
  rfl

/-- Scanning loses nothing: the pieces, written one after the other, are the text. -/
theorem flatMap_write_pieces (s : Text) : (p.pieces s).flatMap p.write = s := by
  generalize hn : s.length = n
  induction n using Nat.strongRecOn generalizing s with
  | ind n ih =>
    cases s with
    | nil => simp
    | cons c cs =>
      cases h : p.first? (c :: cs) with
      | none =>
        rw [pieces_cons_of_first?_eq_none p h, List.flatMap_cons, write,
          ih cs.length (by simp at hn; omega) cs rfl]
        rfl
      | some a =>
        obtain ⟨rest, hs, hp⟩ := p.pieces_of_first? h
        have hlt : rest.length < n := by
          have := congrArg List.length hs
          have hne := List.length_pos_iff.2 (p.raw_of_first? h).1
          rw [List.length_append, hn] at this
          omega
        rw [hp, List.flatMap_cons, write, ih rest.length hlt rest rfl, ← hs]

end Pattern

def Pattern.exactly (word : Text) (h : word ≠ []) : Pattern Unit where
  first? s := if startsWith word s then some () else none
  raw _ := word
  raw_of_first? := by
    intro s a hs
    refine ⟨h, ?_⟩
    by_cases hw : startsWith word s = true
    · rw [startsWith, Option.isSome_iff_exists] at hw
      obtain ⟨rest, hr⟩ := hw
      exact ⟨rest, (stripStart_eq_some_iff.1 hr).symm⟩
    · simp [hw] at hs

/-- The text with every occurrence of `word` replaced, from left to right; the empty word has no
occurrences. -/
def replaceAll (word new s : Text) : Text :=
  if h : word = [] then s else (Pattern.exactly word h).substitute (fun _ => new) s

end ContentWeave.Text
