import ContentWeave.Text.Pattern
import Mathlib.Data.List.Infix
import Mathlib.Tactic.Common

/-!
# Where the items of a text stand

Scanning yields the items of a text from left to right, and no two of them overlap. Wherever an item
begins, it is yielded, unless one that begins earlier reaches over its first character.
-/

namespace ContentWeave.Text.Pattern

variable {α : Type} (p : Pattern α)

/-- The items among pieces, each with the number of characters in front of it; `before` of them
come before the pieces. -/
def placesFrom : (before : ℕ) → List (Piece α) → List (ℕ × α)
  | _, [] => []
  | before, .gap _ :: pieces => placesFrom (before + 1) pieces
  | before, .item a :: pieces => (before, a) :: placesFrom (before + (p.raw a).length) pieces

/-- The items of a text, each with the number of characters in front of it. -/
def places (s : Text) : List (ℕ × α) := p.placesFrom 0 (p.pieces s)

theorem map_snd_placesFrom (before : ℕ) (pieces : List (Piece α)) :
    (p.placesFrom before pieces).map Prod.snd = pieces.filterMap Piece.item? := by
  induction pieces generalizing before with
  | nil => rfl
  | cons piece pieces ih =>
    cases piece with
    | gap c => simpa [placesFrom, Piece.item?, List.filterMap_cons] using ih (before + 1)
    | item a => simpa [placesFrom, Piece.item?] using ih (before + (p.raw a).length)

theorem map_snd_places (s : Text) : (p.places s).map Prod.snd = p.items s :=
  p.map_snd_placesFrom 0 _

theorem mem_items_iff_places {s : Text} {a : α} : a ∈ p.items s ↔ ∃ i, (i, a) ∈ p.places s := by
  rw [← map_snd_places, List.mem_map]
  constructor
  · rintro ⟨⟨i, b⟩, hb, rfl⟩
    exact ⟨i, hb⟩
  · rintro ⟨i, hi⟩
    exact ⟨(i, a), hi, rfl⟩

theorem placesFrom_add (before more : ℕ) (pieces : List (Piece α)) :
    p.placesFrom (before + more) pieces =
      (p.placesFrom before pieces).map (Prod.map (· + more) id) := by
  induction pieces generalizing before with
  | nil => rfl
  | cons piece pieces ih =>
    cases piece with
    | gap c =>
      have hnext := ih (before + 1)
      rw [Nat.add_right_comm] at hnext
      exact hnext
    | item a =>
      have hnext := ih (before + (p.raw a).length)
      rw [Nat.add_right_comm] at hnext
      simp [placesFrom, hnext]

/-- A text is gone through as scanning does it: an item at once where one begins, and one character
where none does. -/
theorem scan_induction {motive : Text → Prop} (nil : motive [])
    (item : ∀ a rest, p.first? (p.raw a ++ rest) = some a → motive rest → motive (p.raw a ++ rest))
    (gap : ∀ c cs, p.first? (c :: cs) = none → motive cs → motive (c :: cs)) (s : Text) :
    motive s := by
  generalize hn : s.length = n
  induction n using Nat.strongRecOn generalizing s with
  | ind n ih =>
    cases s with
    | nil => exact nil
    | cons c cs =>
      cases h : p.first? (c :: cs) with
      | none => exact gap c cs h (ih cs.length (by simp at hn; omega) cs rfl)
      | some a =>
        obtain ⟨rest, hs, -⟩ := p.pieces_of_first? h
        have hlength := congrArg List.length hs
        have hpos := List.length_pos_iff.2 (p.raw_of_first? h).1
        rw [List.length_append, hn] at hlength
        rw [hs] at h ⊢
        exact item a rest h (ih rest.length (by omega) rest rfl)

section Steps

variable {p}

theorem places_item {a : α} {rest : Text} (h : p.first? (p.raw a ++ rest) = some a) :
    p.places (p.raw a ++ rest) =
      (0, a) :: (p.places rest).map (Prod.map (· + (p.raw a).length) id) := by
  obtain ⟨tail, htail, hpieces⟩ := p.pieces_of_first? h
  obtain rfl : rest = tail := List.append_cancel_left htail
  rw [places, hpieces, placesFrom, placesFrom_add, places]

theorem places_gap {c : Char} {cs : Text} (h : p.first? (c :: cs) = none) :
    p.places (c :: cs) = (p.places cs).map (Prod.map (· + 1) id) := by
  rw [places, p.pieces_cons_of_first?_eq_none h, placesFrom, placesFrom_add, places]

theorem mem_places_item {a b : α} {rest : Text} {i : ℕ}
    (h : p.first? (p.raw a ++ rest) = some a) :
    (i, b) ∈ p.places (p.raw a ++ rest) ↔
      i = 0 ∧ b = a ∨ ∃ j, (j, b) ∈ p.places rest ∧ i = j + (p.raw a).length := by
  rw [places_item h]
  simp [eq_comm]

theorem mem_places_gap {c : Char} {cs : Text} {b : α} {i : ℕ} (h : p.first? (c :: cs) = none) :
    (i, b) ∈ p.places (c :: cs) ↔ ∃ j, (j, b) ∈ p.places cs ∧ i = j + 1 := by
  rw [places_gap h]
  simp [eq_comm]

end Steps

theorem first?_nil : p.first? [] = none := by
  cases h : p.first? [] with
  | none => rfl
  | some a =>
    obtain ⟨hne, hprefix⟩ := p.raw_of_first? h
    exact absurd (List.prefix_nil.1 hprefix) hne

theorem first?_drop_of_mem_places {s : Text} {i : ℕ} {a : α} (h : (i, a) ∈ p.places s) :
    p.first? (s.drop i) = some a := by
  induction s using p.scan_induction generalizing i with
  | nil => simp [places, placesFrom] at h
  | item b rest hb ih =>
    rcases (mem_places_item hb).1 h with ⟨rfl, rfl⟩ | ⟨j, hj, rfl⟩
    · exact hb
    · rw [Nat.add_comm, ← List.drop_drop, List.drop_left]
      exact ih hj
  | gap c cs hc ih =>
    obtain ⟨j, hj, rfl⟩ := (mem_places_gap hc).1 h
    exact ih hj

theorem pairwise_places (s : Text) :
    (p.places s).Pairwise fun x y => x.1 + (p.raw x.2).length ≤ y.1 := by
  induction s using p.scan_induction with
  | nil => simp [places, placesFrom]
  | item b rest hb ih =>
    rw [places_item hb, List.pairwise_cons, List.pairwise_map]
    refine ⟨fun y hy => ?_, ih.imp fun h => ?_⟩
    · obtain ⟨x, -, rfl⟩ := List.mem_map.1 hy
      simp
    · dsimp
      omega
  | gap c cs hc ih =>
    rw [places_gap hc, List.pairwise_map]
    refine ih.imp fun h => ?_
    dsimp
    omega

theorem mem_places_or_covered {s : Text} {i : ℕ} {a : α} (h : p.first? (s.drop i) = some a) :
    (i, a) ∈ p.places s ∨
      ∃ j b, (j, b) ∈ p.places s ∧ j < i ∧ i < j + (p.raw b).length := by
  induction s using p.scan_induction generalizing i with
  | nil => simp [first?_nil] at h
  | item b rest hb ih =>
    rcases Nat.lt_or_ge i (p.raw b).length with hi | hi
    · rcases Nat.eq_zero_or_pos i with rfl | hpos
      · rw [List.drop_zero, hb] at h
        cases h
        exact .inl ((mem_places_item hb).2 (.inl ⟨rfl, rfl⟩))
      · exact .inr ⟨0, b, (mem_places_item hb).2 (.inl ⟨rfl, rfl⟩), hpos, by omega⟩
    · obtain ⟨k, rfl⟩ := Nat.exists_eq_add_of_le hi
      rw [← List.drop_drop, List.drop_left] at h
      rcases ih h with hk | ⟨j, d, hj, hlt, hcover⟩
      · exact .inl ((mem_places_item hb).2 (.inr ⟨k, hk, Nat.add_comm _ _⟩))
      · exact .inr ⟨j + (p.raw b).length, d, (mem_places_item hb).2 (.inr ⟨j, hj, rfl⟩),
          by omega, by omega⟩
  | gap c cs hc ih =>
    cases i with
    | zero => simp [hc] at h
    | succ k =>
      rcases ih h with hk | ⟨j, d, hj, hlt, hcover⟩
      · exact .inl ((mem_places_gap hc).2 ⟨k, hk, rfl⟩)
      · exact .inr ⟨j + 1, d, (mem_places_gap hc).2 ⟨j, hj, rfl⟩, by omega, by omega⟩

end ContentWeave.Text.Pattern
