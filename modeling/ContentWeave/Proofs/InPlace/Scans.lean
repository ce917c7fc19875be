import ContentWeave.Proofs.Text.Places
import ContentWeave.Proofs.Text.Slices

/-!
# Scans that stand at places

A scan in place makes one move after the other. If every move from a place where a rest of the text
begins leads to a further such place, and finds what is first in the rest, then the scan comes to an
end, after no more moves than the text has bytes, and has found everything.
-/

namespace ContentWeave.Text

theorem ok_bind {α β : Type} (a : α) (f : α → Except Misplaced β) : (.ok a >>= f) = f a := rfl

section Scan

variable {α : Type} {step : ℕ → Except Misplaced (Option (Move α))} {items : Text → List α}
  {s : Text}

/-- The moves of a scan from a place on, up to the one where it stops. -/
inductive Runs (step : ℕ → Except Misplaced (Option (Move α))) : ℕ → List (Move α) → Prop
  | stop {place : ℕ} (h : step place = .ok none) : Runs step place []
  | move {place : ℕ} {m : Move α} {moves : List (Move α)} (h : step place = .ok (some m))
      (rest : Runs step m.next moves) : Runs step place (m :: moves)

theorem Runs.unique {place : ℕ} {moves others : List (Move α)} (h : Runs step place moves)
    (hother : Runs step place others) : moves = others := by
  induction h generalizing others with
  | stop h =>
    cases hother with
    | stop _ => rfl
    | move h' _ => cases h.symm.trans h'
  | move h _ ih =>
    cases hother with
    | stop h' => cases h.symm.trans h'
    | move h' rest =>
      cases h.symm.trans h'
      rw [ih rest]

/-- A scan of a text runs from its start to an end and finds these items. Every move, whether it finds
something or not, leads further on, to a place of the text where it can be cut. -/
structure Completes (step : ℕ → Except Misplaced (Option (Move α))) (s : Text) (found : List α)
    (moves : List (Move α)) : Prop where
  runs : Runs step 0 moves
  found_eq : moves.filterMap Move.found = found
  increasing : (0 :: moves.map Move.next).Pairwise (· < ·)
  inside : ∀ m ∈ moves, m.next ≤ byteLength s ∧ isBoundary s m.next = true
  steps : moves.length ≤ byteLength s

/-- From a place where a rest of a text begins, a scan stops if the rest has no items; otherwise it
moves on to where a shorter rest begins, and what it finds is the first item unless that one is in the
shorter rest. -/
inductive Advances (items : Text → List α) (s : Text) (place : ℕ) (rest : Text) :
    Option (Move α) → Prop
  | stop (h : items rest = []) : Advances items s place rest none
  | move {m : Move α} {behind : Text} (further : place < m.next) (at_next : At s m.next behind)
      (h : items rest = m.found.toList ++ items behind) : Advances items s place rest (some m)

def Scans (step : ℕ → Except Misplaced (Option (Move α))) (items : Text → List α) (s : Text) : Prop :=
  ∀ place rest, At s place rest → ∃ r, step place = .ok r ∧ Advances items s place rest r

theorem Scans.exists_runs (h : Scans step items s) {place : ℕ} {rest : Text}
    (hrest : At s place rest) :
    ∃ moves, Runs step place moves ∧ moves.filterMap Move.found = items rest ∧
      (place :: moves.map Move.next).Pairwise (· < ·) ∧
      (∀ m ∈ moves, m.next ≤ byteLength s ∧ isBoundary s m.next = true) ∧
      moves.length ≤ byteLength rest := by
  generalize hn : byteLength rest = n
  induction n using Nat.strongRecOn generalizing place rest with
  | ind n ih =>
    obtain ⟨r, hstep, hr⟩ := h place rest hrest
    cases hr with
    | stop hitems => exact ⟨[], .stop hstep, by simp [hitems], by simp, by simp, Nat.zero_le _⟩
    | @move m behind further at_next hitems =>
      -- a place further on leaves fewer bytes behind it
      have hplace := hrest.add_byteLength
      have hnext := at_next.add_byteLength
      obtain ⟨moves, hruns, hfound, hincreasing, hinside, hlength⟩ :=
        ih (byteLength behind) (by omega) at_next rfl
      refine ⟨m :: moves, .move hstep hruns, ?_, ?_, ?_, ?_⟩
      · rw [hitems, ← hfound]
        cases hm : m.found <;> simp [hm]
      · rw [List.map_cons, List.pairwise_cons]
        refine ⟨List.forall_mem_cons.2 ⟨further, fun next hmem => ?_⟩, hincreasing⟩
        exact further.trans (List.rel_of_pairwise_cons hincreasing hmem)
      · exact List.forall_mem_cons.2 ⟨⟨at_next.le_byteLength, at_next.isBoundary⟩, hinside⟩
      · rw [List.length_cons]
        omega

theorem Scans.completes (h : Scans step items s) : ∃! moves, Completes step s (items s) moves := by
  obtain ⟨moves, hruns, hfound, hincreasing, hinside, hlength⟩ := h.exists_runs (At.zero s)
  exact ⟨moves, ⟨hruns, hfound, hincreasing, hinside, hlength⟩, fun _ hother =>
    hother.runs.unique hruns⟩

end Scan

namespace Pattern

variable {α : Type} {p : Pattern α}

theorem items_of_first? {s : Text} {a : α} (h : p.first? s = some a) :
    ∃ rest, s = p.raw a ++ rest ∧ p.items s = a :: p.items rest := by
  obtain ⟨rest, hs, hpieces⟩ := p.pieces_of_first? h
  exact ⟨rest, hs, by rw [items, hpieces]; rfl⟩

theorem items_cons_of_first?_eq_none {c : Char} {cs : Text} (h : p.first? (c :: cs) = none) :
    p.items (c :: cs) = p.items cs := by
  rw [items, p.pieces_cons_of_first?_eq_none h]
  rfl

theorem items_findWord? {word : Text} (hword : ∀ s a, p.first? s = some a → word <+: s) (s : Text) :
    (∃ offset rest, findWord? word s = some offset ∧ At s offset (word ++ rest) ∧
        p.items s = p.items (word ++ rest)) ∨
      (findWord? word s = none ∧ p.items s = []) := by
  induction s with
  | nil =>
    by_cases hempty : word = []
    · subst hempty
      exact .inl ⟨0, [], rfl, .zero [], rfl⟩
    · exact .inr ⟨by simp [findWord?, hempty], by simp [items]⟩
  | cons c s ih =>
    by_cases hstart : startsWith word (c :: s) = true
    · obtain ⟨rest, hrest⟩ := Option.isSome_iff_exists.1 hstart
      rw [stripStart_eq_some_iff] at hrest
      exact .inl ⟨0, rest, by rw [findWord?, if_pos hstart], hrest ▸ .zero (c :: s), by rw [hrest]⟩
    · have hnone : p.first? (c :: s) = none := by
        refine Option.eq_none_iff_forall_ne_some.2 fun a ha => hstart ?_
        obtain ⟨rest, hrest⟩ := hword _ a ha
        exact Option.isSome_iff_exists.2 ⟨rest, stripStart_eq_some_iff.2 hrest.symm⟩
      rw [findWord?, if_neg hstart, items_cons_of_first?_eq_none hnone]
      rcases ih with ⟨offset, rest, hfound, hrest, hitems⟩ | ⟨hfound, hitems⟩
      · have hhere : At (c :: s) c.utf8Size s := by simpa using (At.zero (c :: s)).tail
        exact .inl ⟨c.utf8Size + offset, rest, by simp [hfound], hhere.trans hrest, hitems⟩
      · exact .inr ⟨by simp [hfound], hitems⟩

variable {s rest here : Text} {place start : ℕ}

theorem advances_item {a : α} (hstart : place ≤ start) (h : At s start here)
    (hitems : p.items rest = p.items here) (ha : p.first? here = some a) :
    Advances p.items s place rest (some ⟨some a, start + byteLength (p.raw a)⟩) := by
  obtain ⟨behind, rfl, hfirst⟩ := items_of_first? ha
  have hpos := byteLength_pos (p.raw_of_first? ha).1
  exact .move (Nat.lt_of_le_of_lt hstart (Nat.lt_add_of_pos_right hpos)) h.skip (hitems.trans hfirst)

theorem advances_gap {c : Char} {cs : Text} (hstart : place ≤ start) (h : At s start (c :: cs))
    (hitems : p.items rest = p.items (c :: cs)) (hnone : p.first? (c :: cs) = none) :
    Advances p.items s place rest (some ⟨none, start + c.utf8Size⟩) := by
  have hpos := Char.utf8Size_pos c
  exact .move (Nat.lt_of_le_of_lt hstart (Nat.lt_add_of_pos_right hpos)) h.tail
    (hitems.trans (items_cons_of_first?_eq_none hnone))

end Pattern

end ContentWeave.Text
