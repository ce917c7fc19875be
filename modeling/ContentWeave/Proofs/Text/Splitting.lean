import ContentWeave.Text.Basic
import Mathlib.Tactic.Common

/-!
# Splitting and joining

A text is split at every separator in it, so pieces without separators that have been joined are the
pieces again.
-/

namespace ContentWeave.Text

theorem splitOn_append (sep : Char) (s t : Text) :
    splitOn sep (s ++ sep :: t) = splitOn sep s ++ splitOn sep t := by
  induction s with
  | nil => simp [splitOn]
  | cons c s ih =>
    by_cases h : c = sep
    · simp [splitOn, h, ih]
    · obtain ⟨piece, pieces, hs⟩ := List.exists_cons_of_ne_nil (splitOn_ne_nil sep s)
      simp [splitOn, h, ih, hs]

theorem splitOn_of_notMem {sep : Char} {s : Text} (h : sep ∉ s) : splitOn sep s = [s] := by
  induction s with
  | nil => rfl
  | cons c s ih =>
    rw [List.mem_cons, not_or] at h
    simp [splitOn, Ne.symm h.1, ih h.2]

theorem joinWith_cons (sep : Char) (piece : Text) (pieces : List Text) :
    joinWith [sep] (piece :: pieces) = piece ++ pieces.flatMap (sep :: ·) := by
  induction pieces generalizing piece with
  | nil => simp [joinWith]
  | cons next pieces ih =>
    rw [joinWith, ih next, List.flatMap_cons]
    simp

theorem splitOn_joinWith {sep : Char} {pieces : List Text} (hne : pieces ≠ [])
    (h : ∀ piece ∈ pieces, sep ∉ piece) : splitOn sep (joinWith [sep] pieces) = pieces := by
  induction pieces with
  | nil => exact absurd rfl hne
  | cons piece pieces ih =>
    have hpiece := splitOn_of_notMem (h piece List.mem_cons_self)
    cases pieces with
    | nil => exact hpiece
    | cons next pieces =>
      have hrest := ih (List.cons_ne_nil next pieces) fun p hp => h p (List.mem_cons_of_mem piece hp)
      rw [joinWith, List.append_assoc, List.singleton_append, splitOn_append, hpiece, hrest,
        List.singleton_append]

end ContentWeave.Text
