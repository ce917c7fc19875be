import ContentWeave.Text.Basic
import Mathlib.Data.List.TakeWhile
import Mathlib.Tactic.Common

/-!
# The longest run of characters of one kind

Most readers take the longest run of characters of one kind and go on with what follows it. The
text says where it ends: at the first character of another kind, or where the text does.
-/

namespace ContentWeave.Text

variable {p : Char → Bool} {run rest : Text}

/-- A run of characters of one kind, and what follows the last of them. -/
structure Leads (p : Char → Bool) (run rest : Text) : Prop where
  all : ∀ c ∈ run, p c = true
  ends : ∀ c ∈ rest.head?, p c = false

theorem leads_cut (p : Char → Bool) (s : Text) : Leads p (s.takeWhile p) (s.dropWhile p) where
  all _ hc := List.mem_takeWhile_imp hc
  ends c hc := by
    have hnot := List.head?_dropWhile_not p s
    rw [hc] at hnot
    simpa using hnot

theorem Leads.cons {c : Char} (hall : ∀ d ∈ run, p d = true) (hc : p c = false) :
    Leads p run (c :: rest) where
  all := hall
  ends := by simpa using hc

theorem leads_of_notMem {c : Char} (h : c ∉ run) (hrest : ∀ d ∈ rest.head?, d = c) :
    Leads (· != c) run rest where
  all d hd := by simpa using ne_of_mem_of_not_mem hd h
  ends d hd := by simpa using hrest d hd

theorem Leads.takeWhile_append (h : Leads p run rest) : (run ++ rest).takeWhile p = run := by
  rw [List.takeWhile_append_of_pos h.all]
  cases rest with
  | nil => simp
  | cons c rest => simp [h.ends c rfl]

theorem Leads.dropWhile_append (h : Leads p run rest) : (run ++ rest).dropWhile p = rest := by
  rw [List.dropWhile_append_of_pos h.all]
  cases rest with
  | nil => rfl
  | cons c rest => simp [h.ends c rfl]

theorem Leads.unique {run' rest' : Text} (h : Leads p run rest) (h' : Leads p run' rest')
    (heq : run ++ rest = run' ++ rest') : run = run' ∧ rest = rest' := by
  constructor
  · rw [← h.takeWhile_append, heq, h'.takeWhile_append]
  · rw [← h.dropWhile_append, heq, h'.dropWhile_append]

end ContentWeave.Text
