import ContentWeave.Number.Numeral
import ContentWeave.Text.Blank
import Mathlib.Tactic.Common

/-!
# Blank characters one by one

There are few blank characters, so what is to be shown of all of them is checked on a list.
-/

namespace ContentWeave.Text

def blanks : Text :=
  [' ', '\t', '\n', '\u000b', '\u000c', '\r', '\u0085', '\u00a0', '\u1680', '\u2000', '\u2001',
    '\u2002', '\u2003', '\u2004', '\u2005', '\u2006', '\u2007', '\u2008', '\u2009', '\u200a',
    '\u2028', '\u2029', '\u202f', '\u205f', '\u3000']

theorem exists_offset {first last c : Char} (hfirst : first ≤ c) (hlast : c ≤ last) :
    ∃ k < last.toNat + 1 - first.toNat, c = Char.ofNat (first.toNat + k) := by
  rw [Char.le_def, UInt32.le_iff_toNat_le] at hfirst hlast
  change first.toNat ≤ c.toNat at hfirst
  change c.toNat ≤ last.toNat at hlast
  refine ⟨c.toNat - first.toNat, by omega, ?_⟩
  rw [Nat.add_sub_cancel' hfirst, Char.ofNat_toNat]

theorem mem_blanks_of_isBlank {c : Char} (h : isBlank c = true) : c ∈ blanks := by
  simp only [isBlank, Bool.or_eq_true, Bool.and_eq_true, beq_iff_eq, decide_eq_true_eq] at h
  have hcontrols : ∀ k < 5, Char.ofNat ('\t'.toNat + k) ∈ blanks := by decide
  have hspaces : ∀ k < 11, Char.ofNat ('\u2000'.toNat + k) ∈ blanks := by decide
  rcases h with (((((((((rfl | h) | rfl) | rfl) | rfl) | h) | rfl) | rfl) | rfl) | rfl) | rfl
  case inl.inl.inl.inl.inl.inl.inl.inl.inl.inr =>
    obtain ⟨k, hk, rfl⟩ := exists_offset h.1 h.2
    exact hcontrols k hk
  case inl.inl.inl.inl.inl.inr =>
    obtain ⟨k, hk, rfl⟩ := exists_offset h.1 h.2
    exact hspaces k hk
  all_goals decide

theorem eq_false_of_isBlank {p : Char → Bool} (hp : blanks.all (!p ·) = true) {c : Char}
    (h : isBlank c = true) : p c = false := by
  simpa using List.all_eq_true.1 hp c (mem_blanks_of_isBlank h)

theorem isBlank_of_isDigit {c : Char} (h : Number.isDigit c = true) : isBlank c = false := by
  cases hblank : isBlank c with
  | false => rfl
  | true => exact absurd h (by simp [eq_false_of_isBlank (p := Number.isDigit) (by decide) hblank])

theorem trim_eq_self {s : Text} (h : ∀ c ∈ s, isBlank c = false) : trim s = s := by
  have hdrop : ∀ t : Text, (∀ c ∈ t, isBlank c = false) → t.dropWhile isBlank = t := by
    intro t ht
    cases t with
    | nil => rfl
    | cons c t => simp [ht c (by simp)]
  rw [trim, trimBoth, hdrop s h, hdrop s.reverse (by simpa using h), List.reverse_reverse]

end ContentWeave.Text
