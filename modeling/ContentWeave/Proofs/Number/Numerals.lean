import ContentWeave.Number.Numeral
import Mathlib.Data.List.Infix
import Mathlib.Tactic.Common

/-!
# The longest numeral at the start of a text

One more character behind a text either completes a numeral that is all of it, or it changes nothing
and is left over. So scanning finds the longest prefix that is a numeral as a whole.
-/

namespace ContentWeave.Number

section Scanners

variable (s : Text) (a : Char)

theorem digits_concat :
    (s ++ [a]).dropWhile isDigit = [] ∨
      ((s ++ [a]).takeWhile isDigit = s.takeWhile isDigit ∧
        (s ++ [a]).dropWhile isDigit = s.dropWhile isDigit ++ [a]) := by
  induction s with
  | nil => by_cases ha : isDigit a = true <;> simp [ha]
  | cons c s ih =>
    by_cases hc : isDigit c = true
    · rw [List.cons_append, List.takeWhile_cons_of_pos hc, List.takeWhile_cons_of_pos hc,
        List.dropWhile_cons_of_pos hc, List.dropWhile_cons_of_pos hc]
      exact ih.imp_right fun ⟨htake, hdrop⟩ => ⟨by rw [htake], hdrop⟩
    · right
      simp [hc]

theorem takeWhile_digits_concat_eq_nil (h : (s ++ [a]).takeWhile isDigit = []) :
    s.takeWhile isDigit = [] := by
  cases s with
  | nil => rfl
  | cons c s => by_cases hc : isDigit c = true <;> simp [hc] at h ⊢

theorem scanSign_concat :
    (s = [] ∧ (scanSign [a]).2 = []) ∨
      scanSign (s ++ [a]) = ((scanSign s).1, (scanSign s).2 ++ [a]) := by
  cases s with
  | nil =>
    rw [List.nil_append]
    unfold scanSign
    split <;> simp_all
  | cons c s =>
    right
    rw [List.cons_append]
    unfold scanSign
    split <;> simp_all

theorem scanFraction_concat :
    ((scanFraction (s ++ [a])).2 = [] ∧
        ((scanFraction (s ++ [a])).1 = [] → (scanFraction s).1 = [])) ∨
      scanFraction (s ++ [a]) = ((scanFraction s).1, (scanFraction s).2 ++ [a]) := by
  cases s with
  | nil => by_cases ha : a = '.' <;> simp [scanFraction, ha]
  | cons c s =>
    by_cases hc : c = '.'
    · subst hc
      rcases digits_concat s a with h | ⟨htake, hdrop⟩
      · exact .inl ⟨h, takeWhile_digits_concat_eq_nil s a⟩
      · exact .inr (Prod.ext htake hdrop)
    · right
      simp [scanFraction, hc]

theorem scanExponent_cons {c : Char} (hc : c = 'e' ∨ c = 'E') :
    scanExponent (c :: s) =
      if (scanSign s).2.takeWhile isDigit = [] then (0, c :: s)
      else
        let n : Int := Text.foldDigits 0 ((scanSign s).2.takeWhile isDigit)
        (if (scanSign s).1 then -n else n, (scanSign s).2.dropWhile isDigit) := by
  simp [scanExponent, hc]

theorem scanExponent_concat :
    (scanExponent (s ++ [a])).2 = [] ∨
      scanExponent (s ++ [a]) = ((scanExponent s).1, (scanExponent s).2 ++ [a]) := by
  cases s with
  | nil =>
    right
    by_cases ha : a = 'e' ∨ a = 'E' <;> simp [scanExponent, scanSign, ha]
  | cons c s =>
    by_cases hc : c = 'e' ∨ c = 'E'
    · rw [List.cons_append, scanExponent_cons _ hc, scanExponent_cons _ hc]
      rcases scanSign_concat s a with ⟨rfl, hsign⟩ | hsign
      · right
        have hempty : scanSign [] = (false, []) := rfl
        simp [hsign, hempty]
      · rw [hsign]
        rcases digits_concat (scanSign s).2 a with hdrop | ⟨htake, hdrop⟩
        · left
          have hall := List.takeWhile_append_dropWhile (p := isDigit) (l := (scanSign s).2 ++ [a])
          rw [hdrop, List.append_nil] at hall
          rw [if_neg (by simp [hall])]
          exact hdrop
        · right
          rw [htake, hdrop]
          split_ifs <;> rfl
    · right
      simp [scanExponent, hc]

end Scanners

namespace Numeral

def exactly? (s : Text) : Option Numeral :=
  match scan s with
  | some (n, []) => some n
  | _ => none

def longest? (s : Text) : Option Numeral := (s.inits.filterMap exactly?).getLast?

theorem scan_eq (s : Text) :
    scan s =
      if (scanSign s).2.takeWhile isDigit = [] ∧
          (scanFraction ((scanSign s).2.dropWhile isDigit)).1 = [] then none
      else
        let fraction := scanFraction ((scanSign s).2.dropWhile isDigit)
        let exponent := scanExponent fraction.2
        some (⟨(scanSign s).1, (scanSign s).2.takeWhile isDigit, fraction.1, exponent.1⟩,
          exponent.2) := by
  simp [scan]

theorem scan_concat (s : Text) (a : Char) :
    (∃ n, scan (s ++ [a]) = some (n, [])) ∨
      scan (s ++ [a]) = (scan s).map fun (n, rest) => (n, rest ++ [a]) := by
  rw [scan_eq, scan_eq]
  rcases scanSign_concat s a with ⟨rfl, hsign⟩ | hsign
  · right
    have hempty : scanSign [] = (false, []) := rfl
    simp [hsign, hempty, scanFraction]
  rw [hsign]
  generalize (scanSign s).2 = t
  rcases digits_concat t a with hdrop | ⟨htake, hdrop⟩
  · -- the whole text is digits
    left
    have hall := List.takeWhile_append_dropWhile (p := isDigit) (l := t ++ [a])
    rw [hdrop, List.append_nil] at hall
    simp [hall, hdrop, scanFraction, scanExponent]
  rw [htake, hdrop]
  rcases scanFraction_concat (t.dropWhile isDigit) a with ⟨hend, hnone⟩ | hfraction
  · by_cases hdigits : t.takeWhile isDigit = [] ∧
        (scanFraction (t.dropWhile isDigit ++ [a])).1 = []
    · right
      rw [if_pos hdigits, if_pos ⟨hdigits.1, hnone hdigits.2⟩]
      rfl
    · left
      rw [if_neg hdigits]
      simp [hend, scanExponent]
  rw [hfraction]
  by_cases hdigits : t.takeWhile isDigit = [] ∧ (scanFraction (t.dropWhile isDigit)).1 = []
  · right
    rw [if_pos hdigits, if_pos hdigits]
    rfl
  · rw [if_neg hdigits, if_neg hdigits]
    rcases scanExponent_concat (scanFraction (t.dropWhile isDigit)).2 a with hend | hexponent
    · left
      simp [hend]
    · right
      simp [hexponent]

theorem longest?_concat (s : Text) (a : Char) :
    longest? (s ++ [a]) = (exactly? (s ++ [a])).or (longest? s) := by
  have hinits : (s ++ [a]).inits = s.inits ++ [s ++ [a]] := by simp [List.inits_append]
  rw [longest?, hinits, List.filterMap_append, List.getLast?_append]
  cases h : exactly? (s ++ [a]) <;> simp [h, longest?]

theorem longest?_eq_scan (s : Text) : longest? s = (scan s).map Prod.fst := by
  induction s using List.reverseRecOn with
  | nil => rfl
  | append_singleton s a ih =>
    rw [longest?_concat, ih]
    rcases scan_concat s a with ⟨n, hn⟩ | h
    · simp [exactly?, hn]
    · cases hs : scan s with
      | none => simp [exactly?, h, hs]
      | some r =>
        simp [exactly?, h, hs]

end Numeral
end ContentWeave.Number
