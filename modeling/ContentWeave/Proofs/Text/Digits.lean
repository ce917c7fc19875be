import ContentWeave.Number.Numeral
import Mathlib.Data.List.Induction
import Mathlib.Tactic.Common
import Mathlib.Tactic.Ring

/-!
# Natural numbers in digits

A natural number is written in decimal digits that stand for it, with no zero in front, and nothing
else is written so: digits are told by their count and the number that they stand for.
-/

namespace ContentWeave.Text

theorem isDigit_of_mem_ofNat {n : ℕ} {c : Char} (h : c ∈ ofNat n) : Number.isDigit c = true := by
  have hdigit : c.isDigit = true := Nat.isDigit_of_mem_toDigits (by decide) (by decide) h
  simp only [Char.isDigit, Bool.and_eq_true, decide_eq_true_eq, ge_iff_le] at hdigit
  simp only [Number.isDigit, Bool.and_eq_true, decide_eq_true_eq]
  exact hdigit

theorem ofNat_ne_nil (n : ℕ) : ofNat n ≠ [] := Nat.toDigits_ne_nil

theorem ofNat_ne_zero_cons {n : ℕ} (h : n ≠ 0) (s : Text) : ofNat n ≠ '0' :: s := by
  induction n using Nat.strongRecOn generalizing s with
  | ind n ih =>
    rw [ofNat, Nat.toDigits_eq_if (by decide)]
    split_ifs with hsmall
    · have hdigit : ∀ m < 10, m ≠ 0 → m.digitChar ≠ '0' := by decide
      intro heq
      exact hdigit n hsmall h (List.cons.inj heq).1
    · obtain ⟨c, cs, hcs⟩ := List.exists_cons_of_ne_nil (ofNat_ne_nil (n / 10))
      have hfront := ih (n / 10) (by omega) (by omega) cs
      rw [hcs] at hfront
      rw [← ofNat, hcs]
      rintro heq
      exact hfront (by rw [(List.cons.inj heq).1])

theorem foldDigits_eq_ofDigitChars {s : Text} (h : ∀ c ∈ s, Number.isDigit c = true) (acc : ℕ) :
    foldDigits acc s = Nat.ofDigitChars 10 s acc := by
  induction s generalizing acc with
  | nil => rfl
  | cons c s ih =>
    have hc : '0' ≤ c ∧ c ≤ '9' := by
      have hdigit := h c (by simp)
      simpa [Number.isDigit] using hdigit
    have hstep : foldDigits acc (c :: s) = foldDigits (10 * acc + (c.toNat - '0'.toNat)) s := by
      simp [foldDigits, digit?, hc]
    rw [hstep, ih fun d hd => h d (by simp [hd])]
    rfl

theorem foldDigits_ofNat (n : ℕ) : foldDigits 0 (ofNat n) = n := by
  rw [foldDigits_eq_ofDigitChars fun c hc => isDigit_of_mem_ofNat hc]
  exact Nat.ofDigitChars_toDigits (by decide) (by decide)

theorem ofNat_eq_cons (n : ℕ) : ∃ c s, ofNat n = c :: s ∧ Number.isDigit c = true := by
  obtain ⟨c, s, h⟩ := List.exists_cons_of_ne_nil (ofNat_ne_nil n)
  exact ⟨c, s, h, isDigit_of_mem_ofNat (n := n) (by simp [h])⟩

theorem digitChar_of_isDigit {c : Char} (h : Number.isDigit c = true) :
    ∃ d < 10, digit? c = some d ∧ c = d.digitChar := by
  simp only [Number.isDigit, Bool.and_eq_true, decide_eq_true_eq] at h
  obtain ⟨hlow, hhigh⟩ := h
  have hcode : 48 ≤ c.toNat ∧ c.toNat ≤ 57 := ⟨hlow, hhigh⟩
  refine ⟨c.toNat - 48, by omega, ?_, ?_⟩
  · rw [digit?, if_pos ⟨hlow, hhigh⟩]
    rfl
  · have hall : ∀ n < 10, (n.digitChar).toNat = n + 48 := by decide
    apply Char.toNat_inj.1
    rw [hall _ (by omega)]
    omega

theorem foldDigits_concat (s : Text) {c : Char} {d : ℕ} (h : digit? c = some d) :
    foldDigits 0 (s ++ [c]) = 10 * foldDigits 0 s + d := by
  simp [foldDigits, h]

theorem foldDigits_zeros (n : ℕ) : foldDigits 0 (List.replicate n '0') = 0 := by
  induction n with
  | zero => rfl
  | succ n ih => rw [List.replicate_succ', foldDigits_concat _ (d := 0) rfl, ih]

theorem eq_of_foldDigits_eq {s t : Text} (hs : ∀ c ∈ s, Number.isDigit c = true)
    (ht : ∀ c ∈ t, Number.isDigit c = true) (hlength : s.length = t.length)
    (h : foldDigits 0 s = foldDigits 0 t) : s = t := by
  induction s using List.reverseRecOn generalizing t with
  | nil => exact (List.eq_nil_of_length_eq_zero hlength.symm).symm
  | append_singleton s c ih =>
    cases t using List.reverseRecOn with
    | nil => simp at hlength
    | append_singleton t a =>
      obtain ⟨d, hd, hdigit, rfl⟩ := digitChar_of_isDigit (hs c (by simp))
      obtain ⟨k, hk, hdigit', rfl⟩ := digitChar_of_isDigit (ht a (by simp))
      rw [foldDigits_concat s hdigit, foldDigits_concat t hdigit'] at h
      have hlast : d = k := by omega
      have hfront : s = t := by
        apply ih (fun c hc => hs c (by simp [hc])) (fun c hc => ht c (by simp [hc]))
        · simpa using hlength
        · omega
      rw [hlast, hfront]

theorem eq_zero_of_foldDigits_eq_zero {s : Text} (hs : ∀ c ∈ s, Number.isDigit c = true)
    (h : foldDigits 0 s = 0) {c : Char} (hc : c ∈ s) : c = '0' := by
  have hzeros : s = List.replicate s.length '0' := by
    apply eq_of_foldDigits_eq hs
    · intro a ha
      rw [(List.mem_replicate.1 ha).2]
      decide
    · rw [List.length_replicate]
    · rw [h, foldDigits_zeros]
  rw [hzeros] at hc
  exact (List.mem_replicate.1 hc).2

theorem foldDigits_append (s : Text) {t : Text} (ht : ∀ c ∈ t, Number.isDigit c = true) :
    foldDigits 0 (s ++ t) = 10 ^ t.length * foldDigits 0 s + foldDigits 0 t := by
  induction t using List.reverseRecOn with
  | nil => simp [foldDigits]
  | append_singleton t c ih =>
    obtain ⟨d, -, hdigit, -⟩ := digitChar_of_isDigit (ht c (by simp))
    rw [← List.append_assoc, foldDigits_concat _ hdigit, foldDigits_concat _ hdigit,
      ih fun c hc => ht c (by simp [hc]), List.length_append, List.length_singleton, pow_succ]
    ring

theorem foldDigits_lt {s : Text} (hs : ∀ c ∈ s, Number.isDigit c = true) :
    foldDigits 0 s < 10 ^ s.length := by
  induction s using List.reverseRecOn with
  | nil => simp [foldDigits]
  | append_singleton s c ih =>
    obtain ⟨d, hd, hdigit, -⟩ := digitChar_of_isDigit (hs c (by simp))
    have hfront := ih fun c hc => hs c (by simp [hc])
    rw [foldDigits_concat s hdigit, List.length_append, List.length_singleton, pow_succ]
    omega

theorem ofNat_concat {n d : ℕ} (hn : n ≠ 0) (hd : d < 10) :
    ofNat (10 * n + d) = ofNat n ++ [d.digitChar] := by
  rw [ofNat, Nat.toDigits_eq_if (by decide), if_neg (by omega)]
  have hfront : (10 * n + d) / 10 = n := by omega
  have hlast : (10 * n + d) % 10 = d := by omega
  rw [hfront, hlast, ofNat]

theorem ofNat_foldDigits {s : Text} (hs : ∀ c ∈ s, Number.isDigit c = true) (hne : s ≠ [])
    (hzero : ∀ t, s = '0' :: t → t = []) : ofNat (foldDigits 0 s) = s := by
  induction s using List.reverseRecOn with
  | nil => exact absurd rfl hne
  | append_singleton s c ih =>
    obtain ⟨d, hd, hdigit, rfl⟩ := digitChar_of_isDigit (hs c (by simp))
    rw [foldDigits_concat s hdigit]
    by_cases hs' : s = []
    · rw [hs', foldDigits, List.foldl_nil, Nat.mul_zero, Nat.zero_add, ofNat,
        Nat.toDigits_of_lt_base hd]
      rfl
    · have hfront : ofNat (foldDigits 0 s) = s := by
        apply ih (fun c hc => hs c (by simp [hc])) hs'
        intro t ht
        have hmore := hzero (t ++ [d.digitChar]) (by rw [ht, List.cons_append])
        simp at hmore
      have hn : foldDigits 0 s ≠ 0 := by
        intro hn
        rw [hn] at hfront
        have hmore := hzero [d.digitChar] (by rw [← hfront]; rfl)
        simp at hmore
      rw [ofNat_concat hn hd, hfront]

end ContentWeave.Text
