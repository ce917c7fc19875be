import ContentWeave.Number.Fixed
import ContentWeave.Proofs.Text.Digits
import Mathlib.Algebra.Order.Floor.Semifield
import Mathlib.Data.Rat.Floor
import Mathlib.Tactic.Linarith
import Mathlib.Tactic.Ring

/-!
# Fixed-point numerals

The fixed-point numeral of a number is determined by its value: the digits stand for the multiple of
the last decimal that is nearest to the number, a half goes to the even one, and there is no more
than one digit before the point if the first of them is a zero.
-/

namespace ContentWeave
namespace Number

open Text (foldDigits ofNat)

/-- A natural number nearest to `r`, and of two equally near ones the even one. -/
structure IsNearest (r : ℚ) (n : ℕ) : Prop where
  near : |r - n| ≤ 1 / 2
  even_of_tie : |r - n| = 1 / 2 → Even n

theorem IsNearest.le {r : ℚ} {m n : ℕ} (hm : IsNearest r m) (hn : IsNearest r n) : m ≤ n := by
  by_contra hlt
  have hmn : (n : ℚ) + 1 ≤ m := by exact_mod_cast not_le.1 hlt
  have hlow := abs_le.1 hm.near
  have hhigh := abs_le.1 hn.near
  -- both are at a distance of one half, so they are neighbours and both even
  have hm' : r - m = -(1 / 2) := by linarith
  have hn' : r - n = 1 / 2 := by linarith
  have heven := hm.even_of_tie (by rw [hm']; norm_num)
  have heven' := hn.even_of_tie (by rw [hn']; norm_num)
  have hnext : m = n + 1 := by
    have hcast : (m : ℚ) = (n + 1 : ℕ) := by push_cast; linarith
    exact_mod_cast hcast
  rw [hnext, Nat.even_add_one] at heven
  exact heven heven'

theorem IsNearest.unique {r : ℚ} {m n : ℕ} (hm : IsNearest r m) (hn : IsNearest r n) : m = n :=
  Nat.le_antisymm (hm.le hn) (hn.le hm)

theorem isNearest_natCast (n : ℕ) : IsNearest n n where
  near := by norm_num
  even_of_tie h := by norm_num at h

section Rounding

variable {n : ℕ} {part : ℚ}

theorem isNearest_below (hlow : 0 ≤ part) (h : part < 1 / 2 ∨ part = 1 / 2 ∧ Even n) :
    IsNearest (n + part) n := by
  have hdistance : |(n : ℚ) + part - n| = part := by
    rw [add_sub_cancel_left, abs_of_nonneg hlow]
  constructor
  · rw [hdistance]
    rcases h with h | h
    · exact h.le
    · exact h.1.le
  · intro htie
    rw [hdistance] at htie
    rcases h with h | h
    · exact absurd htie h.ne
    · exact h.2

theorem isNearest_above (hhigh : part ≤ 1) (h : 1 / 2 < part ∨ part = 1 / 2 ∧ ¬ Even n) :
    IsNearest (n + part) (n + 1 : ℕ) := by
  have hdistance : |(n : ℚ) + part - (n + 1 : ℕ)| = 1 - part := by
    rw [abs_sub_comm, Nat.cast_add, Nat.cast_one, add_sub_add_left_eq_sub, abs_of_nonneg]
    linarith
  constructor
  · rw [hdistance]
    rcases h with h | h
    · linarith
    · rw [h.1]
      norm_num
  · intro htie
    rw [hdistance] at htie
    rcases h with h | h
    · linarith
    · exact Nat.even_add_one.2 h.2

end Rounding

theorem isNearest_roundDiv (num : ℕ) {den : ℕ} (hden : 0 < den) :
    IsNearest (num / den : ℚ) (roundDiv num den) := by
  have hpos : (0 : ℚ) < den := by exact_mod_cast hden
  have hdiv : (num : ℚ) / den = (num / den : ℕ) + (num % den : ℕ) / (den : ℚ) := by
    rw [← mul_left_inj' hpos.ne', add_mul, div_mul_cancel₀ _ hpos.ne', div_mul_cancel₀ _ hpos.ne']
    exact_mod_cast (Nat.div_add_mod' num den).symm
  have hhigh : ((num % den : ℕ) : ℚ) / den ≤ 1 := by
    rw [div_le_one hpos]
    exact_mod_cast (Nat.mod_lt num hden).le
  have habove : den < 2 * (num % den) ↔ 1 / 2 < ((num % den : ℕ) : ℚ) / den := by
    rw [lt_div_iff₀ hpos, ← Nat.cast_lt (α := ℚ)]
    push_cast
    constructor <;> intro h <;> linarith
  have htie : 2 * (num % den) = den ↔ ((num % den : ℕ) : ℚ) / den = 1 / 2 := by
    rw [div_eq_iff hpos.ne', ← Nat.cast_inj (R := ℚ)]
    push_cast
    constructor <;> intro h <;> linarith
  rw [hdiv, roundDiv]
  simp only [habove, htie, ← Nat.not_even_iff]
  split_ifs with hup
  · exact isNearest_above hhigh hup
  · apply isNearest_below (by positivity)
    rw [not_or, not_lt, not_and_not_right] at hup
    rcases hup.1.lt_or_eq with hlt | heq
    · exact .inl hlt
    · exact .inr ⟨heq, hup.2 heq⟩

namespace Exact

variable (x : Exact)

def magnitude : ℚ := x.significand * 2 ^ x.exponent

theorem denominator_pos : 0 < x.denominator := Nat.pow_pos (by decide)

theorem magnitude_eq_div : x.magnitude = x.numerator / x.denominator := by
  have hsplit : x.exponent = (x.exponent.toNat : ℤ) - ((-x.exponent).toNat : ℤ) := by omega
  rw [magnitude, hsplit, zpow_sub₀ (by norm_num), zpow_natCast, zpow_natCast, ← mul_div_assoc,
    numerator, denominator, Nat.pow_eq, Nat.pow_eq]
  push_cast
  rfl

theorem floor_magnitude : ⌊x.magnitude⌋₊ = x.numerator / x.denominator := by
  rw [magnitude_eq_div, Nat.floor_div_eq_div]

/-- `d` is the fixed-point numeral of `x`. -/
structure Fixed (decimals : ℕ) (d : FixedDigits) : Prop where
  isDigit_of_mem : ∀ c ∈ d.digits, isDigit c = true
  whole_ne_nil : d.whole ≠ []
  zero_alone : ∀ s, d.whole = '0' :: s → s = []
  length_fraction : d.fraction.length = decimals
  isNearest : IsNearest (x.magnitude * 10 ^ decimals) (foldDigits 0 d.digits)

end Exact

namespace FixedDigits

variable (n decimals : ℕ)

def padded : Text :=
  List.replicate (decimals + 1 - (ofNat n).length) '0' ++ ofNat n

theorem ofScaled_eq :
    ofScaled n decimals =
      ⟨(padded n decimals).take ((padded n decimals).length - decimals),
        (padded n decimals).drop ((padded n decimals).length - decimals)⟩ := rfl

theorem digits_ofScaled : (ofScaled n decimals).digits = padded n decimals :=
  List.take_append_drop _ _

theorem length_padded : (padded n decimals).length = max (decimals + 1) (ofNat n).length := by
  rw [padded, List.length_append, List.length_replicate]
  omega

theorem isDigit_of_mem_padded {c : Char} (h : c ∈ padded n decimals) : isDigit c = true := by
  rcases List.mem_append.1 h with h | h
  · rw [(List.mem_replicate.1 h).2]
    decide
  · exact Text.isDigit_of_mem_ofNat h

theorem foldDigits_padded : foldDigits 0 (padded n decimals) = n := by
  rw [padded, Text.foldDigits_append _ fun c hc => Text.isDigit_of_mem_ofNat hc,
    Text.foldDigits_zeros, Text.foldDigits_ofNat, Nat.mul_zero, Nat.zero_add]

theorem length_whole_ofScaled :
    (ofScaled n decimals).whole.length = max 1 ((ofNat n).length - decimals) := by
  rw [ofScaled_eq, List.length_take, length_padded]
  omega

theorem whole_ofScaled_ne_nil : (ofScaled n decimals).whole ≠ [] := by
  intro hnil
  have hlength := length_whole_ofScaled n decimals
  rw [hnil, List.length_nil] at hlength
  omega

theorem length_fraction_ofScaled : (ofScaled n decimals).fraction.length = decimals := by
  rw [ofScaled_eq, List.length_drop, length_padded]
  omega

theorem zero_alone_ofScaled (s : Text) (h : (ofScaled n decimals).whole = '0' :: s) : s = [] := by
  have hlength := length_whole_ofScaled n decimals
  by_cases hmore : 1 < (ofScaled n decimals).whole.length
  · have hpad : padded n decimals = ofNat n := by
      rw [padded, Nat.sub_eq_zero_of_le (by omega), List.replicate_zero, List.nil_append]
    have hzero : ofNat n = '0' :: (s ++ (ofScaled n decimals).fraction) := by
      rw [← hpad, ← digits_ofScaled, digits, h, List.cons_append]
    have hn : n ≠ 0 := by
      rintro rfl
      have hone : (ofNat 0).length = 1 := rfl
      omega
    exact absurd hzero (Text.ofNat_ne_zero_cons hn _)
  · rw [h, List.length_cons] at hmore
    exact List.eq_nil_of_length_eq_zero (by omega)

end FixedDigits

namespace Exact

variable {x : Exact} {decimals : ℕ} {d d' : FixedDigits}

theorem fixed_fixedDigits (x : Exact) (decimals : ℕ) : x.Fixed decimals (x.fixedDigits decimals) where
  isDigit_of_mem c hc := by
    rw [fixedDigits, FixedDigits.digits_ofScaled] at hc
    exact FixedDigits.isDigit_of_mem_padded _ _ hc
  whole_ne_nil := FixedDigits.whole_ofScaled_ne_nil _ _
  zero_alone := FixedDigits.zero_alone_ofScaled _ _
  length_fraction := FixedDigits.length_fraction_ofScaled _ _
  isNearest := by
    have hnearest := isNearest_roundDiv (x.numerator * Nat.pow 10 decimals) x.denominator_pos
    rw [fixedDigits, FixedDigits.digits_ofScaled, FixedDigits.foldDigits_padded,
      magnitude_eq_div, div_mul_eq_mul_div]
    exact_mod_cast hnearest

theorem Fixed.foldDigits_digits (h : x.Fixed decimals d) :
    foldDigits 0 d.digits = 10 ^ decimals * foldDigits 0 d.whole + foldDigits 0 d.fraction := by
  rw [FixedDigits.digits,
    Text.foldDigits_append _ fun c hc => h.isDigit_of_mem c (List.mem_append_right _ hc),
    h.length_fraction]

theorem Fixed.foldDigits_fraction_lt (h : x.Fixed decimals d) :
    foldDigits 0 d.fraction < 10 ^ decimals := by
  rw [← h.length_fraction]
  exact Text.foldDigits_lt fun c hc => h.isDigit_of_mem c (List.mem_append_right _ hc)

theorem Fixed.whole_eq (h : x.Fixed decimals d) : d.whole = ofNat (foldDigits 0 d.whole) :=
  (Text.ofNat_foldDigits (fun c hc => h.isDigit_of_mem c (List.mem_append_left _ hc))
    h.whole_ne_nil h.zero_alone).symm

theorem Fixed.unique (hd : x.Fixed decimals d) (hd' : x.Fixed decimals d') : d = d' := by
  have hvalue := hd.isNearest.unique hd'.isNearest
  rw [hd.foldDigits_digits, hd'.foldDigits_digits] at hvalue
  have hwhole : foldDigits 0 d.whole = foldDigits 0 d'.whole := by
    have hdiv := congrArg (· / 10 ^ decimals) hvalue
    simpa [Nat.mul_add_div, Nat.div_eq_of_lt hd.foldDigits_fraction_lt,
      Nat.div_eq_of_lt hd'.foldDigits_fraction_lt] using hdiv
  have hfraction : d.fraction = d'.fraction := by
    apply Text.eq_of_foldDigits_eq
    · exact fun c hc => hd.isDigit_of_mem c (List.mem_append_right _ hc)
    · exact fun c hc => hd'.isDigit_of_mem c (List.mem_append_right _ hc)
    · rw [hd.length_fraction, hd'.length_fraction]
    · rw [hwhole] at hvalue
      omega
  rw [FixedDigits.mk.injEq]
  exact ⟨by rw [hd.whole_eq, hd'.whole_eq, hwhole], hfraction⟩

theorem fixed_iff : x.Fixed decimals d ↔ d = x.fixedDigits decimals := by
  constructor
  · exact fun h => h.unique (fixed_fixedDigits x decimals)
  · rintro rfl
    exact fixed_fixedDigits x decimals

theorem significand_truncate (h : x.significand = 0) : x.truncate.significand = 0 := by
  rw [truncate, numerator, h, Nat.zero_mul, Nat.zero_div]

theorem Fixed.eq_zero (h : x.Fixed decimals d) (hx : x.significand = 0) {c : Char}
    (hc : c ∈ d.digits) : c = '0' := by
  have hnearest := h.isNearest
  rw [magnitude, hx, Nat.cast_zero, zero_mul, zero_mul, ← Nat.cast_zero] at hnearest
  exact Text.eq_zero_of_foldDigits_eq_zero h.isDigit_of_mem
    (hnearest.unique (isNearest_natCast 0)) hc

theorem fixed_truncate (x : Exact) : x.truncate.Fixed 0 ⟨ofNat ⌊x.magnitude⌋₊, []⟩ where
  isDigit_of_mem c hc := by
    rw [FixedDigits.digits, List.append_nil] at hc
    exact Text.isDigit_of_mem_ofNat hc
  whole_ne_nil := Text.ofNat_ne_nil _
  zero_alone s hs := by
    by_cases hfloor : ⌊x.magnitude⌋₊ = 0
    · rw [hfloor] at hs
      exact (List.cons.inj hs).2.symm
    · exact absurd hs (Text.ofNat_ne_zero_cons hfloor s)
  length_fraction := rfl
  isNearest := by
    have hwhole : x.truncate.magnitude * 10 ^ 0 = (⌊x.magnitude⌋₊ : ℚ) := by
      rw [floor_magnitude, magnitude, truncate]
      simp
    rw [hwhole, FixedDigits.digits, List.append_nil, Text.foldDigits_ofNat]
    exact isNearest_natCast _

end Exact
end Number
end ContentWeave
