import ContentWeave.Number.Numeral
import ContentWeave.Proofs.Number.Rounding

/-!
# Decimals as numbers

Every number that is read from a decimal is the one nearest to the decimal's value.
-/

namespace ContentWeave.Number

open Float.Model (UnpackedFloat Format totalExponent)
open Float.Model.UnpackedFloat (Accuracy ExtendedMantissa Sign accuracyOfFraction div divCore mul
  roundWithAccuracy)

theorem truncates_of_fraction (q : ℕ) {num den : ℕ} (h : num < den) (e : ℤ) :
    Truncates (.ofMantissaAndAccuracy q (accuracyOfFraction num den)) e ((q + num / den) * 2 ^ e) := by
  refine ⟨num / den, ?_, by rw [mantissa_ofMantissaAndAccuracy]⟩
  have hden : (0 : ℚ) < den := by exact_mod_cast Nat.zero_lt_of_lt h
  have hone : (num : ℚ) / den < 1 := (div_lt_one hden).2 (by exact_mod_cast h)
  unfold accuracyOfFraction
  split_ifs with hzero
  · rw [hzero, Nat.cast_zero, zero_div]
    rfl
  · have hnum : (0 : ℚ) < num := by exact_mod_cast Nat.pos_of_ne_zero hzero
    cases hcompare : compare (2 * num) den with
    | lt =>
      have hhalf : (num : ℚ) * 2 < den := by
        exact_mod_cast (Nat.mul_comm num 2).trans_lt (Nat.compare_eq_lt.1 hcompare)
      exact ⟨by positivity, by rw [div_lt_div_iff₀ hden two_pos]; linarith⟩
    | eq =>
      have hhalf : (num : ℚ) * 2 = den := by
        exact_mod_cast (Nat.mul_comm num 2).trans (Nat.compare_eq_eq.1 hcompare)
      exact show (num : ℚ) / den = 1 / 2 by rw [div_eq_div_iff hden.ne' two_ne_zero]; linarith
    | gt =>
      have hhalf : (den : ℚ) < num * 2 := by
        exact_mod_cast (Nat.compare_eq_gt.1 hcompare).trans_eq (Nat.mul_comm 2 num)
      exact ⟨by rw [div_lt_div_iff₀ two_pos hden]; linarith, hone⟩

section Quotient

variable {m₁ m₂ : ℕ} (hm₂ : 0 < m₂) (k : ℕ)
include hm₂

theorem shiftLeft_div_add_mod :
    ((m₁ <<< k / m₂ : ℕ) : ℚ) + (m₁ <<< k % m₂ : ℕ) / m₂ = m₁ * 2 ^ k / m₂ := by
  have hpos : (0 : ℚ) < m₂ := by exact_mod_cast hm₂
  rw [eq_div_iff hpos.ne', add_mul, div_mul_cancel₀ _ hpos.ne']
  have hnat := Nat.div_add_mod' (m₁ <<< k) m₂
  rw [Nat.shiftLeft_eq] at hnat ⊢
  exact_mod_cast hnat

variable {k}

theorem normalSignificand_le_div (hm₁ : 0 < m₁) (h : m₂.log2 + 53 ≤ m₁.log2 + k) :
    normalSignificand ≤ m₁ <<< k / m₂ := by
  rw [Nat.le_div_iff_mul_le hm₂]
  calc normalSignificand * m₂ ≤ 2 ^ 52 * 2 ^ (m₂.log2 + 1) :=
        Nat.mul_le_mul_left _ Nat.lt_log2_self.le
    _ = 2 ^ (m₂.log2 + 53) := by rw [← Nat.pow_add, Nat.add_comm 52, Nat.add_assoc]
    _ ≤ 2 ^ (m₁.log2 + k) := Nat.pow_le_pow_right two_pos h
    _ = 2 ^ m₁.log2 * 2 ^ k := Nat.pow_add _ _ _
    _ ≤ m₁ * 2 ^ k := Nat.mul_le_mul_right _ (Nat.log2_self_le hm₁.ne')
    _ = m₁ <<< k := (Nat.shiftLeft_eq _ _).symm

/-- The quotient is cut off with enough bits to be rounded. -/
theorem truncates_divCore (hm₁ : 0 < m₁) (e₁ e₂ : ℤ) :
    ∃ q t accuracy, divCore Format.binary64 m₁ e₁ m₂ e₂ = (q, t, accuracy) ∧
      Truncates (.ofMantissaAndAccuracy q accuracy) t (m₁ * 2 ^ e₁ / (m₂ * 2 ^ e₂)) ∧
      (normalSignificand ≤ q ∨ t ≤ leastExponent) := by
  obtain ⟨t, ht⟩ : ∃ t, t = min (e₁ - e₂) (Format.binary64.targetExponent
    (totalExponent m₁ e₁ - totalExponent m₂ e₂)) := ⟨_, rfl⟩
  obtain ⟨k, hk⟩ : ∃ k, k = (e₁ - e₂ - t).toNat := ⟨_, rfl⟩
  have hcore : divCore Format.binary64 m₁ e₁ m₂ e₂ =
      ((m₁ <<< k) / m₂, t, accuracyOfFraction ((m₁ <<< k) % m₂) m₂) := by
    rw [hk, ht]
    rfl
  have hcut := truncates_of_fraction (m₁ <<< k / m₂) (Nat.mod_lt (m₁ <<< k) hm₂) t
  refine ⟨_, _, _, hcore, ?_, ?_⟩
  · have hexponent : e₁ - e₂ = k + t := by omega
    have hsplit : (2 : ℚ) ^ e₁ = 2 ^ k * 2 ^ t * 2 ^ e₂ := by
      rw [← zpow_natCast, ← zpow_add₀ two_ne_zero, ← zpow_add₀ two_ne_zero, ← hexponent,
        sub_add_cancel]
    rw [shiftLeft_div_add_mod hm₂] at hcut
    rw [hsplit, ← mul_assoc, mul_div_mul_right _ _ (by positivity), ← mul_assoc, mul_div_right_comm]
    exact hcut
  · have hleast : Format.binary64.minExponent = leastExponent := by decide
    have hbits : (Format.binary64.mantissaBits : ℤ) = 53 := rfl
    rw [Format.targetExponent, totalExponent, totalExponent, hleast, hbits] at ht
    by_cases hlow : t ≤ leastExponent
    · exact .inr hlow
    · exact .inl (normalSignificand_le_div hm₂ hm₁ (by omega))

end Quotient

section Operations

variable (s₁ s₂ : Sign) {m₁ m₂ : ℕ} (hm₁ : 0 < m₁) (hm₂ : 0 < m₂) (e₁ e₂ : ℤ)
include hm₁ hm₂

theorem rounded_mul (h : normalSignificand ≤ m₁ * m₂) :
    Rounded (isMinus (s₁ * s₂)) (m₁ * 2 ^ e₁ * (m₂ * 2 ^ e₂))
      (mul Format.binary64 (.finite s₁ m₁ e₁ hm₁) (.finite s₂ m₂ e₂ hm₂)) := by
  have hexact := Truncates.of_exact (m₁ * m₂) (e₁ + e₂)
  rw [zpow_add₀ two_ne_zero, Nat.cast_mul, mul_mul_mul_comm] at hexact
  exact rounded_roundWithAccuracy _ hexact (.inl h)

theorem rounded_div :
    Rounded (isMinus (s₁ / s₂)) (m₁ * 2 ^ e₁ / (m₂ * 2 ^ e₂))
      (div Format.binary64 (.finite s₁ m₁ e₁ hm₁) (.finite s₂ m₂ e₂ hm₂)) := by
  obtain ⟨q, t, accuracy, hcore, hcut, hbits⟩ := truncates_divCore hm₂ hm₁ e₁ e₂
  rw [div, hcore]
  exact rounded_roundWithAccuracy _ hcut hbits

end Operations

theorem exists_finite_of_exactOf? {a : Float} {x : Exact} (ha : exactOf? a = some x)
    (hx : 0 < x.significand) :
    ∃ s m e hm, a.toModel.unpack = .finite s m e hm ∧ x = ⟨isMinus s, m, e⟩ := by
  rw [exactOf?_eq] at ha
  cases hu : a.toModel.unpack with
  | infinity s =>
    rw [hu] at ha
    cases ha
  | notANumber =>
    rw [hu] at ha
    cases ha
  | zero s =>
    rw [hu] at ha
    cases ha
    exact absurd hx (Nat.lt_irrefl 0)
  | finite s m e hm =>
    rw [hu] at ha
    cases ha
    exact ⟨s, m, e, hm, rfl, rfl⟩

section Products

variable {a b : Float} {x y : Exact}

theorem roundsTo_mul (ha : exactOf? a = some x) (hb : exactOf? b = some y)
    (h : normalSignificand ≤ x.significand * y.significand) :
    RoundsTo (x.negative ^^ y.negative) (x.magnitude * y.magnitude) (a * b) := by
  have hpos : 0 < x.significand * y.significand := lt_of_lt_of_le (by decide) h
  obtain ⟨s₁, m₁, e₁, hm₁, hu, rfl⟩ := exists_finite_of_exactOf? ha (Nat.pos_of_mul_pos_right hpos)
  obtain ⟨s₂, m₂, e₂, hm₂, hv, rfl⟩ := exists_finite_of_exactOf? hb (Nat.pos_of_mul_pos_left hpos)
  have hmul : a * b = .ofModel (.pack (mul Format.binary64 a.toModel.unpack b.toModel.unpack)) := rfl
  have hsign : isMinus (s₁ * s₂) = (isMinus s₁ ^^ isMinus s₂) := by cases s₁ <;> cases s₂ <;> rfl
  rw [hmul, hu, hv]
  exact hsign ▸ (rounded_mul s₁ s₂ hm₁ hm₂ e₁ e₂ h).pack

theorem roundsTo_div (ha : exactOf? a = some x) (hb : exactOf? b = some y) (hx : 0 < x.significand)
    (hy : 0 < y.significand) :
    RoundsTo (x.negative ^^ y.negative) (x.magnitude / y.magnitude) (a / b) := by
  obtain ⟨s₁, m₁, e₁, hm₁, hu, rfl⟩ := exists_finite_of_exactOf? ha hx
  obtain ⟨s₂, m₂, e₂, hm₂, hv, rfl⟩ := exists_finite_of_exactOf? hb hy
  have hdiv : a / b = .ofModel (.pack (div Format.binary64 a.toModel.unpack b.toModel.unpack)) := rfl
  have hsign : isMinus (s₁ / s₂) = (isMinus s₁ ^^ isMinus s₂) := by cases s₁ <;> cases s₂ <;> rfl
  rw [hdiv, hu, hv]
  exact hsign ▸ (rounded_div s₁ s₂ hm₁ hm₂ e₁ e₂).pack

end Products

/-! ### Decimals -/

theorem Exact.Rounds.magnitude_eq {x y : Exact} (hx : x.Rounds y.magnitude) (hy : y.Canonical) :
    x.magnitude = y.magnitude := by
  have hnear := hx.nearest y hy
  rw [sub_self, abs_zero] at hnear
  exact (sub_eq_zero.1 (abs_nonpos_iff.1 hnear)).symm

theorem magnitude_shiftLeft (negative : Bool) (m k : ℕ) :
    Exact.magnitude ⟨negative, m <<< k, -k⟩ = m := by
  rw [Exact.magnitude, Nat.shiftLeft_eq, Nat.cast_mul, Nat.cast_pow, Nat.cast_two, zpow_neg,
    zpow_natCast, mul_inv_cancel_right₀ (by positivity)]

theorem canonical_shiftLeft (negative : Bool) {m k : ℕ} (hpos : 0 < m) (hk : m.log2 + k = 52) :
    Exact.Canonical ⟨negative, m <<< k, -k⟩ where
  significand_lt := by
    dsimp only
    calc m <<< k = m * 2 ^ k := Nat.shiftLeft_eq _ _
      _ < 2 ^ (m.log2 + 1) * 2 ^ k := Nat.mul_lt_mul_of_pos_right Nat.lt_log2_self (Nat.two_pow_pos k)
      _ = 2 ^ (m.log2 + k + 1) := by rw [← Nat.pow_add, Nat.add_right_comm]
      _ = 2 * normalSignificand := by rw [hk]; rfl
  least_le := by
    dsimp only [leastExponent]
    omega
  normal := by
    refine .inr ?_
    dsimp only
    calc normalSignificand = 2 ^ (m.log2 + k) := by rw [hk]; rfl
      _ = 2 ^ m.log2 * 2 ^ k := Nat.pow_add _ _ _
      _ ≤ m * 2 ^ k := Nat.mul_le_mul_right _ (Nat.log2_self_le hpos.ne')
      _ = m <<< k := (Nat.shiftLeft_eq _ _).symm

theorem Exact.Canonical.normal_of_one_le {x : Exact} (hx : x.Canonical) (h : 1 ≤ x.magnitude) :
    normalSignificand ≤ x.significand := by
  refine hx.normal.resolve_left fun hleast => absurd h (not_le.2 ?_)
  calc x.magnitude < (2 * normalSignificand : ℕ) * 2 ^ (-53 : ℤ) :=
        hx.magnitude_lt (by rw [hleast]; decide)
    _ = 1 := by norm_num [normalSignificand]

theorem natCast_lt_overflow {m : ℕ} (h : m < 2 * normalSignificand) : (m : ℚ) < overflow := by
  have hlt : (m : ℚ) < (2 * normalSignificand : ℕ) := by exact_mod_cast h
  have htwo : (2 : ℚ) ^ (1 : ℤ) ≤ 2 ^ (971 : ℤ) := zpow_le_zpow_right₀ (by norm_num) (by norm_num)
  have hlarge := two_le_double_normalSignificand
  calc (m : ℚ) < (2 * normalSignificand : ℕ) := hlt
    _ ≤ ((2 * normalSignificand : ℕ) - 1 / 2) * 2 ^ (1 : ℤ) := by
      rw [zpow_one]
      linarith
    _ ≤ overflow := mul_le_mul_of_nonneg_left htwo (by linarith)

/-- Whole numbers of no more than 53 bits are numbers. -/
theorem exists_exactOf?_toFloat {m : ℕ} (hpos : 0 < m) (hlt : m < 2 * normalSignificand) :
    ∃ x, exactOf? m.toUInt64.toFloat = some x ∧ x.negative = false ∧ x.magnitude = m ∧
      normalSignificand ≤ x.significand := by
  obtain ⟨k, hk⟩ : ∃ k, k = (0 - Format.binary64.targetExponent (totalExponent m 0)).toNat := ⟨_, rfl⟩
  have hround : m.toUInt64.toFloat = .ofModel (.pack
      (roundWithAccuracy Format.binary64 .positive (m <<< k) (0 - k) .exact)) := by
    have hsame : m.toUInt64.toNat = m := Nat.mod_eq_of_lt (lt_trans hlt (by decide))
    have hgt : compare (m : ℤ) 0 = .gt := Int.compare_eq_gt.2 (by omega)
    have hfloat : m.toUInt64.toFloat = .ofModel (.pack
        (UnpackedFloat.normalize Format.binary64 m.toUInt64.toNat 0 .positive)) := rfl
    rw [hfloat, hsame, UnpackedFloat.normalize, hgt, hk]
    rfl
  have hlog : m.log2 < 53 := (Nat.log2_lt hpos.ne').2 hlt
  rw [targetExponent_eq, leastExponent] at hk
  rw [zero_sub] at hround
  have hcanonical := canonical_shiftLeft false hpos (k := k) (by omega)
  obtain ⟨x, hu, hsign, hx⟩ := rounded_roundWithAccuracy .positive (Truncates.of_exact (m <<< k) (-k))
    (hcanonical.normal.symm.imp_right le_of_eq)
  have hm : x.magnitude = m := (hx.magnitude_eq hcanonical).trans (magnitude_shiftLeft false m k)
  have hone : (1 : ℚ) ≤ m := by exact_mod_cast hpos
  refine ⟨x, ?_, hsign, hm, hx.canonical.normal_of_one_le (hm ▸ hone)⟩
  have hvalue : ((m <<< k : ℕ) : ℚ) * 2 ^ (-k : ℤ) = m := magnitude_shiftLeft false m k
  rw [hround]
  exact hx.exactOf?_pack hu (hvalue ▸ natCast_lt_overflow hlt)

theorem exactOf?_powerOfTen (i : Fin Float.exactlyRepresentablePowersOfTen.size) :
    (exactOf? Float.exactlyRepresentablePowersOfTen[i]).any (fun y =>
      !y.negative && y.numerator == 10 ^ i.val * y.denominator) = true := by
  revert i
  decide +kernel

theorem exists_exactOf?_powerOfTen {i : ℕ} (h : i < Float.exactlyRepresentablePowersOfTen.size) :
    ∃ y, exactOf? Float.exactlyRepresentablePowersOfTen[i] = some y ∧ y.negative = false ∧
      y.magnitude = 10 ^ i := by
  obtain ⟨y, hy, hpower⟩ := (Option.any_eq_true _ _).1 (exactOf?_powerOfTen ⟨i, h⟩)
  rw [Bool.and_eq_true, Bool.not_eq_true', beq_iff_eq] at hpower
  have hpos : (0 : ℚ) < y.denominator := by exact_mod_cast y.denominator_pos
  refine ⟨y, hy, hpower.1, ?_⟩
  rw [Exact.magnitude_eq_div, div_eq_iff hpos.ne']
  exact_mod_cast hpower.2

section Scientific

variable {m : ℕ} {e : ℤ}

theorem rounded_ofScientific (hm : m ≠ 0) (hhigh : e ≤ 2 ^ 11) (hlow : -((2 ^ 11 : ℤ) + m.log2) ≤ e) :
    Rounded false (m * 10 ^ e) (UnpackedFloat.ofScientific Format.binary64 m e) := by
  rw [UnpackedFloat.ofScientific, dif_neg hm, if_neg (not_lt.2 hhigh), if_neg (not_lt.2 hlow)]
  have hpos := Nat.pos_of_ne_zero hm
  have hten (n : ℕ) : 0 < 10 ^ n := Nat.pow_pos (by decide)
  split_ifs with hsign
  · obtain ⟨n, rfl⟩ := Int.eq_ofNat_of_zero_le hsign
    have hshift : 0 < m <<< 53 := by
      rw [Nat.shiftLeft_eq]
      positivity
    have hlong : normalSignificand ≤ m <<< 53 * 10 ^ n := by
      rw [Nat.shiftLeft_eq]
      exact le_trans (by decide : normalSignificand ≤ 1 * 2 ^ 53 * 1)
        (Nat.mul_le_mul (Nat.mul_le_mul_right _ hpos) (hten n))
    have hmul := rounded_mul .positive .positive hshift (hten n) (-53) 0 hlong
    have hvalue : ((m <<< 53 : ℕ) : ℚ) * 2 ^ (-53 : ℤ) = m := magnitude_shiftLeft false m 53
    rw [hvalue, zpow_zero, mul_one, Nat.cast_pow, Nat.cast_ofNat, ← zpow_natCast] at hmul
    exact hmul
  · obtain ⟨n, hn⟩ := Int.eq_ofNat_of_zero_le (le_of_lt (neg_pos.2 (not_le.1 hsign)))
    have hdiv := rounded_div .positive .positive hpos (hten (-e).toNat) 0 0
    have hpower : (m : ℚ) * 10 ^ e = m * 2 ^ (0 : ℤ) / ((10 ^ (-e).toNat : ℕ) * 2 ^ (0 : ℤ)) := by
      rw [hn, Int.toNat_natCast, ← neg_neg e, hn, zpow_neg, zpow_natCast, zpow_zero, mul_one, mul_one,
        Nat.cast_pow, Nat.cast_ofNat, div_eq_mul_inv]
    rw [hpower]
    exact hdiv

theorem roundsTo_ofScientific_fast (hm : m ≠ 0) (h : m < 2 ^ 53 ∧ e.natAbs ≤ 22) :
    RoundsTo false (m * 10 ^ e) (Float.ofScientific m (decide (e < 0)) e.natAbs) := by
  obtain ⟨x, hx, hxsign, hxm, hxlong⟩ := exists_exactOf?_toFloat (Nat.pos_of_ne_zero hm) h.1
  obtain ⟨y, hy, hysign, hym⟩ := exists_exactOf?_powerOfTen (Nat.lt_succ_of_le h.2)
  have hypos : 0 < y.significand := by
    refine Nat.pos_of_ne_zero fun hzero => ?_
    rw [Exact.magnitude, hzero, Nat.cast_zero, zero_mul] at hym
    exact absurd hym.symm (by positivity)
  -- both numbers are exact, so that there is only one rounding
  have hsigns : (x.negative ^^ y.negative) = false := by rw [hxsign, hysign]; rfl
  rw [Float.ofScientific, dif_pos h]
  dsimp only
  by_cases hsign : e < 0
  · rw [decide_eq_true hsign, if_pos rfl]
    have hpower : (m : ℚ) * 10 ^ e = x.magnitude / y.magnitude := by
      rw [hxm, hym, div_eq_mul_inv, ← zpow_natCast, ← zpow_neg, Int.ofNat_natAbs_of_nonpos hsign.le,
        neg_neg]
    rw [hpower, ← hsigns]
    exact roundsTo_div hx hy (lt_of_lt_of_le (by decide) hxlong) hypos
  · rw [decide_eq_false hsign, if_neg Bool.false_ne_true]
    have hpower : (m : ℚ) * 10 ^ e = x.magnitude * y.magnitude := by
      rw [hxm, hym, ← zpow_natCast, Int.natAbs_of_nonneg (not_lt.1 hsign)]
    rw [hpower, ← hsigns]
    exact roundsTo_mul hx hy (le_trans hxlong (Nat.le_mul_of_pos_right _ hypos))

theorem roundsTo_ofScientific (hm : m ≠ 0) (hhigh : e ≤ 2 ^ 11) (hlow : -((2 ^ 11 : ℤ) + m.log2) ≤ e) :
    RoundsTo false (m * 10 ^ e) (Float.ofScientific m (decide (e < 0)) e.natAbs) := by
  by_cases hfast : m < 2 ^ 53 ∧ e.natAbs ≤ 22
  · exact roundsTo_ofScientific_fast hm hfast
  · have hexponent : (if decide (e < 0) = true then Int.negOfNat e.natAbs else Int.ofNat e.natAbs) = e := by
      by_cases hsign : e < 0
      · rw [if_pos (decide_eq_true hsign), Int.negOfNat_eq, Int.ofNat_eq_natCast,
          Int.ofNat_natAbs_of_nonpos hsign.le, neg_neg]
      · rw [if_neg (by rwa [decide_eq_true_iff]), Int.ofNat_eq_natCast,
          Int.natAbs_of_nonneg (not_lt.1 hsign)]
    rw [Float.ofScientific, dif_neg hfast]
    dsimp only
    rw [hexponent]
    exact (rounded_ofScientific hm hhigh hlow).pack

end Scientific

section Guards

variable {v : ℚ}

theorem roundsTo_zero (hv : 0 ≤ v) (hsmall : v ≤ 2 ^ (-1075 : ℤ)) : RoundsTo false v 0 := by
  have hhalf : v / 2 ^ leastExponent ≤ 1 / 2 := by
    rw [div_le_iff₀ (by positivity)]
    calc v ≤ 2 ^ (leastExponent - 1) := hsmall
      _ = 1 / 2 * 2 ^ leastExponent := by rw [zpow_sub_one₀ two_ne_zero, mul_comm, one_div]
  have hnear : IsNearest (v / 2 ^ leastExponent) 0 := by
    have hbelow := isNearest_below (n := 0) (div_nonneg hv (by positivity))
      (hhalf.lt_or_eq.imp_right fun htie => ⟨htie, by decide⟩)
    rwa [Nat.cast_zero, zero_add] at hbelow
  have hrounds := rounds_of_isNearest false hnear (by decide) (le_refl _) (.inl rfl)
  rw [if_neg (by decide)] at hrounds
  have hzero : exactOf? 0 = some ⟨false, 0, leastExponent⟩ := rfl
  refine hrounds.roundsTo (fun _ => hzero) fun hlarge => absurd (lt_of_le_of_lt hsmall ?_) (not_lt.2 hlarge)
  calc (2 : ℚ) ^ (-1075 : ℤ) ≤ 2 ^ (0 : ℤ) := zpow_le_zpow_right₀ (by norm_num) (by norm_num)
    _ = (1 : ℕ) := by rw [zpow_zero, Nat.cast_one]
    _ < overflow := natCast_lt_overflow (by decide)

-- the guards stand far beyond where numbers end, so that three bits for a digit are enough to see it
theorem two_zpow_le_ten_zpow (n : ℕ) : (2 : ℚ) ^ (3 * n : ℤ) ≤ 10 ^ (n : ℤ) := by
  rw [zpow_mul, zpow_natCast, zpow_natCast]
  exact pow_le_pow_left₀ (by positivity) (by norm_num) n

theorem ten_zpow_le : (10 : ℚ) ^ (-401 : ℤ) ≤ 2 ^ (-1075 : ℤ) := by
  calc (10 : ℚ) ^ (-401 : ℤ) = (10 ^ ((401 : ℕ) : ℤ))⁻¹ := zpow_neg _ _
    _ ≤ (2 ^ (3 * (401 : ℕ) : ℤ))⁻¹ := inv_anti₀ (by positivity) (two_zpow_le_ten_zpow 401)
    _ = 2 ^ (-(3 * (401 : ℕ)) : ℤ) := (zpow_neg _ _).symm
    _ ≤ 2 ^ (-1075 : ℤ) := zpow_le_zpow_right₀ (by norm_num) (by norm_num)

theorem overflow_le : overflow ≤ 10 ^ (400 : ℤ) := by
  have hbits : ((2 * normalSignificand : ℕ) : ℚ) = 2 ^ (53 : ℤ) := by norm_num [normalSignificand]
  calc overflow ≤ 2 ^ (53 : ℤ) * 2 ^ (971 : ℤ) :=
        mul_le_mul_of_nonneg_right (by rw [hbits]; linarith) (by positivity)
    _ = 2 ^ (53 + 971 : ℤ) := (zpow_add₀ two_ne_zero _ _).symm
    _ ≤ 2 ^ (3 * (400 : ℕ) : ℤ) := zpow_le_zpow_right₀ (by norm_num) (by norm_num)
    _ ≤ 10 ^ (400 : ℤ) := two_zpow_le_ten_zpow 400

theorem roundsTo_infinity (hlarge : 10 ^ (400 : ℤ) ≤ v) : RoundsTo false v (1 / 0) where
  finite hv := absurd hv (not_lt.2 (overflow_le.trans hlarge))
  infinite _ := rfl

end Guards

theorem toDigits_bounds {n : ℕ} (hn : n ≠ 0) :
    10 ^ ((Nat.toDigits 10 n).length - 1) ≤ n ∧ n < 10 ^ (Nat.toDigits 10 n).length := by
  have hpos : 0 < (Nat.toDigits 10 n).length := Nat.length_toDigits_pos
  refine ⟨?_, (Nat.length_toDigits_le_iff (by decide) hpos).1 (le_refl _)⟩
  by_contra hlt
  by_cases hone : (Nat.toDigits 10 n).length - 1 = 0
  · rw [hone] at hlt
    exact hlt (Nat.pos_of_ne_zero hn)
  · have hle := (Nat.length_toDigits_le_iff (by decide) (Nat.pos_of_ne_zero hone)).2 (not_le.1 hlt)
    omega

theorem ofDecimal_roundsTo (digits : ℕ) (exponent : ℤ) :
    RoundsTo false (digits * 10 ^ exponent) (ofDecimal digits exponent) := by
  by_cases hdigits : digits = 0
  · rw [ofDecimal, if_pos (.inl hdigits), hdigits, Nat.cast_zero, zero_mul]
    exact roundsTo_zero (le_refl _) (by positivity)
  · obtain ⟨hlow, hhigh⟩ := toDigits_bounds hdigits
    have hlog : (Nat.toDigits 10 digits).length - 1 ≤ digits.log2 :=
      (Nat.le_log2 hdigits).2 (le_trans (Nat.pow_le_pow_left (by decide) _) hlow)
    have hlength : 0 < (Nat.toDigits 10 digits).length := Nat.length_toDigits_pos
    rw [ofDecimal]
    generalize (Nat.toDigits 10 digits).length = length at hlow hhigh hlog hlength ⊢
    split_ifs with hsmall hlarge
    · refine roundsTo_zero (by positivity) (le_trans ?_ ten_zpow_le)
      calc (digits : ℚ) * 10 ^ exponent ≤ 10 ^ (length : ℤ) * 10 ^ exponent :=
            mul_le_mul_of_nonneg_right (by exact_mod_cast hhigh.le) (by positivity)
        _ = 10 ^ (length + exponent) := (zpow_add₀ (by norm_num) _ _).symm
        _ ≤ 10 ^ (-401 : ℤ) := zpow_le_zpow_right₀ (by norm_num) (by omega)
    · refine roundsTo_infinity ?_
      calc (10 : ℚ) ^ (400 : ℤ) ≤ 10 ^ ((length - 1 : ℕ) + exponent) :=
            zpow_le_zpow_right₀ (by norm_num) (by omega)
        _ = 10 ^ ((length - 1 : ℕ) : ℤ) * 10 ^ exponent := zpow_add₀ (by norm_num) _ _
        _ ≤ digits * 10 ^ exponent :=
          mul_le_mul_of_nonneg_right (by exact_mod_cast hlow) (by positivity)
    · exact roundsTo_ofScientific hdigits (by omega) (by omega)

theorem RoundsTo.neg {v : ℚ} {x : Float} (h : RoundsTo false v x) : RoundsTo true v (-x) where
  finite hv := by
    obtain ⟨e, he, hsign, hnear⟩ := h.finite hv
    exact ⟨e.neg, exactOf?_neg he, by rw [Exact.neg, hsign]; rfl, hnear⟩
  infinite hv := by
    rw [h.infinite hv]
    rfl

/-- The value of a numeral, but for its sign. -/
def Numeral.magnitude (n : Numeral) : ℚ :=
  Text.foldDigits 0 (n.whole ++ n.fraction) * 10 ^ (n.exponent - n.fraction.length)

/-- The number that a numeral denotes is nearest to the numeral's value. -/
theorem Numeral.toFloat_roundsTo (n : Numeral) : RoundsTo n.negative n.magnitude n.toFloat := by
  have hmagnitude := ofDecimal_roundsTo (Text.foldDigits 0 (n.whole ++ n.fraction))
    (n.exponent - n.fraction.length)
  rw [toFloat]
  split_ifs with hsign
  · rw [hsign]
    exact hmagnitude.neg
  · rw [Bool.eq_false_of_not_eq_true hsign]
    exact hmagnitude

end ContentWeave.Number
