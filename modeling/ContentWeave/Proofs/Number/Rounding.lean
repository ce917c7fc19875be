import ContentWeave.Proofs.Number.FixedPoint
import ContentWeave.Proofs.Number.Floats

/-!
# Rounding to the nearest number

What is cut off a significand leaves two bits behind, which say how far the value is from the
significand. With them it is rounded to the nearest integer, at an exponent at which all numbers near
the value are integers too. So no number is nearer to the value than the one that it is rounded to.
-/

namespace ContentWeave.Number

open Float.Model (UnpackedFloat Format totalExponent)
open Float.Model.UnpackedFloat (Accuracy ExtendedMantissa Sign pack packComponents packedInfinity
  roundWithAccuracy shiftToExponent shiftToTargetExponent unpack unpackExponent_packComponents
  unpackMantissa_packComponents unpackSign_packComponents)

/-- The part of one that two bits stand for: whether it reaches a half, and whether there is more. -/
def Residue (roundBit stickyBit : Bool) (part : ℚ) : Prop :=
  match roundBit, stickyBit with
  | false, false => part = 0
  | false, true => 0 < part ∧ part < 1 / 2
  | true, false => part = 1 / 2
  | true, true => 1 / 2 < part ∧ part < 1

/-- The value `v` lies where a significand with an exponent was cut off. -/
def Truncates (em : ExtendedMantissa) (e : ℤ) (v : ℚ) : Prop :=
  ∃ part, Residue em.roundBit em.stickyBit part ∧ v = (em.mantissa + part) * 2 ^ e

theorem Residue.zero_or_pos {roundBit stickyBit : Bool} {part : ℚ}
    (h : Residue roundBit stickyBit part) :
    (roundBit || stickyBit) = false ∧ part = 0 ∨
      (roundBit || stickyBit) = true ∧ 0 < part ∧ part < 1 := by
  cases roundBit <;> cases stickyBit
  · exact .inl ⟨rfl, h⟩
  · exact .inr ⟨rfl, h.1, h.2.trans (by norm_num)⟩
  · obtain rfl : part = 1 / 2 := h
    exact .inr ⟨rfl, by norm_num⟩
  · exact .inr ⟨rfl, lt_trans (by norm_num) h.1, h.2⟩

/-- The last bit of a significand and what is behind it, as a part of what that bit follows. -/
theorem Residue.half {roundBit stickyBit : Bool} {part : ℚ} (h : Residue roundBit stickyBit part)
    (n : ℕ) : Residue (n % 2 != 0) (roundBit || stickyBit) (((n % 2 : ℕ) + part) / 2) := by
  rcases h.zero_or_pos with ⟨hbits, rfl⟩ | ⟨hbits, hpos, hlt⟩ <;>
    rcases Nat.mod_two_eq_zero_or_one n with heven | hodd
  · rw [hbits, heven, Nat.cast_zero, add_zero, zero_div]
    rfl
  · rw [hbits, hodd, Nat.cast_one, add_zero]
    rfl
  · rw [hbits, heven, Nat.cast_zero, zero_add]
    exact ⟨by positivity, by linarith⟩
  · rw [hbits, hodd, Nat.cast_one]
    exact ⟨by linarith, by linarith⟩

namespace Truncates

variable {em : ExtendedMantissa} {e : ℤ} {v : ℚ}

theorem shiftRightOne (h : Truncates em e v) : Truncates em.shiftRightOne (e + 1) v := by
  obtain ⟨part, hpart, rfl⟩ := h
  refine ⟨_, hpart.half em.mantissa, ?_⟩
  have hdiv : (em.mantissa : ℚ) = 2 * (em.mantissa / 2 : ℕ) + (em.mantissa % 2 : ℕ) := by
    exact_mod_cast (Nat.div_add_mod em.mantissa 2).symm
  rw [zpow_add_one₀ (by norm_num), ExtendedMantissa.shiftRightOne]
  dsimp only
  rw [hdiv]
  ring

theorem shiftRight (h : Truncates em e v) (k : ℕ) : Truncates (em >>> k) (e + k) v := by
  induction k with
  | zero =>
    have hzero : em >>> (0 : ℕ) = em := rfl
    rw [hzero, Nat.cast_zero, add_zero]
    exact h
  | succ k ih =>
    have hnext := ih.shiftRightOne
    rw [add_assoc] at hnext
    exact_mod_cast hnext

theorem isNearest (h : Truncates em e v) : IsNearest (v / 2 ^ e) em.roundedMantissa := by
  obtain ⟨part, hpart, rfl⟩ := h
  rw [mul_div_cancel_right₀ _ (by positivity)]
  obtain ⟨mantissa, roundBit, stickyBit⟩ := em
  cases roundBit with
  | false =>
    cases stickyBit with
    | false =>
      obtain rfl : part = 0 := hpart
      rw [add_zero]
      exact isNearest_natCast mantissa
    | true => exact isNearest_below hpart.1.le (.inl hpart.2)
  | true =>
    cases stickyBit with
    | false =>
      obtain rfl : part = 1 / 2 := hpart
      have hrounded : ExtendedMantissa.roundedMantissa ⟨mantissa, true, false⟩ =
          mantissa + mantissa % 2 := rfl
      rw [hrounded]
      rcases Nat.mod_two_eq_zero_or_one mantissa with heven | hodd
      · rw [heven]
        exact isNearest_below (by norm_num) (.inr ⟨rfl, Nat.even_iff.2 heven⟩)
      · rw [hodd]
        exact isNearest_above (by norm_num) (.inr ⟨rfl, Nat.not_even_iff.2 hodd⟩)
    | true => exact isNearest_above hpart.2.le (.inl hpart.1)

theorem le (h : Truncates em e v) : em.mantissa * 2 ^ e ≤ v := by
  obtain ⟨part, hpart, rfl⟩ := h
  have hnonneg : 0 ≤ part := hpart.zero_or_pos.elim (fun h => h.2.ge) (fun h => h.2.1.le)
  exact mul_le_mul_of_nonneg_right (le_add_of_nonneg_right hnonneg) (by positivity)

theorem of_exact (mantissa : ℕ) (e : ℤ) :
    Truncates (.ofMantissaAndAccuracy mantissa .exact) e (mantissa * 2 ^ e) :=
  ⟨0, rfl, by rw [add_zero]; rfl⟩

end Truncates

theorem IsNearest.distance_le {r : ℚ} {n : ℕ} (h : IsNearest r n) (k : ℤ) :
    |r - n| ≤ |r - k| ∧ (|r - n| = |r - k| → (n : ℤ) = k ∨ Even n) := by
  by_cases hk : (n : ℤ) = k
  · rw [← hk, Int.cast_natCast]
    exact ⟨le_refl _, fun _ => .inl rfl⟩
  · have hone : (1 : ℚ) ≤ |(n : ℚ) - k| := by
      have hint : (1 : ℤ) ≤ |(n : ℤ) - k| := Int.one_le_abs (sub_ne_zero.2 hk)
      exact_mod_cast hint
    have htriangle := abs_sub_le (n : ℚ) r k
    have hnear := h.near
    rw [abs_sub_comm (n : ℚ) r] at htriangle
    exact ⟨by linarith, fun htie => .inr (h.even_of_tie (by linarith))⟩

namespace Exact

/-- A significand of 53 bits, and a shorter one only with the least exponent. -/
structure Canonical (x : Exact) : Prop where
  significand_lt : x.significand < 2 * normalSignificand
  least_le : leastExponent ≤ x.exponent
  normal : x.exponent = leastExponent ∨ normalSignificand ≤ x.significand

theorem canonical_of_exactOf? {x : Float} {e : Exact} (h : exactOf? x = some e) :
    e.Canonical ∧ e.exponent ≤ 971 := by
  have hfraction : x.toBits.toNat % normalSignificand < normalSignificand := Nat.mod_lt _ (by decide)
  have hbiased : x.toBits.toNat / normalSignificand % 2048 < 2048 := Nat.mod_lt _ (by decide)
  unfold exactOf? at h
  dsimp only at h
  split_ifs at h with hinfinite hzero
  · cases h
    exact ⟨⟨by dsimp only; omega, le_refl _, .inl rfl⟩, by dsimp only [leastExponent]; decide⟩
  · cases h
    refine ⟨⟨by dsimp only; omega, by dsimp only; omega, .inr (Nat.le_add_right _ _)⟩, ?_⟩
    dsimp only [leastExponent]
    omega

theorem Canonical.magnitude_lt {x : Exact} (hx : x.Canonical) {t : ℤ} (ht : x.exponent ≤ t) :
    x.magnitude < (2 * normalSignificand : ℕ) * 2 ^ t := by
  have hsmall : (x.significand : ℚ) < (2 * normalSignificand : ℕ) := by exact_mod_cast hx.significand_lt
  calc x.magnitude < (2 * normalSignificand : ℕ) * 2 ^ x.exponent :=
        mul_lt_mul_of_pos_right hsmall (by positivity)
    _ ≤ (2 * normalSignificand : ℕ) * 2 ^ t :=
        mul_le_mul_of_nonneg_left (zpow_le_zpow_right₀ (by norm_num) ht) (by positivity)

theorem Canonical.multiple_or_lt {x : Exact} (hx : x.Canonical) (t : ℤ) :
    (∃ k : ℕ, x.magnitude = k * 2 ^ t) ∨
      leastExponent < t ∧ x.magnitude < normalSignificand * 2 ^ t := by
  rcases le_or_gt t x.exponent with hle | hlt
  · refine .inl ⟨x.significand * 2 ^ (x.exponent - t).toNat, ?_⟩
    have hsplit : x.exponent = ((x.exponent - t).toNat : ℤ) + t := by omega
    rw [magnitude, Nat.cast_mul, Nat.cast_pow, Nat.cast_two, mul_assoc]
    conv_lhs => rw [hsplit, zpow_add₀ (by norm_num), zpow_natCast]
  · refine .inr ⟨lt_of_le_of_lt hx.least_le hlt, ?_⟩
    calc x.magnitude < (2 * normalSignificand : ℕ) * 2 ^ (t - 1) := hx.magnitude_lt (by omega)
      _ = normalSignificand * 2 ^ t := by
        rw [zpow_sub_one₀ (by norm_num)]
        push_cast
        ring

/-- No canonical number is nearer to `v` than the nearest integer at an exponent, if there are no other
numbers near `v` than integers at it. -/
theorem Canonical.distance_le {v : ℚ} {r : ℕ} {t : ℤ} (hr : IsNearest (v / 2 ^ t) r)
    (hnormal : t = leastExponent ∨ normalSignificand * 2 ^ t ≤ v) {x : Exact} (hx : x.Canonical) :
    |v - r * 2 ^ t| ≤ |v - x.magnitude| ∧
      (|v - r * 2 ^ t| = |v - x.magnitude| → x.magnitude = r * 2 ^ t ∨ Even r) := by
  have hpos : (0 : ℚ) < 2 ^ t := by positivity
  have hscale : ∀ q : ℚ, |v - q * 2 ^ t| = |v / 2 ^ t - q| * 2 ^ t := by
    intro q
    rw [← abs_of_pos hpos, ← abs_mul, abs_of_pos hpos, sub_mul, div_mul_cancel₀ _ hpos.ne']
  rcases hx.multiple_or_lt t with ⟨k, hk⟩ | ⟨hleast, hlt⟩
  · obtain ⟨hle, htie⟩ := hr.distance_le k
    rw [Int.cast_natCast] at hle htie
    rw [hk, hscale, hscale]
    refine ⟨mul_le_mul_of_nonneg_right hle hpos.le, fun heq => ?_⟩
    refine (htie (mul_right_cancel₀ hpos.ne' heq)).imp_left fun hsame => ?_
    rw [Nat.cast_inj.1 hsame]
  · have hv : normalSignificand * 2 ^ t ≤ v := hnormal.resolve_left hleast.ne'
    have hle := (hr.distance_le (normalSignificand : ℕ)).1
    have hnear : |v - r * 2 ^ t| < |v - x.magnitude| := by
      calc |v - r * 2 ^ t| ≤ |v - normalSignificand * 2 ^ t| := by
            rw [hscale, hscale]
            exact mul_le_mul_of_nonneg_right hle hpos.le
        _ < |v - x.magnitude| := by
          rw [abs_of_nonneg (by linarith), abs_of_nonneg (by linarith)]
          linarith
    exact ⟨hnear.le, fun heq => absurd heq hnear.ne⟩

end Exact

/-- Half a place above the largest number; what is not below it counts as infinite. -/
def overflow : ℚ := ((2 * normalSignificand : ℕ) - 1 / 2) * 2 ^ (971 : ℤ)

/-- `x` is nearest to `v` among all numbers, if they had no largest exponent, and of two equally near ones
it has the even significand. It has a larger exponent than numbers have exactly if `v` overflows. -/
structure Exact.Rounds (x : Exact) (v : ℚ) : Prop where
  canonical : x.Canonical
  nearest : ∀ y : Exact, y.Canonical → |v - x.magnitude| ≤ |v - y.magnitude|
  even_of_tie : ∀ y : Exact, y.Canonical → |v - x.magnitude| = |v - y.magnitude| →
    y.magnitude = x.magnitude ∨ Even x.significand
  exponent_le_iff : x.exponent ≤ 971 ↔ v < overflow

/-- What comes out when `v` is rounded with a sign, before it is packed. -/
def Rounded (negative : Bool) (v : ℚ) (u : UnpackedFloat) : Prop :=
  ∃ x, Exact.ofUnpacked? u = some x ∧ x.negative = negative ∧ x.Rounds v

section Rounding

variable {s : Sign} {m : ℕ} {e : ℤ} {accuracy : Accuracy} {v : ℚ}

theorem mantissa_shiftRight (em : ExtendedMantissa) (k : ℕ) :
    (em >>> k).mantissa = em.mantissa / 2 ^ k := by
  induction k with
  | zero => exact (Nat.div_one _).symm
  | succ k ih =>
    have hnext : (em >>> (k + 1)).mantissa = (em >>> k).mantissa / 2 := rfl
    rw [hnext, ih, Nat.div_div_eq_div_mul, Nat.pow_succ]

theorem roundedMantissa_bounds (em : ExtendedMantissa) :
    em.mantissa ≤ em.roundedMantissa ∧ em.roundedMantissa ≤ em.mantissa + 1 := by
  obtain ⟨mantissa, roundBit, stickyBit⟩ := em
  cases roundBit <;> cases stickyBit
  · exact ⟨Nat.le_refl _, Nat.le_succ _⟩
  · exact ⟨Nat.le_refl _, Nat.le_succ _⟩
  · have hrounded : ExtendedMantissa.roundedMantissa ⟨mantissa, true, false⟩ =
        mantissa + mantissa % 2 := rfl
    rw [hrounded]
    dsimp only
    omega
  · exact ⟨Nat.le_succ _, Nat.le_refl _⟩

theorem targetExponent_eq (m : ℕ) (e : ℤ) :
    Format.binary64.targetExponent (totalExponent m e) = max (m.log2 + e - 52) leastExponent := by
  have hleast : Format.binary64.minExponent = leastExponent := by decide
  have hbits : Format.binary64.mantissaBits = 53 := rfl
  rw [Format.targetExponent, totalExponent, hleast, hbits]
  congr 1
  push_cast
  ring

/-- A rounded significand has at most one bit too many, and can do without it then. -/
theorem shiftToTargetExponent_rounded {r : ℕ} {t : ℤ} (hr : r ≤ 2 * normalSignificand)
    (ht : leastExponent ≤ t) :
    ((shiftToTargetExponent Format.binary64 r t .exact).1.mantissa,
        (shiftToTargetExponent Format.binary64 r t .exact).2) =
      if r = 2 * normalSignificand then (normalSignificand, t + 1) else (r, t) := by
  rw [shiftToTargetExponent, targetExponent_eq, shiftToExponent]
  dsimp only
  rw [mantissa_shiftRight]
  split_ifs with htop
  · subst htop
    have hlog : (2 * normalSignificand).log2 = 53 := by decide +kernel
    rw [hlog]
    have hmove : (max (((53 : ℕ) : ℤ) + t - 52) leastExponent - t).toNat = 1 := by omega
    rw [hmove]
    rfl
  · have hlog : r.log2 ≤ 52 := by
      by_cases hzero : r = 0
      · rw [hzero]
        decide
      · have hlt : r < 2 * normalSignificand := Nat.lt_of_le_of_ne hr htop
        exact Nat.le_of_lt_succ ((Nat.log2_lt hzero).2 hlt)
    have hstay : (max ((r.log2 : ℤ) + t - 52) leastExponent - t).toNat = 0 := by omega
    rw [hstay]
    simp [ExtendedMantissa.ofMantissaAndAccuracy]

theorem mantissa_ofMantissaAndAccuracy :
    (ExtendedMantissa.ofMantissaAndAccuracy m accuracy).mantissa = m := by
  cases accuracy with
  | exact => rfl
  | inexact o => cases o <;> rfl

theorem two_le_double_normalSignificand : (2 : ℚ) ≤ (2 * normalSignificand : ℕ) := by
  norm_num [normalSignificand]

section Overflow

variable {r : ℕ} {t : ℤ}

theorem lt_overflow_of_lt (hr : IsNearest (v / 2 ^ t) r) (htop : r ≤ 2 * normalSignificand)
    (hlt : t < 971) : v < overflow := by
  have hpos : (0 : ℚ) < 2 ^ t := by positivity
  have hnear := (abs_le.1 hr.near).2
  have htop' : (r : ℚ) ≤ (2 * normalSignificand : ℕ) := by exact_mod_cast htop
  have hlarge := two_le_double_normalSignificand
  have hpower : (2 : ℚ) ^ t ≤ 2 ^ (971 - 1 : ℤ) := zpow_le_zpow_right₀ (by norm_num) (by omega)
  rw [zpow_sub_one₀ (by norm_num)] at hpower
  calc v = v / 2 ^ t * 2 ^ t := (div_mul_cancel₀ v hpos.ne').symm
    _ ≤ ((2 * normalSignificand : ℕ) + 1 / 2) * 2 ^ t :=
      mul_le_mul_of_nonneg_right (by linarith) hpos.le
    _ ≤ ((2 * normalSignificand : ℕ) + 1 / 2) * (2 ^ (971 : ℤ) * 2⁻¹) :=
      mul_le_mul_of_nonneg_left hpower (by positivity)
    _ = ((2 * normalSignificand : ℕ) + 1 / 2) / 2 * 2 ^ (971 : ℤ) := by ring
    _ < overflow := mul_lt_mul_of_pos_right (by linarith) (by positivity)

theorem overflow_le_of_lt (hv : normalSignificand * 2 ^ t ≤ v) (hlt : 971 < t) : overflow ≤ v := by
  have hpower : (2 : ℚ) ^ (971 + 1 : ℤ) ≤ 2 ^ t := zpow_le_zpow_right₀ (by norm_num) (by omega)
  rw [zpow_add_one₀ (by norm_num)] at hpower
  calc overflow ≤ (2 * normalSignificand : ℕ) * 2 ^ (971 : ℤ) :=
        mul_le_mul_of_nonneg_right (by linarith) (by positivity)
    _ = normalSignificand * (2 ^ (971 : ℤ) * 2) := by
      rw [Nat.cast_mul, Nat.cast_two, mul_comm 2, mul_assoc, mul_comm 2]
    _ ≤ normalSignificand * 2 ^ t := mul_le_mul_of_nonneg_left hpower (by positivity)
    _ ≤ v := hv

/-- With the largest exponent, only a significand with a bit too many overflows. -/
theorem lt_overflow_iff_ne (hr : IsNearest (v / 2 ^ (971 : ℤ)) r) (htop : r ≤ 2 * normalSignificand) :
    v < overflow ↔ r ≠ 2 * normalSignificand := by
  rw [overflow, ← div_lt_iff₀ (by positivity)]
  generalize v / 2 ^ (971 : ℤ) = q at hr
  have hnear := abs_le.1 hr.near
  constructor
  · rintro hlt rfl
    linarith
  · intro hne
    have hless : (r : ℚ) + 1 ≤ (2 * normalSignificand : ℕ) := by
      exact_mod_cast Nat.lt_of_le_of_ne htop hne
    refine lt_of_le_of_ne (by linarith) fun htie => hne ?_
    -- the number below the tie is odd, so the tie goes to the one above
    have hsub : q = (2 * normalSignificand - 1 : ℕ) + 1 / 2 := by
      rw [htie, Nat.cast_sub (by decide)]
      ring
    have htop' : IsNearest q (2 * normalSignificand) := by
      rw [hsub]
      exact isNearest_above (by norm_num) (.inr ⟨rfl, by decide⟩)
    exact hr.unique htop'

/-- Whether a rounded significand overflows can be told from the value. -/
theorem exponent_le_iff_lt_overflow (hr : IsNearest (v / 2 ^ t) r) (htop : r ≤ 2 * normalSignificand)
    (hnormal : t = leastExponent ∨ normalSignificand * 2 ^ t ≤ v) :
    (if r = 2 * normalSignificand then t + 1 else t) ≤ 971 ↔ v < overflow := by
  rcases lt_trichotomy t 971 with hlt | rfl | hgt
  · exact iff_of_true (by split_ifs <;> omega) (lt_overflow_of_lt hr htop hlt)
  · rw [lt_overflow_iff_ne hr htop]
    split_ifs with heq
    · exact iff_of_false (by decide) (not_not.2 heq)
    · exact iff_of_true (le_refl _) heq
  · have hbig : normalSignificand * 2 ^ t ≤ v := by
      refine hnormal.resolve_left fun hleast => ?_
      rw [hleast, leastExponent] at hgt
      omega
    exact iff_of_false (by split_ifs <;> omega) (not_lt.2 (overflow_le_of_lt hbig hgt))

end Overflow

/-- A significand that is rounded at an exponent, where one that needs a bit more gives up its last. -/
theorem rounds_of_isNearest {r : ℕ} {t : ℤ} (negative : Bool) (hr : IsNearest (v / 2 ^ t) r)
    (htop : r ≤ 2 * normalSignificand) (ht : leastExponent ≤ t)
    (hnormal : t = leastExponent ∨ normalSignificand * 2 ^ t ≤ v) :
    Exact.Rounds (if r = 2 * normalSignificand then ⟨negative, normalSignificand, t + 1⟩
      else ⟨negative, r, t⟩) v := by
  have hexponent := exponent_le_iff_lt_overflow hr htop hnormal
  have hpos : (0 : ℚ) < 2 ^ t := by positivity
  split_ifs at hexponent ⊢ with heq
  · have hsame : Exact.magnitude ⟨negative, normalSignificand, t + 1⟩ = r * 2 ^ t := by
      rw [Exact.magnitude, heq, zpow_add_one₀ (by norm_num), Nat.cast_mul, Nat.cast_two]
      ring
    exact {
      canonical := ⟨by dsimp only; decide, by dsimp only; omega, .inr (le_refl _)⟩
      nearest := fun y hy => hsame ▸ (hy.distance_le hr hnormal).1
      even_of_tie := fun _ _ _ => .inr (by dsimp only; decide)
      exponent_le_iff := hexponent }
  · have hcanonical : Exact.Canonical ⟨negative, r, t⟩ := by
      refine ⟨lt_of_le_of_ne htop heq, ht, hnormal.imp_right fun hv => ?_⟩
      have hscaled : (normalSignificand : ℚ) ≤ v / 2 ^ t := (le_div_iff₀ hpos).2 hv
      have hhigh := (abs_le.1 hr.near).2
      by_contra hlt
      have hless : (r : ℚ) + 1 ≤ normalSignificand := by exact_mod_cast not_le.1 hlt
      linarith
    exact {
      canonical := hcanonical
      nearest := fun y hy => (hy.distance_le hr hnormal).1
      even_of_tie := fun y hy => (hy.distance_le hr hnormal).2
      exponent_le_iff := hexponent }

theorem ofUnpacked?_dite {n : ℕ} {t : ℤ} (hzero : n = 0 → t = leastExponent) :
    Exact.ofUnpacked? (if h : n = 0 then .zero s else .finite s n t (Nat.pos_of_ne_zero h)) =
      some ⟨isMinus s, n, t⟩ := by
  split_ifs with h
  · rw [Exact.ofUnpacked?, h, hzero h]
  · rfl

/-- With enough bits to begin with, a significand is cut off where all numbers near the value are integers. -/
theorem exists_isNearest_shiftToTargetExponent
    (h : Truncates (.ofMantissaAndAccuracy m accuracy) e v)
    (hm : normalSignificand ≤ m ∨ e ≤ leastExponent) :
    ∃ em t, shiftToTargetExponent Format.binary64 m e accuracy = (em, t) ∧
      IsNearest (v / 2 ^ t) em.roundedMantissa ∧ em.roundedMantissa ≤ 2 * normalSignificand ∧
      leastExponent ≤ t ∧ (t = leastExponent ∨ normalSignificand * 2 ^ t ≤ v) := by
  obtain ⟨k, hk⟩ : ∃ k, k = (Format.binary64.targetExponent (totalExponent m e) - e).toNat := ⟨_, rfl⟩
  have hshift : shiftToTargetExponent Format.binary64 m e accuracy =
      (ExtendedMantissa.ofMantissaAndAccuracy m accuracy >>> k, e + k) := by
    rw [hk]
    rfl
  have hcut := h.shiftRight k
  have hmantissa : (ExtendedMantissa.ofMantissaAndAccuracy m accuracy >>> k).mantissa = m / 2 ^ k := by
    rw [mantissa_shiftRight, mantissa_ofMantissaAndAccuracy]
  have hbits : normalSignificand ≤ m → 52 ≤ m.log2 := fun hle =>
    (Nat.le_log2 (by rintro rfl; exact absurd hle (by decide))).2 hle
  rw [targetExponent_eq] at hk
  refine ⟨_, _, hshift, hcut.isNearest, ?_, by omega, ?_⟩
  · have hlt : m / 2 ^ k < 2 * normalSignificand := by
      rw [Nat.div_lt_iff_lt_mul (Nat.two_pow_pos k)]
      calc m < 2 ^ (m.log2 + 1) := Nat.lt_log2_self
        _ ≤ 2 ^ (53 + k) := Nat.pow_le_pow_right (by decide) (by omega)
        _ = 2 * normalSignificand * 2 ^ k := Nat.pow_add 2 53 k
    rw [← hmantissa] at hlt
    exact le_trans (roundedMantissa_bounds _).2 hlt
  · rcases eq_or_ne (e + k) leastExponent with hleast | hnormal
    · exact .inl hleast
    · have hlog : 52 + k ≤ m.log2 := by omega
      have hge : normalSignificand ≤ m / 2 ^ k := by
        rw [Nat.le_div_iff_mul_le (Nat.two_pow_pos k)]
        calc normalSignificand * 2 ^ k = 2 ^ (52 + k) := (Nat.pow_add 2 52 k).symm
          _ ≤ 2 ^ m.log2 := Nat.pow_le_pow_right (by decide) hlog
          _ ≤ m := Nat.log2_self_le (by rintro rfl; simp at hlog)
      rw [← hmantissa] at hge
      exact .inr (le_trans (mul_le_mul_of_nonneg_right (by exact_mod_cast hge) (by positivity)) hcut.le)

theorem rounded_roundWithAccuracy (s : Sign) (h : Truncates (.ofMantissaAndAccuracy m accuracy) e v)
    (hm : normalSignificand ≤ m ∨ e ≤ leastExponent) :
    Rounded (isMinus s) v (roundWithAccuracy Format.binary64 s m e accuracy) := by
  obtain ⟨em, t, hshift, hnear, htop, hleast, hnormal⟩ := exists_isNearest_shiftToTargetExponent h hm
  have hrounds := rounds_of_isNearest (isMinus s) hnear htop hleast hnormal
  have hagain := shiftToTargetExponent_rounded htop hleast
  rw [roundWithAccuracy, hshift]
  dsimp only
  generalize shiftToTargetExponent Format.binary64 em.roundedMantissa t .exact = final at hagain ⊢
  have hfinal : (⟨isMinus s, final.1.mantissa, final.2⟩ : Exact) =
      if em.roundedMantissa = 2 * normalSignificand then ⟨isMinus s, normalSignificand, t + 1⟩
      else ⟨isMinus s, em.roundedMantissa, t⟩ := by
    split_ifs at hagain ⊢ <;> rw [(Prod.mk.inj hagain).1, (Prod.mk.inj hagain).2]
  rw [← hfinal] at hrounds
  refine ⟨_, ofUnpacked?_dite fun hzero => hrounds.canonical.normal.resolve_right ?_, rfl, hrounds⟩
  dsimp only
  rw [hzero]
  decide

end Rounding

section Packing

theorem ofUnpacked?_unpack_packComponents (s : Sign) (exponent : BitVec 11) (fraction : BitVec 52) :
    Exact.ofUnpacked? (unpack Format.binary64 (packComponents Format.binary64 s exponent fraction)) =
      Exact.ofComponents? (isMinus s) exponent.toNat fraction.toNat := by
  rw [ofUnpacked?_unpack, unpackSign_packComponents, unpackExponent_packComponents,
    unpackMantissa_packComponents, Sign.ofBitVec_toBitVec]

theorem pack_of_large (s : Sign) {m : ℕ} {e : ℤ} (hm : 0 < m) (he : 971 < e) :
    pack Format.binary64 (.finite s m e hm) = packedInfinity Format.binary64 s := by
  have hbias : ((Format.binary64.exponentBias : ℕ) : ℤ) = 1023 := rfl
  have hlarge : 2 ^ 11 ≤ (e + Format.binary64.exponentBias + (52 : ℕ)).toNat + 1 := by
    rw [hbias]
    omega
  exact if_pos hlarge

theorem ofUnpacked?_unpack_pack_finite (s : Sign) {m : ℕ} {e : ℤ} (hm : 0 < m)
    (hx : Exact.Canonical ⟨isMinus s, m, e⟩) (he : e ≤ 971) :
    Exact.ofUnpacked? (unpack Format.binary64 (pack Format.binary64 (.finite s m e hm))) =
      some ⟨isMinus s, m, e⟩ := by
  have hbias : ((Format.binary64.exponentBias : ℕ) : ℤ) = 1023 := rfl
  obtain ⟨hlt, hleast, hnormal⟩ := hx
  dsimp only [normalSignificand, leastExponent] at hlt hleast hnormal
  rw [pack]
  dsimp only
  rw [hbias, if_neg (by omega)]
  split_ifs with hlog
  · have hge : normalSignificand ≤ m := by
      have hpower := Nat.log2_self_le hm.ne'
      rwa [Nat.succ.inj hlog] at hpower
    rw [ofUnpacked?_unpack_packComponents, BitVec.toNat_ofNat, BitVec.toNat_ofNat, Exact.ofComponents?,
      if_neg (by omega), if_neg (by omega)]
    dsimp only [normalSignificand, leastExponent] at hge ⊢
    congr 2 <;> omega
  · have hless : m < normalSignificand := by
      by_contra hge
      have hlow := (Nat.le_log2 (k := 52) hm.ne').2 (not_lt.1 hge)
      have hhigh := (Nat.log2_lt (k := 53) hm.ne').2 hlt
      exact hlog (show m.log2 + 1 = 53 by omega)
    have hexponent : e = leastExponent := hnormal.resolve_right (not_le.2 hless)
    have hfraction : (BitVec.ofNat 52 m).toNat = m := Nat.mod_eq_of_lt hless
    rw [ofUnpacked?_unpack_packComponents, hfraction, hexponent]
    rfl

/-- Canonical parts that fit into the format are not changed by it. -/
theorem ofUnpacked?_unpack_pack {u : UnpackedFloat} {x : Exact} (hu : Exact.ofUnpacked? u = some x)
    (hx : x.Canonical) (he : x.exponent ≤ 971) :
    Exact.ofUnpacked? (unpack Format.binary64 (pack Format.binary64 u)) = some x := by
  cases u with
  | infinity s => cases hu
  | notANumber => cases hu
  | zero s =>
    cases hu
    exact ofUnpacked?_unpack_packComponents s 0 0
  | finite s m e hm =>
    cases hu
    exact ofUnpacked?_unpack_pack_finite s hm hx he

end Packing

def infinity (negative : Bool) : Float := if negative then -(1 / 0) else 1 / 0

theorem infinity_isMinus (s : Sign) : infinity (isMinus s) = .ofModel (.pack (.infinity s)) := by
  cases s <;> rfl

/-- `x` is the number that `v` is rounded to: if it does not overflow, one that is as near as any other, and
of two equally near ones the one with the even significand. -/
structure RoundsTo (negative : Bool) (v : ℚ) (x : Float) : Prop where
  finite : v < overflow → ∃ e, exactOf? x = some e ∧ e.negative = negative ∧
    ∀ y f, exactOf? y = some f → |v - e.magnitude| ≤ |v - f.magnitude| ∧
      (|v - e.magnitude| = |v - f.magnitude| → f.magnitude = e.magnitude ∨ Even e.significand)
  infinite : overflow ≤ v → x = infinity negative

theorem Exact.Rounds.roundsTo {x : Float} {e : Exact} {v : ℚ} (he : e.Rounds v)
    (hx : v < overflow → exactOf? x = some e) (hlarge : overflow ≤ v → x = infinity e.negative) :
    RoundsTo e.negative v x where
  finite hv := by
    refine ⟨e, hx hv, rfl, fun y f hy => ?_⟩
    have hcanonical := (canonical_of_exactOf? hy).1
    exact ⟨he.nearest f hcanonical, he.even_of_tie f hcanonical⟩
  infinite := hlarge

theorem Exact.Rounds.exactOf?_pack {x : Exact} {v : ℚ} (hx : x.Rounds v) {u : UnpackedFloat}
    (hu : Exact.ofUnpacked? u = some x) (hv : v < overflow) :
    exactOf? (.ofModel (.pack u)) = some x := by
  rw [exactOf?_eq]
  exact ofUnpacked?_unpack_pack hu hx.canonical (hx.exponent_le_iff.2 hv)

theorem Rounded.pack {negative : Bool} {v : ℚ} {u : UnpackedFloat} (h : Rounded negative v u) :
    RoundsTo negative v (.ofModel (.pack u)) := by
  obtain ⟨x, hu, rfl, hx⟩ := h
  refine hx.roundsTo (hx.exactOf?_pack hu) fun hv => ?_
  have hexponent : 971 < x.exponent := not_le.1 (mt hx.exponent_le_iff.1 (not_lt.2 hv))
  cases u with
  | infinity s => cases hu
  | notANumber => cases hu
  | zero s =>
    cases hu
    exact absurd hexponent (by dsimp only; decide)
  | finite s m e hm =>
    cases hu
    have hpack : UnpackedFloat.pack Format.binary64 (.finite s m e hm) =
        UnpackedFloat.pack Format.binary64 (.infinity s) := pack_of_large s hm hexponent
    rw [infinity_isMinus, Float.Model.pack]
    simp only [hpack]
    rfl

end ContentWeave.Number
