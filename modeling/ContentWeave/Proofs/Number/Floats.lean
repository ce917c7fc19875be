import ContentWeave.Number.Exact
import Mathlib

/-!
# Numbers by their parts

A number is unpacked into a sign, a significand and an exponent. The exact value of a number is what
it unpacks to, so what is known of unpacked numbers, their order, their negatives and their products,
is known of exact values.
-/

namespace ContentWeave.Number

open Float.Model (UnpackedFloat Format)
open Float.Model.UnpackedFloat (Accuracy Sign isNaNBits mul pack packComponents packedInfinity
  packedZero pack_unpack roundWithAccuracy unpack unpackExponent unpackExponent_packComponents
  unpackMantissa unpackMantissa_packComponents unpackSign unpackSign_def unpackSign_packComponents)

def isMinus : Sign → Bool
  | .negative => true
  | .positive => false

def Exact.ofUnpacked? : UnpackedFloat → Option Exact
  | .zero s => some ⟨isMinus s, 0, leastExponent⟩
  | .finite s m e _ => some ⟨isMinus s, m, e⟩
  | .infinity _ | .notANumber => none

def Exact.ofComponents? (negative : Bool) (biased fraction : ℕ) : Option Exact :=
  if biased = 2047 then none
  else if biased = 0 then some ⟨negative, fraction, leastExponent⟩
  else some ⟨negative, normalSignificand + fraction, leastExponent + (biased - 1 : ℕ)⟩

section Bits

variable (b : BitVec Format.binary64.numBits)

theorem toNat_unpackExponent : (unpackExponent b).toNat = b.toNat / normalSignificand % 2048 := by
  simp [unpackExponent, BitVec.extractLsb_toNat, Nat.shiftRight_eq_div_pow, normalSignificand]

theorem toNat_unpackMantissa : (unpackMantissa b).toNat = b.toNat % normalSignificand := by
  simp [unpackMantissa, BitVec.extractLsb_toNat, normalSignificand]

theorem isMinus_unpackSign :
    isMinus (Sign.ofBitVec (unpackSign b)) = decide (0x8000000000000000 ≤ b.toNat) := by
  have hlt : b.toNat < 2 ^ 64 := b.isLt
  have hsign : (unpackSign b).toNat = b.toNat / 2 ^ 63 := by
    simp [unpackSign_def, Nat.shiftRight_eq_div_pow]
    omega
  by_cases hb : 0x8000000000000000 ≤ b.toNat
  · have hone : unpackSign b = 1#1 := by
      apply BitVec.eq_of_toNat_eq
      rw [hsign, BitVec.toNat_ofNat]
      omega
    rw [hone, decide_eq_true hb]
    rfl
  · have hzero : unpackSign b = 0#1 := by
      apply BitVec.eq_of_toNat_eq
      rw [hsign, BitVec.toNat_ofNat]
      omega
    rw [hzero, decide_eq_false hb]
    rfl

theorem implicit_toNat (m : BitVec 52) : (1#1 ++ m).toNat = normalSignificand + m.toNat := by
  have hlt := m.isLt
  rw [BitVec.toNat_append, ← Nat.shiftLeft_add_eq_or_of_lt hlt]
  rfl

theorem unpackExponent_eq_iff : unpackExponent b = -1#_ ↔ (unpackExponent b).toNat = 2047 := by
  rw [← BitVec.toNat_inj]
  simp

theorem ofUnpacked?_unpack :
    Exact.ofUnpacked? (unpack Format.binary64 b) =
      Exact.ofComponents? (isMinus (Sign.ofBitVec (unpackSign b))) (unpackExponent b).toNat
        (unpackMantissa b).toNat := by
  have hall := unpackExponent_eq_iff b
  have hnone : unpackExponent b = 0#_ ↔ (unpackExponent b).toNat = 0 := by
    rw [← BitVec.toNat_inj]
    simp
  have hwhole : unpackMantissa b = 0#_ ↔ (unpackMantissa b).toNat = 0 := by
    rw [← BitVec.toNat_inj]
    simp
  unfold unpack Exact.ofComponents?
  dsimp only
  simp only [hall, hnone, hwhole]
  split_ifs with hinfinite hfraction hleast hzero
  · rfl
  · rfl
  · rw [Exact.ofUnpacked?, hzero]
  · rw [Exact.ofUnpacked?, hleast]
    rfl
  · rw [Exact.ofUnpacked?, implicit_toNat]
    have hbias : ((Format.binary64.exponentBias : ℕ) : ℤ) = 1023 := rfl
    have hexponent : ((unpackExponent b).toNat : ℤ) -
        (Format.binary64.exponentBias + Format.binary64.mantissaBitsWithoutImplicit : ℤ) =
          leastExponent + ((unpackExponent b).toNat - 1 : ℕ) := by
      rw [hbias, leastExponent]
      push_cast
      omega
    rw [hexponent]

end Bits

theorem exactOf?_eq (x : Float) : exactOf? x = Exact.ofUnpacked? x.toModel.unpack := by
  rw [Float.Model.unpack, ofUnpacked?_unpack, toNat_unpackExponent, toNat_unpackMantissa,
    isMinus_unpackSign]
  rfl

theorem isFinite_iff (x : Float) : x.isFinite = true ↔ ∃ e, exactOf? x = some e := by
  rw [exactOf?_eq, Float.isFinite, Float.Model.isFinite]
  cases x.toModel.unpack <;> simp [Exact.ofUnpacked?, UnpackedFloat.isFinite]

theorem lt_zero_iff {x : Float} {e : Exact} (h : exactOf? x = some e) :
    x < 0 ↔ e.negative = true ∧ e.significand ≠ 0 := by
  rw [exactOf?_eq] at h
  have hzero : (0 : Float).toModel.unpack = .zero .positive := rfl
  change x.lt 0 = true ↔ _
  rw [Float.lt]
  change decide (x.toModel.lt (0 : Float).toModel = true) = true ↔ _
  rw [decide_eq_true_iff, Float.Model.lt, hzero]
  cases hu : x.toModel.unpack with
  | infinity s => rw [hu] at h; cases h
  | notANumber => rw [hu] at h; cases h
  | zero s =>
    rw [hu] at h
    cases h
    simp [UnpackedFloat.lt, UnpackedFloat.compare]
  | finite s m k hm =>
    rw [hu] at h
    cases h
    cases s <;> simp [UnpackedFloat.lt, UnpackedFloat.compare, isMinus, Nat.pos_iff_ne_zero.1 hm]

section Repacking

variable {spec : Format}

theorem isNaN_unpack (b : BitVec spec.numBits) : (unpack spec b).isNaN = isNaNBits b := by
  rw [isNaNBits, unpack]
  split_ifs with hall hzero hnone hzero <;>
    simp [UnpackedFloat.isNaN, Nat.ne_of_gt spec.he, *]

theorem unpack_packComponents_neg (b : BitVec spec.numBits) :
    unpack spec (packComponents spec (-Sign.ofBitVec (unpackSign b)) (unpackExponent b)
      (unpackMantissa b)) = (unpack spec b).neg := by
  unfold unpack
  simp only [unpackSign_packComponents, unpackExponent_packComponents,
    unpackMantissa_packComponents, Sign.ofBitVec_toBitVec]
  split_ifs <;> rfl

theorem unpack_pack_neg (b : BitVec spec.numBits) (hb : (unpack spec b).isNaN = false)
    (hspec : 2 ≤ spec.exponentBits) :
    unpack spec (pack spec (unpack spec b).neg) = (unpack spec b).neg := by
  rw [← unpack_packComponents_neg, pack_unpack _ hspec, if_neg]
  rw [isNaN_unpack, isNaNBits] at hb
  rw [isNaNBits, unpackExponent_packComponents, unpackMantissa_packComponents, hb]
  exact Bool.false_ne_true

end Repacking

def Exact.neg (e : Exact) : Exact := { e with negative := !e.negative }

theorem Exact.ofUnpacked?_neg (u : UnpackedFloat) :
    ofUnpacked? u.neg = (ofUnpacked? u).map Exact.neg := by
  rcases u with _ | (_ | _) | (_ | _) | (_ | _) <;> rfl

theorem exactOf?_neg {x : Float} {e : Exact} (h : exactOf? x = some e) :
    exactOf? (-x) = some e.neg := by
  rw [exactOf?_eq] at h
  have hnan : x.toModel.unpack.isNaN = false := by
    cases hu : x.toModel.unpack with
    | notANumber =>
      rw [hu] at h
      cases h
    | _ => rfl
  have hneg : (-x).toModel.unpack = x.toModel.unpack.neg := by
    have hbits : (-x).toModel.toBits.toBitVec = pack Format.binary64 x.toModel.unpack.neg := rfl
    rw [Float.Model.unpack] at hnan hbits
    rw [Float.Model.unpack, hbits, unpack_pack_neg _ hnan (by decide), Float.Model.unpack]
  rw [exactOf?_eq, hneg, Exact.ofUnpacked?_neg, h]
  rfl

theorem isNaN_unpack_pack {u : UnpackedFloat} (h : u.isNaN = false) :
    (unpack Format.binary64 (pack Format.binary64 u)).isNaN = false := by
  rw [isNaN_unpack, isNaNBits, decide_eq_false_iff_not]
  rintro ⟨hall, hfraction⟩
  unfold pack at hall hfraction
  cases u with
  | notANumber => cases h
  | infinity s => simp [packedInfinity] at hfraction
  | zero s => simp [packedZero] at hfraction
  | finite s m e hm =>
    dsimp only at hall hfraction
    split_ifs at hall hfraction with hlarge hnormal
    · simp [packedInfinity] at hfraction
    · rw [unpackExponent_eq_iff, unpackExponent_packComponents, BitVec.toNat_ofNat] at hall
      have hsmall : ¬ 2048 ≤ _ + 1 := hlarge
      change _ % 2048 = 2047 at hall
      omega
    · rw [unpackExponent_packComponents] at hall
      exact absurd hall (by decide)

theorem isNaN_roundWithAccuracy (s : Sign) (m : ℕ) (e : ℤ) (accuracy : Accuracy) :
    (roundWithAccuracy Format.binary64 s m e accuracy).isNaN = false := by
  unfold roundWithAccuracy
  dsimp only
  split_ifs <;> rfl

theorem isNaN_mul_unpacked {u v : UnpackedFloat} (hu : u.isFinite = true) (hv : v.isFinite = true) :
    (mul Format.binary64 u v).isNaN = false := by
  cases u with
  | infinity s => cases hu
  | notANumber => cases hu
  | zero s =>
    cases v with
    | infinity t => cases hv
    | notANumber => cases hv
    | zero t => rfl
    | finite t n k hn => rfl
  | finite s m e hm =>
    cases v with
    | infinity t => cases hv
    | notANumber => cases hv
    | zero t => rfl
    | finite t n k hn => exact isNaN_roundWithAccuracy _ _ _ _

theorem isNaN_mul {x y : Float} (hx : x.isFinite = true) (hy : y.isFinite = true) :
    (x * y).isNaN = false :=
  isNaN_unpack_pack (isNaN_mul_unpacked hx hy)

end ContentWeave.Number
