import ContentWeave.Format.Grouping
import ContentWeave.Proofs.Number.FixedPoint
import ContentWeave.Proofs.Number.Floats

/-!
# Digits in groups

A number is shown by the digits of its fixed-point numeral, all of them and in their order. The
digits before the point stand in groups of three, with what is over in front, and a minus sign is
shown only with a digit that is not zero.
-/

namespace ContentWeave.Format

open Number (Exact FixedDigits exactOf? isDigit)

/-- Groups of digits, from the left: the first of one to three, all others of three. -/
structure Cut (digits lead : Text) (thousands : List Text) : Prop where
  lead_ne_nil : lead ≠ []
  length_lead : lead.length ≤ 3
  length_of_mem : ∀ group ∈ thousands, group.length = 3
  eq_digits : lead ++ thousands.flatten = digits

/-- The digits that a number is shown by, in groups. -/
structure Figure (decimals : ℕ) where
  whole : Text
  fraction : Text
  lead : Text
  thousands : List Text
  cut : Cut whole lead thousands
  length_fraction : fraction.length = decimals
  isDigit_of_mem : ∀ c ∈ whole ++ fraction, isDigit c = true

namespace Figure

variable {decimals : ℕ} (f : Figure decimals)

def write (minus : Bool) (settings : Settings) : Text :=
  (if minus then ['-'] else []) ++
    Text.joinWith settings.thousandSeparator (f.lead :: f.thousands) ++
    (if decimals = 0 then [] else settings.decimalSeparator ++ f.fraction)

end Figure

theorem groupsOfReversed_eq (s : Text) (hs : s ≠ []) :
    ∃ lead thousands, groupsOfReversed s = List.reverse thousands ++ [lead] ∧
      Cut s.reverse lead thousands := by
  induction s using groupsOfReversed.induct with
  | case1 a b c d rest ih =>
    obtain ⟨lead, thousands, hgroups, hcut⟩ := ih (List.cons_ne_nil d rest)
    refine ⟨lead, thousands ++ [[c, b, a]], ?_, hcut.lead_ne_nil, hcut.length_lead, ?_, ?_⟩
    · rw [groupsOfReversed, hgroups, List.reverse_append]
      rfl
    · intro group hmem
      rcases List.mem_append.1 hmem with hmem | hmem
      · exact hcut.length_of_mem group hmem
      · rw [List.mem_singleton.1 hmem]
        rfl
    · rw [List.flatten_append, ← List.append_assoc, hcut.eq_digits]
      simp
  | case2 s hshort =>
    have hthree : s.length ≤ 3 := by
      match s, hshort with
      | [], _ | [_], _ | [_, _], _ | [_, _, _], _ => simp
      | a :: b :: c :: d :: rest, hshort => exact absurd rfl (hshort a b c d rest)
    refine ⟨s.reverse, [], ?_, ?_, ?_, ?_, ?_⟩
    · simp [groupsOfReversed]
    · simpa using hs
    · simpa using hthree
    · simp
    · simp

theorem groups_eq_cons (s : Text) (hs : s ≠ []) :
    ∃ lead thousands, groups s = lead :: thousands ∧ Cut s lead thousands := by
  obtain ⟨lead, thousands, hgroups, hcut⟩ := groupsOfReversed_eq s.reverse (by simpa using hs)
  refine ⟨lead, thousands, ?_, ?_⟩
  · rw [groups, hgroups]
    simp
  · rwa [List.reverse_reverse] at hcut

section Shown

variable {e : Exact} {d : FixedDigits} {decimals : ℕ}

/-- The figure of a number depends on neither its sign nor the settings. -/
theorem exists_figure (hd : e.Fixed decimals d) :
    ∃ f : Figure decimals, f.whole = d.whole ∧ f.fraction = d.fraction ∧
      ∀ negative settings, groupedExact { e with negative } decimals settings =
        f.write (negative && d.digits.any (· != '0')) settings := by
  obtain ⟨lead, thousands, hgroups, hcut⟩ := groups_eq_cons d.whole hd.whole_ne_nil
  refine ⟨⟨d.whole, d.fraction, lead, thousands, hcut, hd.length_fraction, hd.isDigit_of_mem⟩,
    rfl, rfl, fun negative settings => ?_⟩
  have hdigits : ({ e with negative } : Exact).fixedDigits decimals = d :=
    (Number.Exact.fixed_iff.1 hd).symm
  have hfraction : d.fraction.isEmpty = true ↔ decimals = 0 := by
    rw [List.isEmpty_iff, ← List.length_eq_zero_iff, hd.length_fraction]
  rw [groupedExact, hdigits, hgroups, Figure.write]
  simp only [hfraction]

theorem minus_eq {y : Float} (hy : exactOf? y = some e)
    (hzero : e.significand = 0 → ∀ c ∈ d.digits, c = '0') :
    (e.negative && d.digits.any (· != '0')) = decide (y < 0 ∧ ∃ c ∈ d.digits, c ≠ '0') := by
  rw [Bool.eq_iff_iff, decide_eq_true_iff, Number.lt_zero_iff hy]
  simp only [Bool.and_eq_true, List.any_eq_true, bne_iff_ne, ne_eq]
  constructor
  · rintro ⟨hnegative, c, hc, hdigit⟩
    exact ⟨⟨hnegative, fun h => hdigit (hzero h c hc)⟩, c, hc, hdigit⟩
  · rintro ⟨⟨hnegative, -⟩, hdigit⟩
    exact ⟨hnegative, hdigit⟩

theorem exactOf?_of_eq_or_neg {x y : Float} (hx : exactOf? x = some e) (hy : y = x ∨ y = -x) :
    ∃ negative, exactOf? y = some { e with negative } := by
  rcases hy with rfl | rfl
  · exact ⟨e.negative, hx⟩
  · exact ⟨!e.negative, Number.exactOf?_neg hx⟩

theorem exists_figure_grouped {x : Float} (hx : exactOf? x = some e) (hd : e.Fixed decimals d) :
    ∃ f : Figure decimals, f.whole = d.whole ∧ f.fraction = d.fraction ∧
      ∀ y settings, y = x ∨ y = -x → grouped y decimals settings =
        f.write (decide (y < 0 ∧ ∃ c ∈ d.digits, c ≠ '0')) settings := by
  obtain ⟨f, hwhole, hfraction, hwrite⟩ := exists_figure hd
  refine ⟨f, hwhole, hfraction, fun y settings hy => ?_⟩
  obtain ⟨negative, hexact⟩ := exactOf?_of_eq_or_neg hx hy
  rw [grouped, hexact, ← minus_eq hexact fun hzero c hc => hd.eq_zero hzero hc]
  exact hwrite negative settings

theorem exists_figure_groupedWhole {x : Float} (hx : exactOf? x = some e) :
    ∃ f : Figure 0, f.whole = Text.ofNat ⌊e.magnitude⌋₊ ∧
      ∀ y settings, y = x ∨ y = -x → groupedWhole y settings =
        f.write (decide (y < 0 ∧ ∃ c ∈ f.whole, c ≠ '0')) settings := by
  obtain ⟨f, hwhole, hfraction, hwrite⟩ := exists_figure e.fixed_truncate
  refine ⟨f, hwhole, fun y settings hy => ?_⟩
  obtain ⟨negative, hexact⟩ := exactOf?_of_eq_or_neg hx hy
  have hdigits : f.whole = (⟨Text.ofNat ⌊e.magnitude⌋₊, []⟩ : FixedDigits).digits := by
    rw [hwhole, FixedDigits.digits, List.append_nil]
  rw [groupedWhole, hexact, hdigits, ← minus_eq hexact]
  · exact hwrite negative settings
  · exact fun hzero c hc => e.fixed_truncate.eq_zero (Exact.significand_truncate hzero) hc

end Shown

/-- A finite number and its negative are shown by the digits of one fixed-point numeral, and by a
sign only if one of these digits is not zero; and so are their whole parts. -/
theorem grouping_keeps_digits (x : Float) (hx : x.isFinite = true) (decimals : ℕ) :
    ∃ e d, exactOf? x = some e ∧ (∀ d', e.Fixed decimals d' ↔ d' = d) ∧
      (∃ f : Figure decimals, f.whole = d.whole ∧ f.fraction = d.fraction ∧
        ∀ y settings, y = x ∨ y = -x → grouped y decimals settings =
          f.write (decide (y < 0 ∧ ∃ c ∈ d.digits, c ≠ '0')) settings) ∧
      ∃ f : Figure 0, f.whole = Text.ofNat ⌊e.magnitude⌋₊ ∧
        ∀ y settings, y = x ∨ y = -x → groupedWhole y settings =
          f.write (decide (y < 0 ∧ ∃ c ∈ f.whole, c ≠ '0')) settings := by
  obtain ⟨e, he⟩ := (Number.isFinite_iff x).1 hx
  refine ⟨e, e.fixedDigits decimals, he, fun d' => Number.Exact.fixed_iff, ?_, ?_⟩
  · exact exists_figure_grouped he (e.fixed_fixedDigits decimals)
  · exact exists_figure_groupedWhole he

theorem grouping_keeps_digits_million :
    (-1234567.875 : Float).isFinite = true ∧
      ∃ e d, exactOf? (-1234567.875) = some e ∧ (∀ d', e.Fixed 2 d' ↔ d' = d) ∧
        (∃ f : Figure 2, f.whole = d.whole ∧ f.fraction = d.fraction ∧
          ∀ y settings, y = -1234567.875 ∨ y = - -1234567.875 → grouped y 2 settings =
            f.write (decide (y < 0 ∧ ∃ c ∈ d.digits, c ≠ '0')) settings) ∧
        ∃ f : Figure 0, f.whole = Text.ofNat ⌊e.magnitude⌋₊ ∧
          ∀ y settings, y = -1234567.875 ∨ y = - -1234567.875 → groupedWhole y settings =
            f.write (decide (y < 0 ∧ ∃ c ∈ f.whole, c ≠ '0')) settings := by
  have hfinite : (-1234567.875 : Float).isFinite = true := by decide +kernel
  exact ⟨hfinite, grouping_keeps_digits (-1234567.875) hfinite 2⟩

example : grouped (-1234567.875) 2 {} = "-1,234,567.88".toList := by decide +kernel

example : grouped (-0.004) 2 {} = "0.00".toList := by decide +kernel

end ContentWeave.Format
