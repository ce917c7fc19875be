import ContentWeave.Proofs.Format.Brackets
import ContentWeave.Proofs.Format.Grouping

/-!
# What the number formats show

A number format takes finite numbers only, and it shows one by its digits, with the decimals that it
is asked for. A percentage is a hundred times the number, and that can be too large for a number: it
is infinite then, and shown by its name.
-/

namespace ContentWeave.Format

open Number (exactOf? isDigit)

theorem grouped_of_isFinite {x : Float} (hx : x.isFinite = true) (decimals : ℕ)
    (settings : Settings) :
    ∃ (f : Figure decimals) (minus : Bool), grouped x decimals settings = f.write minus settings := by
  obtain ⟨e, he⟩ := (Number.isFinite_iff x).1 hx
  obtain ⟨f, -, -, hwrite⟩ := exists_figure_grouped he (e.fixed_fixedDigits decimals)
  exact ⟨f, _, hwrite x settings (.inl rfl)⟩

theorem groupedWhole_of_isFinite {x : Float} (hx : x.isFinite = true) (settings : Settings) :
    ∃ (f : Figure 0) (minus : Bool), groupedWhole x settings = f.write minus settings := by
  obtain ⟨e, he⟩ := (Number.isFinite_iff x).1 hx
  obtain ⟨f, -, hwrite⟩ := exists_figure_groupedWhole he
  exact ⟨f, _, hwrite x settings (.inl rfl)⟩

def infinities : List Text := ["inf".toList, "-inf".toList]

theorem grouped_of_not_isFinite {x : Float} (hx : x.isFinite = false) (hnan : x.isNaN = false)
    (decimals : ℕ) (settings : Settings) : grouped x decimals settings ∈ infinities := by
  have hnone : exactOf? x = none := by
    rw [Option.eq_none_iff_forall_ne_some]
    intro e he
    have hfinite := (Number.isFinite_iff x).2 ⟨e, he⟩
    rw [hx] at hfinite
    cases hfinite
  rw [grouped, hnone]
  dsimp only
  rw [Number.text, hnone]
  dsimp only
  rw [hnan]
  by_cases hneg : Number.isNegative x = true <;> simp [hneg, infinities]

namespace Figure

variable {decimals : ℕ} (f : Figure decimals)

theorem write_eq_cons (minus : Bool) (settings : Settings) :
    ∃ c s, f.write minus settings = (if minus then ['-'] else []) ++ c :: s ∧ isDigit c = true := by
  obtain ⟨c, lead, hlead⟩ := List.exists_cons_of_ne_nil f.cut.lead_ne_nil
  have hmem : c ∈ f.whole ++ f.fraction := by
    rw [← f.cut.eq_digits, hlead]
    simp
  have hjoin : Text.joinWith settings.thousandSeparator ((c :: lead) :: f.thousands) =
      c :: Text.joinWith settings.thousandSeparator (lead :: f.thousands) := by
    cases f.thousands <;> rfl
  rw [write, hlead, hjoin, List.append_assoc, List.cons_append]
  exact ⟨c, _, rfl, f.isDigit_of_mem c hmem⟩

theorem write_notMem_infinities (minus : Bool) (settings : Settings) :
    f.write minus settings ∉ infinities := by
  obtain ⟨c, s, hwrite, hdigit⟩ := f.write_eq_cons minus settings
  rw [hwrite]
  intro hmem
  cases minus with
  | false =>
    have hfirst : c = 'i' ∨ c = '-' := by
      rcases List.mem_pair.1 hmem with h | h
      · exact .inl (List.cons.inj h).1
      · exact .inr (List.cons.inj h).1
    rcases hfirst with rfl | rfl <;> cases hdigit
  | true =>
    have hfirst : c = 'i' := by
      rcases List.mem_pair.1 hmem with h | h
      · cases (List.cons.inj h).1
      · exact (List.cons.inj (List.cons.inj h).2).1
    subst hfirst
    cases hdigit

end Figure

namespace Builtin

def numberFormats : List Builtin := [integer, decimal, percent, currency]

/-- The number of decimals that a format is asked for. -/
def decimalsAsked (b : Builtin) (parameters : List Value) : Except Error ℕ :=
  match b with
  | decimal => (decimalsParameter b.name parameters[0]?).map (·.getD 2)
  | percent => (decimalsParameter b.name parameters[0]?).map (·.getD 0)
  | currency => (decimalsParameter b.name parameters[1]?).map (·.getD 2)
  | _ => .ok 0

/-- The number that a format shows for a number. -/
def shown (b : Builtin) (x : Float) : Float :=
  match b with
  | percent => x * 100
  | _ => x

/-- What a format puts around the number that it shows. -/
def around (b : Builtin) (settings : Settings) (parameters : List Value) (number : Text) : Text :=
  match b with
  | percent => number ++ ['%']
  | currency => currencyOf settings parameters[0]? ++ [' '] ++ number
  | _ => number

def numberText (b : Builtin) (settings : Settings) (x : Float) (decimals : ℕ) : Text :=
  match b with
  | integer => groupedWhole x settings
  | _ => grouped (b.shown x) decimals settings

variable {b : Builtin} {settings : Settings} {v : Value} {parameters : List Value} {t : Text}

theorem numberOf_eq_ok {format : Text} {x : Float} (h : numberOf format v = .ok x) :
    v.toNumber? = some x ∧ x.isFinite = true := by
  unfold numberOf at h
  split at h
  · split_ifs at h with hfinite
    cases h
    exact ⟨‹_›, hfinite⟩
  · cases h

theorem exists_numberText (hb : b ∈ numberFormats) (h : b.format settings v parameters = .ok t) :
    ∃ x decimals, v.toNumber? = some x ∧ x.isFinite = true ∧
      b.decimalsAsked parameters = .ok decimals ∧
      t = b.around settings parameters (b.numberText settings x decimals) := by
  simp only [numberFormats, List.mem_cons, List.not_mem_nil, or_false] at hb
  rcases hb with rfl | rfl | rfl | rfl
  · obtain ⟨x, hx, h⟩ := exists_of_bind_eq_ok h
    obtain ⟨hvalue, hfinite⟩ := numberOf_eq_ok hx
    cases h
    exact ⟨x, 0, hvalue, hfinite, rfl, rfl⟩
  all_goals
    obtain ⟨x, hx, h⟩ := exists_of_bind_eq_ok h
    obtain ⟨decimals, hdecimals, h⟩ := exists_of_bind_eq_ok h
    obtain ⟨hvalue, hfinite⟩ := numberOf_eq_ok hx
    cases h
    refine ⟨x, _, hvalue, hfinite, ?_, rfl⟩
    rw [decimalsAsked, hdecimals]
    rfl

theorem numberText_of_isFinite {x : Float} {decimals : ℕ} (hb : b ∈ numberFormats)
    (hdecimals : b.decimalsAsked parameters = .ok decimals) (hx : (b.shown x).isFinite = true) :
    ∃ (f : Figure decimals) (minus : Bool),
      b.numberText settings x decimals = f.write minus settings := by
  cases b with
  | integer =>
    cases hdecimals
    exact groupedWhole_of_isFinite hx settings
  | decimal => exact grouped_of_isFinite hx decimals settings
  | percent => exact grouped_of_isFinite hx decimals settings
  | currency => exact grouped_of_isFinite hx decimals settings
  | _ => simp [numberFormats] at hb

theorem numberText_of_not_isFinite {x : Float} (hx : x.isFinite = true)
    (hshown : (b.shown x).isFinite = false) (decimals : ℕ) :
    b.numberText settings x decimals ∈ infinities := by
  cases b with
  | percent =>
    have hnan : (x * 100).isNaN = false := Number.isNaN_mul hx (by decide +kernel)
    exact grouped_of_not_isFinite hshown hnan decimals settings
  | _ =>
    have hfinite : x.isFinite = false := hshown
    rw [hx] at hfinite
    cases hfinite

theorem numberText_mem_infinities_iff {x : Float} {decimals : ℕ} (hb : b ∈ numberFormats)
    (hx : x.isFinite = true) (hdecimals : b.decimalsAsked parameters = .ok decimals) :
    b.numberText settings x decimals ∈ infinities ↔ (b.shown x).isFinite = false := by
  constructor
  · intro hmem
    rw [← Bool.not_eq_true]
    intro hshown
    obtain ⟨f, minus, hf⟩ := numberText_of_isFinite hb hdecimals hshown
    rw [hf] at hmem
    exact f.write_notMem_infinities minus settings hmem
  · exact fun hshown => numberText_of_not_isFinite hx hshown decimals

theorem numberText_eq_write_iff {x : Float} {decimals : ℕ} (hb : b ∈ numberFormats)
    (hx : x.isFinite = true) (hdecimals : b.decimalsAsked parameters = .ok decimals) :
    (∃ (f : Figure decimals) (minus : Bool),
      b.numberText settings x decimals = f.write minus settings) ↔
        (b.shown x).isFinite = true := by
  constructor
  · rintro ⟨f, minus, hf⟩
    have hnumber := f.write_notMem_infinities minus settings
    rwa [← hf, numberText_mem_infinities_iff hb hx hdecimals, Bool.not_eq_false] at hnumber
  · exact numberText_of_isFinite hb hdecimals

theorem shown_isFinite_iff {x : Float} (hx : x.isFinite = true) :
    (b.shown x).isFinite = true ↔ (b = percent → (x * 100).isFinite = true) := by
  cases b <;> simp [shown, hx]

/-- A number format shows a finite number by a figure with the decimals asked for, exactly if what
it shows is finite too, as it always is but for percentages; otherwise it shows an infinity. -/
theorem number_formats_show_figures (hb : b ∈ numberFormats)
    (h : b.format settings v parameters = .ok t) :
    ∃ x decimals number, v.toNumber? = some x ∧ x.isFinite = true ∧
      b.decimalsAsked parameters = .ok decimals ∧ t = b.around settings parameters number ∧
      ((∃ (f : Figure decimals) (minus : Bool), number = f.write minus settings) ↔
        (b = percent → (x * 100).isFinite = true)) ∧
      (number ∈ infinities ↔ b = percent ∧ (x * 100).isFinite = false) := by
  obtain ⟨x, decimals, hvalue, hfinite, hdecimals, ht⟩ := exists_numberText hb h
  refine ⟨x, decimals, b.numberText settings x decimals, hvalue, hfinite, hdecimals, ht, ?_, ?_⟩
  · rw [numberText_eq_write_iff hb hfinite hdecimals, shown_isFinite_iff hfinite]
  · rw [numberText_mem_infinities_iff hb hfinite hdecimals, ← Bool.not_eq_true,
      shown_isFinite_iff hfinite, Classical.not_imp, Bool.not_eq_true]

theorem number_formats_show_figures_price :
    currency ∈ numberFormats ∧
      currency.format {} (.text "-1234.5".toList) [.text [], .number 3] =
        .ok "USD -1,234.500".toList ∧
      ∃ x decimals number, (Value.text "-1234.5".toList).toNumber? = some x ∧ x.isFinite = true ∧
        currency.decimalsAsked [.text [], .number 3] = .ok decimals ∧
        "USD -1,234.500".toList = currency.around {} [.text [], .number 3] number ∧
        ((∃ (f : Figure decimals) (minus : Bool), number = f.write minus {}) ↔
          (currency = percent → (x * 100).isFinite = true)) ∧
        (number ∈ infinities ↔ currency = percent ∧ (x * 100).isFinite = false) := by
  have hb : currency ∈ numberFormats := by decide
  have hformat : currency.format {} (.text "-1234.5".toList) [.text [], .number 3] =
      .ok "USD -1,234.500".toList := by decide +kernel
  exact ⟨hb, hformat, number_formats_show_figures hb hformat⟩

theorem percent_shows_infinity :
    percent.format {} (.text "1e308".toList) [] = .ok (percent.around {} [] "inf".toList) ∧
      percent.decimalsAsked [] = .ok 0 ∧
      ∀ (f : Figure 0) (minus : Bool), f.write minus {} ≠ "inf".toList := by
  refine ⟨by decide +kernel, rfl, fun f minus hf => ?_⟩
  apply f.write_notMem_infinities minus {}
  rw [hf]
  decide

end Builtin
end ContentWeave.Format
