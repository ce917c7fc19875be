import ContentWeave.Format.Registry
import ContentWeave.Proofs.Text.Brackets
import ContentWeave.Proofs.Text.Digits
import ContentWeave.Proofs.Table

/-!
# Formats add no brackets

Numbers are written in digits, signs, points and the separators of the settings. Escaping, line
breaks and cutting add constant texts, and no character but a bracket has one as its upper or lower
case. So what a format makes of a text without brackets, with parameters and settings without
brackets, holds none.
-/

namespace ContentWeave

open Text (BracketFree)

namespace Text

theorem bracketFree_of_digits {s : Text} (h : ∀ c ∈ s, Number.isDigit c = true) :
    BracketFree s := by
  intro c hc
  have hdigit := h c hc
  constructor <;> rintro rfl <;> exact absurd hdigit (by decide)

theorem bracketFree_ofNat (n : ℕ) : BracketFree (ofNat n) :=
  bracketFree_of_digits fun _ hc => isDigit_of_mem_ofNat hc

theorem bracketFree_replicate_zero (n : ℕ) : BracketFree (List.replicate n '0') := by
  intro c hc
  rw [List.eq_of_mem_replicate hc]
  decide

section Case

variable {c : Char} {run : CaseRun} {runs : List CaseRun} {expansions : List (ℕ × List ℕ)}

def CaseRun.Clear (run : CaseRun) : Prop :=
  run.last + run.distance < 91 ∨ 93 < run.first + run.distance

instance (run : CaseRun) : Decidable run.Clear :=
  inferInstanceAs (Decidable (_ ∨ _))

theorem toNat_ofNat_eq (n : ℕ) : (Char.ofNat n).toNat = n ∨ Char.ofNat n = '\x00' := by
  by_cases h : n.isValidChar
  · left
    rw [Char.ofNat, dif_pos h]
    rfl
  · right
    rw [Char.ofNat, dif_neg h]
    rfl

theorem ofNat_ne_bracket {n : ℕ} (h : n < 91 ∨ 93 < n) :
    Char.ofNat n ≠ '[' ∧ Char.ofNat n ≠ ']' := by
  rcases toNat_ofNat_eq n with hn | hn
  · constructor <;> intro heq <;> rw [heq] at hn <;> simp only [Char.reduceToNat] at hn <;> omega
  · rw [hn]
    decide

theorem CaseRun.Clear.target? (h : run.Clear) {n code : ℕ} (hcode : run.target? n = some code) :
    code < 91 ∨ 93 < code := by
  unfold CaseRun.target? at hcode
  split_ifs at hcode with hin
  obtain ⟨hfirst, hlast, -⟩ := hin
  cases hcode
  rcases h with h | h <;> omega

theorem bracketFree_mapCase (hruns : ∀ run ∈ runs, run.Clear)
    (hexpansions : ∀ e ∈ expansions, ∀ code ∈ e.2, code < 91 ∨ 93 < code)
    (hc : c ≠ '[' ∧ c ≠ ']') : BracketFree (mapCase runs expansions c) := by
  unfold mapCase
  split
  · rename_i codes hlookup
    have hcodes := hexpansions _ (Table.mem_of_lookup hlookup)
    intro d hd
    obtain ⟨code, hcode, rfl⟩ := List.mem_map.1 hd
    exact ofNat_ne_bracket (hcodes code hcode)
  · split
    · rename_i code hfound
      obtain ⟨run, hrun, hcode⟩ := List.exists_of_findSome?_eq_some hfound
      exact BracketFree.nil.cons (ofNat_ne_bracket ((hruns run hrun).target? hcode))
    · exact BracketFree.nil.cons hc

theorem ascii_case_ne_bracket : ∀ n < 128, Char.ofNat n ≠ '[' ∧ Char.ofNat n ≠ ']' →
    ((Char.ofNat n).toUpper ≠ '[' ∧ (Char.ofNat n).toUpper ≠ ']') ∧
      (Char.ofNat n).toLower ≠ '[' ∧ (Char.ofNat n).toLower ≠ ']' := by decide

theorem bracketFree_upperChar (hc : c ≠ '[' ∧ c ≠ ']') : BracketFree (upperChar c) := by
  unfold upperChar
  split_ifs with hsmall
  · have hcase := ascii_case_ne_bracket c.toNat hsmall
    rw [Char.ofNat_toNat] at hcase
    exact BracketFree.nil.cons (hcase hc).1
  · exact bracketFree_mapCase (by decide +kernel) (by decide +kernel) hc

theorem bracketFree_lowerChar (hc : c ≠ '[' ∧ c ≠ ']') : BracketFree (lowerChar c) := by
  unfold lowerChar
  split_ifs with hsmall
  · have hcase := ascii_case_ne_bracket c.toNat hsmall
    rw [Char.ofNat_toNat] at hcase
    exact BracketFree.nil.cons (hcase hc).2
  · exact bracketFree_mapCase (by decide +kernel) (by decide +kernel) hc

theorem bracketFree_toUpper {s : Text} (hs : BracketFree s) : BracketFree (toUpper s) :=
  hs.flatMap fun _ hc => bracketFree_upperChar hc

theorem bracketFree_lowerAfter {s : Text} (hs : BracketFree s) (before : Text) :
    BracketFree (lowerAfter before s) := by
  induction s generalizing before with
  | nil => exact BracketFree.nil
  | cons c s ih =>
    obtain ⟨hc, hrest⟩ := List.forall_mem_cons.1 hs
    refine BracketFree.append ?_ (ih hrest _)
    split_ifs
    · decide
    · decide
    · exact bracketFree_lowerChar hc

theorem bracketFree_toLower {s : Text} (hs : BracketFree s) : BracketFree (toLower s) :=
  bracketFree_lowerAfter hs []

end Case

end Text

namespace Number

theorem Decimal.bracketFree_text (d : Decimal) : BracketFree d.text := by
  have hdigits := Text.bracketFree_ofNat d.digits
  unfold Decimal.text
  dsimp only
  have hpadded := (Text.bracketFree_replicate_zero
    ((-d.exponent).toNat + 1 - (Text.ofNat d.digits).length)).append hdigits
  split_ifs
  · exact hdigits.append (Text.bracketFree_replicate_zero _)
  · exact hpadded.of_subset (List.take_subset _ _)
  · refine (hpadded.of_subset (List.take_subset _ _)).append (BracketFree.cons (by decide) ?_)
    intro c hc
    have hfraction := (List.dropWhile_suffix _).subset (List.mem_reverse.1 hc)
    exact hpadded c (List.mem_of_mem_drop (List.mem_reverse.1 hfraction))

theorem bracketFree_text (x : Float) : BracketFree (text x) := by
  unfold text
  split
  · rename_i e _
    refine BracketFree.append (by split_ifs <;> decide) ?_
    split_ifs
    · decide
    · exact e.shortest.bracketFree_text
  · split_ifs <;> decide

theorem FixedDigits.bracketFree_ofScaled (n decimals : ℕ) :
    BracketFree (ofScaled n decimals).whole ∧ BracketFree (ofScaled n decimals).fraction := by
  have hpadded := (Text.bracketFree_replicate_zero (decimals + 1 - (Text.ofNat n).length)).append
    (Text.bracketFree_ofNat n)
  exact ⟨hpadded.of_subset (List.take_subset _ _), hpadded.of_subset (List.drop_subset _ _)⟩

end Number

theorem Value.bracketFree_display {v : Value} (h : ∀ t, v = .text t → BracketFree t) :
    BracketFree v.display := by
  cases v with
  | text t => exact h t rfl
  | number x => exact Number.bracketFree_text x

namespace Format

structure Settings.BracketFree (settings : Settings) : Prop where
  decimalSeparator : Text.BracketFree settings.decimalSeparator
  thousandSeparator : Text.BracketFree settings.thousandSeparator
  currencyCode : Text.BracketFree settings.currencyCode
  booleanTrue : Text.BracketFree settings.booleanTrue
  booleanFalse : Text.BracketFree settings.booleanFalse

theorem subset_of_mem_groupsOfReversed {s piece : Text} (h : piece ∈ groupsOfReversed s) :
    piece ⊆ s := by
  induction s using groupsOfReversed.induct with
  | case1 a b c d rest ih =>
    rw [groupsOfReversed] at h
    rcases List.mem_cons.1 h with rfl | h
    · simp
    · have hbehind : d :: rest <:+ a :: b :: c :: d :: rest := ⟨[a, b, c], rfl⟩
      exact List.Subset.trans (ih h) hbehind.subset
  | case2 short hshort =>
    rw [groupsOfReversed] at h
    · rw [List.mem_singleton.1 h]
      exact List.reverse_subset.2 (List.Subset.refl _)
    · exact hshort

section Grouping

variable {settings : Settings}

theorem bracketFree_groupedExact (hs : settings.BracketFree) (x : Number.Exact) (decimals : ℕ) :
    BracketFree (groupedExact x decimals settings) := by
  obtain ⟨hwhole, hfraction⟩ := Number.FixedDigits.bracketFree_ofScaled
    (Number.roundDiv (x.numerator * Nat.pow 10 decimals) x.denominator) decimals
  unfold groupedExact
  refine BracketFree.append (BracketFree.append (by split_ifs <;> decide) ?_) ?_
  · refine BracketFree.joinWith hs.thousandSeparator fun piece hpiece => ?_
    have hgroup := subset_of_mem_groupsOfReversed (List.mem_reverse.1 hpiece)
    exact hwhole.of_subset (List.Subset.trans hgroup (List.reverse_subset.2 (List.Subset.refl _)))
  · split_ifs
    · exact BracketFree.nil
    · exact hs.decimalSeparator.append hfraction

theorem bracketFree_grouped (hs : settings.BracketFree) (x : Float) (decimals : ℕ) :
    BracketFree (grouped x decimals settings) := by
  unfold grouped
  split
  · exact bracketFree_groupedExact hs _ _
  · exact Number.bracketFree_text x

theorem bracketFree_groupedWhole (hs : settings.BracketFree) (x : Float) :
    BracketFree (groupedWhole x settings) := by
  unfold groupedWhole
  split
  · exact bracketFree_groupedExact hs _ _
  · exact Number.bracketFree_text x

end Grouping

theorem bracketFree_escapeChar {c : Char} (hc : c ≠ '[' ∧ c ≠ ']') :
    BracketFree (escapeChar c) := by
  unfold escapeChar
  split_ifs
  iterate 5 decide
  exact BracketFree.nil.cons hc

theorem bracketFree_escape {s : Text} (hs : BracketFree s) : BracketFree (escape s) :=
  hs.flatMap fun _ hc => bracketFree_escapeChar hc

theorem bracketFree_breakLines {s : Text} (hs : BracketFree s) : BracketFree (breakLines s) := by
  refine hs.flatMap fun c hc => ?_
  split_ifs
  · decide
  · exact BracketFree.nil.cons hc

theorem exists_of_bind_eq_ok {α : Type} {r : Except Error α} {f : α → Except Error Text} {t : Text}
    (h : (r >>= f) = .ok t) : ∃ a, r = .ok a ∧ f a = .ok t := by
  cases r with
  | error e => cases h
  | ok a => exact ⟨a, rfl, h⟩

namespace Builtin

variable {settings : Settings} {v : Value} {parameters : List Value} {t : Text}

theorem bracketFree_cut {suffix : Text} (ht : BracketFree t) (hsuffix : BracketFree suffix)
    (length : ℕ) : BracketFree (cut t length suffix) := by
  unfold cut
  split_ifs
  · exact ht
  · exact (ht.of_subset (List.take_subset _ _)).append hsuffix

theorem bracketFree_currencyOf (hs : settings.BracketFree) {p : Option Value}
    (hp : ∀ v ∈ p, BracketFree v.display) : BracketFree (currencyOf settings p) := by
  unfold currencyOf
  split
  · rename_i c code hcode
    obtain ⟨v, hv, hdisplay⟩ := Option.map_eq_some_iff.1 hcode
    exact hdisplay ▸ hp v hv
  · exact hs.currencyCode

/-- What a format makes of a value without brackets, with parameters and settings without brackets,
holds none. -/
theorem bracketFree_format (b : Builtin) (hs : settings.BracketFree) (hv : BracketFree v.display)
    (hparameters : ∀ p ∈ parameters, BracketFree p.display)
    (h : b.format settings v parameters = .ok t) : BracketFree t := by
  have hparameter : ∀ i, ∀ (p : Value), p ∈ parameters[i]? → BracketFree p.display := fun i p hp =>
    hparameters p (List.mem_of_getElem? hp)
  cases b with
  | raw =>
    cases h
    exact hv
  | text =>
    cases h
    exact bracketFree_escape hv
  | ntext =>
    cases h
    exact bracketFree_breakLines (bracketFree_escape hv)
  | uppercase =>
    cases h
    exact Text.bracketFree_toUpper hv
  | lowercase =>
    cases h
    exact Text.bracketFree_toLower hv
  | integer =>
    obtain ⟨x, -, h⟩ := exists_of_bind_eq_ok h
    cases h
    exact bracketFree_groupedWhole hs x
  | decimal =>
    obtain ⟨x, -, h⟩ := exists_of_bind_eq_ok h
    obtain ⟨decimals, -, h⟩ := exists_of_bind_eq_ok h
    cases h
    exact bracketFree_grouped hs x _
  | percent =>
    obtain ⟨x, -, h⟩ := exists_of_bind_eq_ok h
    obtain ⟨decimals, -, h⟩ := exists_of_bind_eq_ok h
    cases h
    exact (bracketFree_grouped hs _ _).append (by decide)
  | currency =>
    obtain ⟨x, -, h⟩ := exists_of_bind_eq_ok h
    obtain ⟨decimals, -, h⟩ := exists_of_bind_eq_ok h
    cases h
    have hcode := bracketFree_currencyOf hs (hparameter 0)
    exact (hcode.append (by decide)).append (bracketFree_grouped hs x _)
  | boolean =>
    cases h
    split_ifs
    · exact hs.booleanTrue
    · exact hs.booleanFalse
  | truncate =>
    obtain ⟨length?, -, h⟩ := exists_of_bind_eq_ok h
    cases length? with
    | none => cases h
    | some length =>
      cases h
      refine bracketFree_cut hv ?_ length
      cases hsuffix : parameters[1]? with
      | none => decide
      | some p => exact hparameter 1 p hsuffix

end Builtin

section Registry

variable {settings : Settings}

theorem get?_foldl_register (bs : List Builtin) (r : Registry) {name : Text} {f : Formatter}
    (h : (bs.foldl (fun r b => r.register b.name b.format) r).formatters.get? name = some f) :
    r.formatters.get? name = some f ∨ ∃ b : Builtin, f = b.format := by
  induction bs generalizing r with
  | nil => exact .inl h
  | cons b bs ih =>
    rcases ih (r.register b.name b.format) h with h | h
    · rw [Registry.register, Table.get?_insert] at h
      split_ifs at h with hname
      · exact .inr ⟨b, (Option.some.inj h).symm⟩
      · exact .inl h
    · exact .inr h

theorem settings_foldl_register (bs : List Builtin) (r : Registry) :
    (bs.foldl (fun r b => r.register b.name b.format) r).settings = r.settings := by
  induction bs generalizing r with
  | nil => rfl
  | cons b bs ih => exact ih (r.register b.name b.format)

theorem bracketFree_invoke (hs : settings.BracketFree) {name t : Text} {v : Value}
    {parameters : List Value} (hv : BracketFree v.display)
    (hparameters : ∀ p ∈ parameters, BracketFree p.display)
    (h : (Registry.builtins settings).invoke name (v :: parameters) = .ok t) : BracketFree t := by
  rw [Registry.invoke, Registry.builtins, settings_foldl_register] at h
  split at h
  · rename_i f hf
    rcases get?_foldl_register _ _ hf with hnone | ⟨b, rfl⟩
    · cases hnone
    · exact b.bracketFree_format hs hv hparameters h
  · cases h

theorem bracketFree_applyOrShow (hs : settings.BracketFree) {v : Value} (hv : BracketFree v.display)
    (format : Text) {parameters : List Text} (hparameters : ∀ p ∈ parameters, BracketFree p) :
    BracketFree ((Registry.builtins settings).formats.applyOrShow v format parameters) := by
  have hvalues : ∀ p ∈ parameters.map Value.text, BracketFree p.display := by
    intro p hp
    obtain ⟨parameter, hparameter, rfl⟩ := List.mem_map.1 hp
    exact hparameters parameter hparameter
  unfold Formats.applyOrShow Formats.apply Registry.formats
  split_ifs
  · exact hv
  · split
    · rename_i t ht
      dsimp only at ht
      exact bracketFree_invoke hs hv hvalues ht
    · exact hv

end Registry
end Format
end ContentWeave
