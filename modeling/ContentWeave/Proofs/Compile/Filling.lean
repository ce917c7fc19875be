import ContentWeave.Proofs.Placeholder.Bodies
import ContentWeave.Template
import Mathlib.Data.List.Forall2

/-!
# Values in the places of placeholders

What a placeholder stands for is said by rules, one for each way in which an argument, its default
or its format can be missing. Filling a template replaces placeholders one after the other, each
everywhere in the text that the earlier ones left. Where neither gaps nor values open a double
bracket, and no placeholder holds a bracket, this puts every value in the place of its placeholder.
-/

namespace ContentWeave

open Text (weave Inert Plain)

namespace Template

variable {formats : Format.Formats} {arguments : ArgumentSet} {p : Placeholder} {v : Value}
variable {t t' : Text}

inductive Supplies (arguments : ArgumentSet) (name : Text) : Value → Prop
  | argument {v : Value} (h : arguments.get? name = some v) : Supplies arguments name v
  | default {v : Value} (h : arguments.get? name = none)
      (hd : arguments.defaultFor? name = some v) : Supplies arguments name v

/-- The text of a value under a format: what the format makes of it, or the value as it is if there
is no such format or if the format fails. -/
inductive Shows (formats : Format.Formats) (format : Text) (parameters : List Text) (v : Value) :
    Text → Prop
  | formatted {t : Text} (hne : format ≠ []) (hhas : formats.has format = true)
      (h : formats.invoke format (v :: parameters.map .text) = .ok t) :
      Shows formats format parameters v t
  | noFormat (h : format = []) : Shows formats format parameters v v.display
  | unregistered (h : formats.has format = false) : Shows formats format parameters v v.display
  | rejected {e : Format.Error} (h : formats.invoke format (v :: parameters.map .text) = .error e) :
      Shows formats format parameters v v.display

inductive StandsFor (formats : Format.Formats) (arguments : ArgumentSet) (p : Placeholder) :
    Text → Prop
  | reserved (ht : p.token ≠ '+') : StandsFor formats arguments p []
  | missing (ht : p.token = '+') (h : ∀ v, ¬ Supplies arguments p.name v) :
      StandsFor formats arguments p []
  | shown {v : Value} {t : Text} (ht : p.token = '+') (h : Supplies arguments p.name v)
      (hv : Shows formats p.format p.parameters v t) : StandsFor formats arguments p t

theorem supplies_iff {name : Text} :
    Supplies arguments name v ↔ arguments.resolve? name = some v := by
  unfold ArgumentSet.resolve?
  constructor
  · intro h
    cases h with
    | argument h => rw [h, Option.some_or]
    | default h hd => rw [h, Option.none_or, hd]
  · intro h
    cases hn : arguments.get? name with
    | some w =>
      rw [hn, Option.some_or] at h
      exact .argument (hn.trans h)
    | none =>
      rw [hn, Option.none_or] at h
      exact .default hn h

theorem shows_iff {format : Text} {parameters : List Text} :
    Shows formats format parameters v t ↔ formats.applyOrShow v format parameters = t := by
  unfold Format.Formats.applyOrShow Format.Formats.apply
  by_cases hplain : (format.isEmpty || !formats.has format) = true
  · rw [if_pos hplain]
    have hno : format = [] ∨ formats.has format = false := by simpa using hplain
    constructor
    · intro h
      cases h with
      | formatted hne hhas h => simp [hne, hhas] at hno
      | noFormat h => rfl
      | unregistered h => rfl
      | rejected h => rfl
    · rintro rfl
      rcases hno with h | h
      · exact .noFormat h
      · exact .unregistered h
  · rw [if_neg hplain]
    have hsome : format ≠ [] ∧ formats.has format = true := by simpa using hplain
    cases hinvoke : formats.invoke format (v :: parameters.map .text) with
    | ok made =>
      constructor
      · intro h
        cases h with
        | formatted hne hhas h => exact Except.ok.inj (hinvoke.symm.trans h)
        | noFormat h => exact absurd h hsome.1
        | unregistered h => simp [hsome.2] at h
        | rejected h => simp [hinvoke] at h
      · rintro rfl
        exact .formatted hsome.1 hsome.2 hinvoke
    | error e =>
      constructor
      · intro h
        cases h with
        | formatted hne hhas h => simp [hinvoke] at h
        | noFormat h => rfl
        | unregistered h => rfl
        | rejected h => rfl
      · rintro rfl
        exact .rejected hinvoke

theorem standsFor_iff : StandsFor formats arguments p t ↔ valueOf formats arguments p = t := by
  unfold valueOf Placeholder.substitutes
  by_cases ht : p.token = '+'
  · simp only [ht, beq_self_eq_true, if_true]
    cases hv : arguments.resolve? p.name with
    | none =>
      have hnone : ∀ v, ¬ Supplies arguments p.name v := by simp [supplies_iff, hv]
      constructor
      · intro h
        cases h with
        | reserved hne => exact absurd ht hne
        | missing => rfl
        | shown _ h => exact absurd h (hnone _)
      · rintro rfl
        exact .missing ht hnone
    | some w =>
      have hsupplies : Supplies arguments p.name w := supplies_iff.2 hv
      constructor
      · intro h
        cases h with
        | reserved hne => exact absurd ht hne
        | missing _ h => exact absurd hsupplies (h w)
        | shown _ h hshows =>
          obtain rfl : w = _ := Option.some.inj (hv.symm.trans (supplies_iff.1 h))
          exact shows_iff.1 hshows
      · intro h
        exact .shown ht hsupplies (shows_iff.2 h)
  · have hne : (p.token == '+') = false := beq_eq_false_iff_ne.2 ht
    rw [hne]
    constructor
    · intro h
      cases h with
      | reserved => rfl
      | missing h => exact absurd h ht
      | shown h => exact absurd h ht
    · rintro rfl
      exact .reserved ht

theorem forall₂_standsFor_iff {ps : List Placeholder} {values : List Text} :
    List.Forall₂ (StandsFor formats arguments) ps values ↔
      values = ps.map (valueOf formats arguments) := by
  have hrel : StandsFor formats arguments = fun p t => valueOf formats arguments p = t :=
    funext₂ fun _ _ => propext standsFor_iff
  rw [hrel, ← List.forall₂_map_left_iff (R := Eq), List.forall₂_eq_eq_eq]
  exact eq_comm

/-- A template and the values of its placeholders fit together: no placeholder holds a bracket, and
no double bracket opens inside a gap or a value, or where one ends, unless it is the last gap that
ends. -/
structure Fillable (template : Text) (values : List Text) : Prop where
  bodies : ∀ p ∈ Placeholder.scan template, ∀ body,
    p.raw = Placeholder.enclose p.token body → '[' ∉ body
  gaps_plain : ∀ g ∈ Placeholder.pattern.gaps template, Plain g
  gaps_open_end : ∀ g ∈ (Placeholder.pattern.gaps template).dropLast, g.getLast? ≠ some '['
  values_plain : ∀ v ∈ values, Plain v
  values_open_end : ∀ v ∈ values, v.getLast? ≠ some '['

/-- The rules give every placeholder of a template one value. If template and values fit together,
filling the template puts every value in the place of its placeholder. -/
theorem fill_weaves_values (formats : Format.Formats) (arguments : ArgumentSet) (template : Text) :
    ∃ values,
      List.Forall₂ (StandsFor formats arguments) (Placeholder.scan template) values ∧
      (∀ values', List.Forall₂ (StandsFor formats arguments) (Placeholder.scan template) values' →
        values' = values) ∧
      weave (Placeholder.pattern.gaps template) ((Placeholder.scan template).map (·.raw)) =
        template ∧
      (Fillable template values →
        fill formats arguments template = weave (Placeholder.pattern.gaps template) values) := by
  refine ⟨(Placeholder.scan template).map (valueOf formats arguments),
    forall₂_standsFor_iff.2 rfl, fun _ h => forall₂_standsFor_iff.1 h,
    Placeholder.pattern.weave_gaps template, fun h => ?_⟩
  have hvalue : ∀ p ∈ Placeholder.scan template, Inert (valueOf formats arguments p) := by
    intro p hp
    have hmem := List.mem_map_of_mem (f := valueOf formats arguments) hp
    exact ⟨h.values_plain _ hmem, h.values_open_end _ hmem⟩
  refine Replacements.apply_ofItems Placeholder.pattern (valueOf formats arguments)
    (fun p hp => Placeholder.mark_of_mem_scan hp (h.bodies p hp)) hvalue ?_
    ⟨h.gaps_plain, h.gaps_open_end⟩
  intro p hp q hq hraw
  rw [Placeholder.eq_of_raw_eq hq hp hraw]

def offer : Text :=
  "[[+a:text]][[+b:decimal]] [[+c:x,2]][[*a]][[+d]][[+a:text]][".toList

def offerArguments : ArgumentSet := ArgumentSet.parse "[[$x a='<' b='n/a' c=|'C']]".toList

def offerFormats : Format.Formats := Format.Registry.builtins {}

theorem fill_weaves_values_offer :
    ∃ values,
      List.Forall₂ (StandsFor offerFormats offerArguments) (Placeholder.scan offer) values ∧
      Fillable offer values ∧
      fill offerFormats offerArguments offer = weave (Placeholder.pattern.gaps offer) values ∧
      fill offerFormats offerArguments offer = "&lt;n/a C&lt;[".toList := by
  obtain ⟨values, hstand, -, -, hfill⟩ := fill_weaves_values offerFormats offerArguments offer
  have hvalues : (Placeholder.scan offer).map (valueOf offerFormats offerArguments) =
      ["&lt;".toList, "n/a".toList, "C".toList, [], [], "&lt;".toList] := by decide +kernel
  have hvalue := (forall₂_standsFor_iff.1 hstand).trans hvalues
  subst hvalue
  have hbodies : ∀ p ∈ Placeholder.scan offer, '[' ∉ p.raw.drop 2 := by decide +kernel
  have h : Fillable offer ["&lt;".toList, "n/a".toList, "C".toList, [], [], "&lt;".toList] := by
    refine ⟨fun p hp body hraw hbody => hbodies p hp ?_, by decide +kernel, by decide +kernel,
      by decide +kernel, by decide +kernel⟩
    simp [hraw, Placeholder.enclose, hbody]
  exact ⟨_, hstand, h, hfill h, by decide +kernel⟩

end Template
end ContentWeave
