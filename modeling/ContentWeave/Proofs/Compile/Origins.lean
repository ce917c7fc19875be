import ContentWeave.Proofs.Call.Slices
import ContentWeave.Proofs.Compile.Filling
import ContentWeave.Proofs.Format.Brackets

/-!
# Where the brackets of a filled template come from

While a template is filled, its characters are told from those that replacements put in.
Replacements without brackets leave every bracket to the template, so a double bracket never opens
in what an argument put in.
-/

namespace ContentWeave

open Text (BracketFree)
open Format (Registry)

inductive Origin where
  | template
  | replacement
deriving DecidableEq

abbrev MarkedText := List (Char × Origin)

namespace MarkedText

def text (s : MarkedText) : Text := s.map Prod.fst

def ofTemplate (s : Text) : MarkedText := s.map fun c => (c, .template)

def ofReplacement (s : Text) : MarkedText := s.map fun c => (c, .replacement)

/-- The text with every occurrence of `word` replaced. The first `skip` characters belong to an
occurrence already replaced. -/
def replaceFrom (word new : Text) : (skip : ℕ) → MarkedText → MarkedText
  | _, [] => []
  | skip + 1, _ :: cs => replaceFrom word new skip cs
  | 0, c :: cs =>
    if Text.startsWith word (text (c :: cs)) then
      ofReplacement new ++ replaceFrom word new (word.length - 1) cs
    else c :: replaceFrom word new 0 cs

def replaceAll (word new : Text) (s : MarkedText) : MarkedText :=
  if word = [] then s else replaceFrom word new 0 s

def apply (r : Replacements) (s : MarkedText) : MarkedText :=
  r.pairs.foldl (fun s (word, new) => replaceAll word new s) s

def OpensIn (s : MarkedText) (origin : Origin) : Prop :=
  ∃ front second rest, s = front ++ ('[', origin) :: ('[', second) :: rest

/-- Every bracket comes from the template. -/
def TemplateBrackets (s : MarkedText) : Prop :=
  ∀ c ∈ s, c.2 = .replacement → c.1 ≠ '[' ∧ c.1 ≠ ']'

section Replacing

variable {word new : Text} {s : MarkedText}

theorem TemplateBrackets.not_opensIn (h : TemplateBrackets s) : ¬ s.OpensIn .replacement := by
  rintro ⟨front, second, rest, rfl⟩
  exact (h ('[', .replacement) (by simp) rfl).1 rfl

@[simp] theorem text_ofTemplate (s : Text) : text (ofTemplate s) = s := by
  simp [text, ofTemplate, Function.comp_def]

@[simp] theorem text_ofReplacement (s : Text) : text (ofReplacement s) = s := by
  simp [text, ofReplacement, Function.comp_def]

theorem text_replaceFrom (hw : word ≠ []) (new : Text) (skip : ℕ) (s : MarkedText) :
    text (replaceFrom word new skip s) =
      ((Text.Pattern.exactly word hw).piecesFrom skip (text s)).flatMap fun
        | .gap c => [c]
        | .item _ => new := by
  induction s generalizing skip with
  | nil => simp [replaceFrom, text, Text.Pattern.piecesFrom]
  | cons c s ih =>
    cases skip with
    | succ skip => exact ih skip
    | zero =>
      have hcons : text (c :: s) = c.1 :: text s := rfl
      by_cases hstart : Text.startsWith word (text (c :: s)) = true
      · have hfirst : (Text.Pattern.exactly word hw).first? (c.1 :: text s) = some () :=
          if_pos hstart
        rw [replaceFrom, if_pos hstart, text, List.map_append, ← text, ← text, text_ofReplacement,
          ih, hcons, Text.Pattern.piecesFrom, hfirst]
        rfl
      · have hfirst : (Text.Pattern.exactly word hw).first? (c.1 :: text s) = none :=
          if_neg hstart
        rw [replaceFrom, if_neg hstart, hcons, Text.Pattern.piecesFrom, hfirst, text, List.map_cons,
          ← text, ih]
        rfl

theorem text_replaceAll (word new : Text) (s : MarkedText) :
    text (replaceAll word new s) = Text.replaceAll word new (text s) := by
  unfold replaceAll Text.replaceAll
  split_ifs with hw
  · rfl
  · rw [text_replaceFrom hw, Text.Pattern.substitute, Text.Pattern.pieces]
    refine List.flatMap_congr fun piece _ => ?_
    cases piece <;> rfl

theorem text_apply (r : Replacements) (s : MarkedText) : text (apply r s) = r.apply (text s) := by
  unfold apply Replacements.apply
  induction r.pairs generalizing s with
  | nil => rfl
  | cons pair pairs ih => rw [List.foldl_cons, List.foldl_cons, ih, text_replaceAll]

theorem templateBrackets_ofTemplate (s : Text) : TemplateBrackets (ofTemplate s) := by
  intro c hc hreplacement
  obtain ⟨d, -, rfl⟩ := List.mem_map.1 hc
  cases hreplacement

theorem templateBrackets_ofReplacement (h : BracketFree new) :
    TemplateBrackets (ofReplacement new) := by
  intro c hc _
  obtain ⟨d, hd, rfl⟩ := List.mem_map.1 hc
  exact h d hd

theorem templateBrackets_replaceFrom (hs : TemplateBrackets s) (hnew : BracketFree new) (skip : ℕ) :
    TemplateBrackets (replaceFrom word new skip s) := by
  induction s generalizing skip with
  | nil => simpa [replaceFrom] using hs
  | cons c s ih =>
    obtain ⟨hc, hrest⟩ := List.forall_mem_cons.1 hs
    cases skip with
    | succ skip => exact ih hrest skip
    | zero =>
      rw [replaceFrom]
      split_ifs
      · exact List.forall_mem_append.2 ⟨templateBrackets_ofReplacement hnew, ih hrest _⟩
      · exact List.forall_mem_cons.2 ⟨hc, ih hrest 0⟩

theorem templateBrackets_replaceAll (hs : TemplateBrackets s) (hnew : BracketFree new) :
    TemplateBrackets (replaceAll word new s) := by
  unfold replaceAll
  split_ifs
  · exact hs
  · exact templateBrackets_replaceFrom hs hnew 0

theorem templateBrackets_apply (hs : TemplateBrackets s) {r : Replacements}
    (hr : ∀ pair ∈ r.pairs, BracketFree pair.2) : TemplateBrackets (apply r s) := by
  obtain ⟨pairs⟩ := r
  change TemplateBrackets (pairs.foldl (fun s (word, new) => replaceAll word new s) s)
  induction pairs generalizing s with
  | nil => exact hs
  | cons pair pairs ih =>
    obtain ⟨hnew, hpairs⟩ := List.forall_mem_cons.1 hr
    exact ih (templateBrackets_replaceAll hs hnew) hpairs

end Replacing

end MarkedText

namespace Placeholder

theorem bracketFree_parametersOf {s : Text} (hs : BracketFree s) :
    ∀ parameter ∈ parametersOf s, BracketFree parameter := by
  unfold parametersOf
  dsimp only
  split_ifs
  · exact List.forall_mem_nil _
  · exact (hs.of_subset (List.filter_subset_self _)).splitOn ','

theorem parameters_eq {token : Char} {body : Text} {p : Placeholder}
    (h : ofBody? token body = some p) : ∃ s, s <:+ body ∧ p.parameters = parametersOf s := by
  unfold ofBody? at h
  split at h
  · cases h
  · cases h
    refine ⟨_, ?_, rfl⟩
    have hcut : ∀ s : Text, (cutAtComma s).2 <:+ s := fun s =>
      (List.drop_suffix 1 _).trans (List.dropWhile_suffix _)
    have hstrip : ∀ s : Text, (Text.stripStart [':'] s).getD s <:+ s := by
      intro s
      cases hs : Text.stripStart [':'] s with
      | none => exact List.suffix_refl _
      | some rest => exact ⟨[':'], (Text.stripStart_eq_some_iff.1 hs).symm⟩
    exact (hcut _).trans ((hstrip _).trans (List.dropWhile_suffix _))

theorem bracketFree_parameters {template : Text} {p : Placeholder} (hp : p ∈ scan template)
    (hopen : ∀ body, p.raw = enclose p.token body → '[' ∉ body) :
    ∀ parameter ∈ p.parameters, BracketFree parameter := by
  obtain ⟨body, -, hbody, hfree⟩ := exists_bracketFree_body hp hopen
  obtain ⟨s, hs, hparameters⟩ := parameters_eq hbody
  have hsuffix : s <:+ p.token :: body := hs.trans (List.suffix_cons p.token body)
  rw [hparameters]
  exact bracketFree_parametersOf (hfree.of_infix hsuffix.isInfix)

end Placeholder

namespace Template

variable {settings : Format.Settings} {arguments : ArgumentSet} {template : Text}

theorem bracketFree_valueOf (hs : settings.BracketFree)
    (harguments : ∀ k t, arguments.get? k = some (.text t) → BracketFree t) {p : Placeholder}
    (hp : p ∈ Placeholder.scan template)
    (hopen : ∀ body, p.raw = Placeholder.enclose p.token body → '[' ∉ body) :
    BracketFree (valueOf (Registry.builtins settings) arguments p) := by
  have hparameters := Placeholder.bracketFree_parameters hp hopen
  unfold valueOf
  split_ifs
  · split
    · rename_i v hv
      have hdisplay : BracketFree v.display := by
        refine Value.bracketFree_display fun t ht => ?_
        cases supplies_iff.2 hv with
        | argument h => exact harguments _ t (ht ▸ h)
        | default _ h => exact harguments _ t (ht ▸ h)
      exact Format.bracketFree_applyOrShow hs hdisplay p.format hparameters
    · exact BracketFree.nil
  · exact BracketFree.nil

/-- The filled template, in which every character is known to come from the template or from a
replacement. -/
def fillMarked (formats : Format.Formats) (arguments : ArgumentSet) (template : Text) :
    MarkedText :=
  (MarkedText.ofTemplate template).apply (replacements formats arguments template)

variable {formats : Format.Formats}

theorem bracketFree_replacements (hs : settings.BracketFree)
    (harguments : ∀ k t, arguments.get? k = some (.text t) → BracketFree t)
    (hopen : ∀ p ∈ Placeholder.scan template, ∀ body,
      p.raw = Placeholder.enclose p.token body → '[' ∉ body) :
    ∀ pair ∈ (replacements (Registry.builtins settings) arguments template).pairs,
      BracketFree pair.2 := by
  intro pair hpair
  obtain ⟨p, hp, rfl⟩ := List.mem_map.1 hpair
  exact bracketFree_valueOf hs harguments hp (hopen p hp)

theorem text_fillMarked (formats : Format.Formats) (arguments : ArgumentSet) (template : Text) :
    (fillMarked formats arguments template).text = fill formats arguments template := by
  rw [fillMarked, MarkedText.text_apply, MarkedText.text_ofTemplate, fill]

theorem templateBrackets_fillMarked
    (h : ∀ pair ∈ (replacements formats arguments template).pairs, BracketFree pair.2) :
    (fillMarked formats arguments template).TemplateBrackets :=
  MarkedText.templateBrackets_apply (MarkedText.templateBrackets_ofTemplate template) h

end Template

/-- Every text among the arguments and defaults of a directive is a piece of its body and holds no
bracket. With the built-in formats, and no bracket in the settings or in the body of a placeholder,
a template is filled with texts that hold none either, so double brackets open only in what is the
template's own. -/
theorem arguments_open_no_directive {content : Text} {d : Directive}
    (hd : d ∈ Directive.scan content) :
    (∃ body, d.raw = Directive.enclose body ∧ ∀ k t,
      (ArgumentSet.parse d.raw).get? k = some (.text t) ∨
        (ArgumentSet.parse d.raw).defaultFor? k = some (.text t) → t <:+: body ∧ BracketFree t) ∧
    ∀ (settings : Format.Settings) (template : Text), settings.BracketFree →
      (∀ p ∈ Placeholder.scan template, ∀ body,
        p.raw = Placeholder.enclose p.token body → '[' ∉ body) →
      (∀ pair ∈ (Template.replacements (Registry.builtins settings) (ArgumentSet.parse d.raw)
          template).pairs, BracketFree pair.2) ∧
        (Template.fillMarked (Registry.builtins settings) (ArgumentSet.parse d.raw) template).text =
          Template.fill (Registry.builtins settings) (ArgumentSet.parse d.raw) template ∧
        ¬ (Template.fillMarked (Registry.builtins settings) (ArgumentSet.parse d.raw)
          template).OpensIn .replacement := by
  obtain ⟨t, body, hbody, rfl⟩ := Directive.exists_body_of_mem_scan hd
  have hfree := Directive.bracketFree_of_bodyAt? hbody
  rw [Directive.parse_raw]
  have htext : ∀ k t, (ArgumentSet.parse (Directive.enclose body)).get? k = some (.text t) →
      t <:+: body ∧ BracketFree t := by
    intro k t h
    have hpiece := Directive.text_infix_body h
    exact ⟨hpiece, hfree.of_infix hpiece⟩
  refine ⟨⟨body, rfl, fun k t h => h.elim (htext k t) (htext _ t)⟩, ?_⟩
  intro settings template hs hopen
  have hreplacements := Template.bracketFree_replacements hs (fun k t h => (htext k t h).2) hopen
  refine ⟨hreplacements, Template.text_fillMarked _ _ _, ?_⟩
  exact (Template.templateBrackets_fillMarked hreplacements).not_opensIn

def milkCall : Text := "a [[$tea key='milk' note=|'<a, b>']]".toList

def milkTemplate : Text := "[[$[[+key:lowercase]]]] [[+note:text]][[+key:truncate,2,..]]".toList

theorem arguments_open_no_directive_milk :
    ∃ d ∈ Directive.scan milkCall, ∃ filled : MarkedText,
      filled = Template.fillMarked (Registry.builtins {}) (ArgumentSet.parse d.raw) milkTemplate ∧
      filled.text = "[[$milk]] &lt;a, b&gt;mi..".toList ∧
      filled.OpensIn .template ∧ ¬ filled.OpensIn .replacement := by
  have hd : Directive.parse (milkCall.drop 2) ∈ Directive.scan milkCall := by decide +kernel
  have hsettings : Format.Settings.BracketFree {} := by
    constructor <;> decide
  have hbodies : ∀ p ∈ Placeholder.scan milkTemplate, '[' ∉ p.raw.drop 2 := by decide +kernel
  obtain ⟨-, hfill⟩ := arguments_open_no_directive hd
  obtain ⟨-, htext, hclosed⟩ := hfill {} milkTemplate hsettings
    fun p hp body hraw hbody => hbodies p hp (by simp [hraw, Placeholder.enclose, hbody])
  refine ⟨_, hd, _, rfl, ?_, ?_, hclosed⟩
  · rw [htext]
    decide +kernel
  · exact ⟨[], .template, _, by rfl⟩

end ContentWeave
