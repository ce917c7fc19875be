import ContentWeave.Proofs.Placeholder.Bodies
import ContentWeave.Proofs.Text.Places
import ContentWeave.Proofs.Text.Splitting

/-!
# Placeholders as they are written

Scanning a template yields placeholders one behind the other, and where it passes over one that is
written there, an earlier one reaches over its beginning. What a placeholder says can be written down
and is read back: the name ends at the first colon, the format at the first comma, and the parameters
at the closing brackets. In a gap without double brackets nothing begins, not even in front of a
placeholder, since a bracket is no token.
-/

namespace ContentWeave.Placeholder

open Text (Plain weave isBlank)

structure Wording where
  token : Char
  name : Text
  format : Text := []
  parameters : List Text := []

namespace Wording

def body (w : Wording) : Text := w.name ++ ':' :: (w.format ++ w.parameters.flatMap (',' :: ·))

def write (w : Wording) : Text := enclose w.token w.body

def placeholder (w : Wording) : Placeholder := ⟨w.write, w.token, w.name, w.format, w.parameters⟩

structure Legible (w : Wording) : Prop where
  token : w.token = '+' ∨ w.token = '*' ∨ w.token = '%'
  name_ne_nil : w.name ≠ []
  name : ∀ c ∈ w.name, isBlank c = false ∧ c ≠ ':' ∧ c ≠ ']'
  format_trimmed : Text.trim w.format = w.format
  format : ∀ c ∈ w.format, c ≠ ',' ∧ c ≠ ']'
  parameters : ∀ x ∈ w.parameters, ∀ c ∈ x, isBlank c = false ∧ c ≠ ',' ∧ c ≠ ']'
  /-- A single empty parameter is written as none. -/
  parameters_ne : w.parameters ≠ [[]]

instance (w : Wording) : Decidable w.Legible :=
  decidable_of_iff
    ((w.token = '+' ∨ w.token = '*' ∨ w.token = '%') ∧ w.name ≠ [] ∧
      (w.name.all fun c => !isBlank c && (c != ':' && c != ']')) = true ∧
      Text.trim w.format = w.format ∧ (w.format.all fun c => c != ',' && c != ']') = true ∧
      (w.parameters.all fun x => x.all fun c => !isBlank c && (c != ',' && c != ']')) = true ∧
      w.parameters ≠ [[]])
    ⟨fun ⟨h₁, h₂, h₃, h₄, h₅, h₆, h₇⟩ =>
        ⟨h₁, h₂, by simpa using h₃, h₄, by simpa using h₅, by simpa using h₆, h₇⟩,
      fun ⟨h₁, h₂, h₃, h₄, h₅, h₆, h₇⟩ =>
        ⟨h₁, h₂, by simpa using h₃, h₄, by simpa using h₅, by simpa using h₆, h₇⟩⟩

end Wording

theorem cutAtComma_of_notMem {s : Text} (h : ',' ∉ s) : cutAtComma s = (s, []) := by
  have hrun : Text.Leads (· != ',') s [] := Text.leads_of_notMem h (by simp)
  have htake := hrun.takeWhile_append
  have hdrop := hrun.dropWhile_append
  rw [List.append_nil] at htake hdrop
  rw [cutAtComma, htake, hdrop]
  rfl

theorem cutAtComma_append {s : Text} (h : ',' ∉ s) (rest : Text) :
    cutAtComma (s ++ ',' :: rest) = (s, rest) := by
  have hrun : Text.Leads (· != ',') s (',' :: rest) := Text.leads_of_notMem h (by simp)
  rw [cutAtComma, hrun.takeWhile_append, hrun.dropWhile_append]
  rfl

theorem parametersOf_joinWith {parameters : List Text}
    (h : ∀ x ∈ parameters, ∀ c ∈ x, isBlank c = false ∧ c ≠ ',') (hne : parameters ≠ [[]]) :
    parametersOf (Text.joinWith [','] parameters) = parameters := by
  cases parameters with
  | nil => rfl
  | cons first others =>
    have hjoin := Text.joinWith_cons ',' first others
    have hdense : (Text.joinWith [','] (first :: others)).filter (!isBlank ·) =
        Text.joinWith [','] (first :: others) := by
      refine List.filter_eq_self.2 fun c hc => ?_
      rw [hjoin, List.mem_append, List.mem_flatMap] at hc
      rcases hc with hc | ⟨x, hx, hc⟩
      · simp [(h first List.mem_cons_self c hc).1]
      · rcases List.mem_cons.1 hc with rfl | hc
        · decide
        · simp [(h x (List.mem_cons_of_mem first hx) c hc).1]
    have hfull : (Text.joinWith [','] (first :: others)).isEmpty = false := by
      rw [hjoin, List.isEmpty_eq_false_iff]
      cases first with
      | cons c cs => exact List.cons_ne_nil _ _
      | nil =>
        cases others with
        | nil => exact absurd rfl hne
        | cons next others => exact List.cons_ne_nil _ _
    have hsplit := Text.splitOn_joinWith (List.cons_ne_nil first others) fun x hx hcomma =>
      (h x hx ',' hcomma).2 rfl
    rw [parametersOf, hdense, hfull, hsplit]
    rfl

namespace Wording

variable {w : Wording}

theorem Legible.ofBody?_body (h : w.Legible) : ofBody? w.token w.body = some w.placeholder := by
  have hname : ∀ c ∈ w.name, isNameChar c = true := fun c hc =>
    isNameChar_iff.2 ⟨(h.name c hc).1, (h.name c hc).2.1⟩
  have hcomma : ',' ∉ w.format := fun hc => (h.format ',' hc).1 rfl
  have hcut : cutAtComma (w.format ++ w.parameters.flatMap (',' :: ·)) =
      (w.format, Text.joinWith [','] w.parameters) := by
    cases w.parameters with
    | nil => simpa [Text.joinWith] using cutAtComma_of_notMem hcomma
    | cons first others =>
      rw [Text.joinWith_cons, List.flatMap_cons]
      exact cutAtComma_append hcomma _
  have hparameters := parametersOf_joinWith
    (fun x hx c hc => ⟨(h.parameters x hx c hc).1, (h.parameters x hx c hc).2.1⟩) h.parameters_ne
  have hrun : Text.Leads isNameChar w.name (':' :: (w.format ++ w.parameters.flatMap (',' :: ·))) :=
    .cons hname (by decide)
  obtain ⟨c, cs, hcons⟩ := List.exists_cons_of_ne_nil h.name_ne_nil
  rw [ofBody?, body, hrun.takeWhile_append, hrun.dropWhile_append, hcons]
  simp only [Text.stripStart, if_true, Option.getD_some, hcut, hparameters, h.format_trimmed]
  rw [← hcons]
  rfl

theorem Legible.close_notMem (h : w.Legible) : ']' ∉ w.body := by
  intro hclose
  rw [body, List.mem_append, List.mem_cons, List.mem_append, List.mem_flatMap] at hclose
  rcases hclose with hc | hc | hc | ⟨x, hx, hc⟩
  · exact (h.name ']' hc).2.2 rfl
  · exact absurd hc (by decide)
  · exact (h.format ']' hc).2 rfl
  · rcases List.mem_cons.1 hc with hc | hc
    · exact absurd hc (by decide)
    · exact (h.parameters x hx ']' hc).2.2 rfl

theorem Legible.first?_write (h : w.Legible) (rest : Text) :
    pattern.first? (w.write ++ rest) = some w.placeholder := by
  have hread := h.ofBody?_body
  have hwrites : Writes w.token w.body := ⟨h.token, h.close_notMem, exists_ofBody?_iff.1 ⟨_, hread⟩⟩
  exact first?_eq_some_iff.2 ⟨w.body, hwrites, List.prefix_append w.write rest, hread⟩

theorem Legible.scan_write_append (h : w.Legible) (rest : Text) :
    scan (w.write ++ rest) = w.placeholder :: scan rest := by
  obtain ⟨tail, htail, hpieces⟩ := pattern.pieces_of_first? (h.first?_write rest)
  obtain rfl : rest = tail := List.append_cancel_left htail
  rw [scan, Text.Pattern.items, hpieces]
  rfl

end Wording

/-- What can follow a gap: nothing more, or double brackets. -/
def Follows (rest : Text) : Prop := rest = [] ∨ ['[', '['] <+: rest

theorem follows_write (w : Wording) (rest : Text) : Follows (w.write ++ rest) :=
  .inr ⟨w.token :: (w.body ++ [']', ']'] ++ rest), by simp [Wording.write, enclose]⟩

/-- No placeholder begins in a gap. A bracket at its end can make double brackets with the next one,
but then a bracket stands where the token should. -/
theorem first?_gap {c : Char} {gap rest : Text} (hgap : Plain (c :: gap)) (hrest : Follows rest) :
    pattern.first? (c :: (gap ++ rest)) = none := by
  rw [Option.eq_none_iff_forall_ne_some]
  intro p hp
  obtain ⟨body, hwrites, ⟨tail, htail⟩, -⟩ := first?_eq_some_iff.1 hp
  simp only [enclose, List.cons_append, List.nil_append, List.cons.injEq] at htail
  obtain ⟨rfl, htail⟩ := htail
  cases gap with
  | cons d gap =>
    obtain ⟨rfl, -⟩ := List.cons.inj htail
    exact hgap (List.prefix_append ['[', '['] gap).isInfix
  | nil =>
    rcases hrest with rfl | ⟨more, rfl⟩
    · cases htail
    · have htoken : p.token = '[' := (List.cons.inj (List.cons.inj htail).2).1
      rcases hwrites.token with h | h | h <;> rw [htoken] at h <;> exact absurd h (by decide)

theorem scan_gap_append {gap rest : Text} (hgap : Plain gap) (hrest : Follows rest) :
    scan (gap ++ rest) = scan rest := by
  induction gap with
  | nil => rfl
  | cons c gap ih =>
    have hpieces := pattern.pieces_cons_of_first?_eq_none (first?_gap hgap hrest)
    have hskip : scan (c :: (gap ++ rest)) = scan (gap ++ rest) := by
      rw [scan, Text.Pattern.items, hpieces]
      rfl
    rw [List.cons_append, hskip, ih hgap.tail]

/-- Wordings that are written between gaps are read back in their order. -/
theorem scan_weave {gaps : List Text} {wordings : List Wording}
    (hlength : gaps.length = wordings.length + 1) (hgaps : ∀ g ∈ gaps, Plain g)
    (h : ∀ w ∈ wordings, w.Legible) :
    scan (weave gaps (wordings.map (·.write))) = wordings.map (·.placeholder) := by
  induction wordings generalizing gaps with
  | nil =>
    obtain ⟨gap, rfl⟩ := List.length_eq_one_iff.1 hlength
    exact scan_gap_append (hgaps gap List.mem_cons_self) (.inl rfl)
  | cons w wordings ih =>
    have htexts : gaps.length = (w.write :: wordings.map (·.write)).length + 1 := by
      simpa using hlength
    obtain ⟨gap, next, gaps, rfl⟩ := Text.exists_two_gaps htexts
    have hrest := ih (by simpa using hlength) (fun g hg => hgaps g (List.mem_cons_of_mem gap hg))
      fun v hv => h v (List.mem_cons_of_mem w hv)
    rw [List.map_cons, weave, List.append_assoc,
      scan_gap_append (hgaps gap List.mem_cons_self) (follows_write w _),
      (h w List.mem_cons_self).scan_write_append, hrest, List.map_cons]

/-- Scanning finds placeholders one behind the other where they are written, and passes over one that
is written there only if one that it finds begins earlier and reaches over the first bracket. And
whatever placeholders say, if it is written between gaps it is found there, in order and unchanged. -/
theorem scan_finds_written :
    (∀ template : Text,
      (pattern.places template).map Prod.snd = scan template ∧
      (pattern.places template).Pairwise (fun x y => x.1 + x.2.raw.length ≤ y.1) ∧
      (∀ i p, (i, p) ∈ pattern.places template →
        ∃ body, Writes p.token body ∧ p.raw = enclose p.token body ∧ p.raw <+: template.drop i) ∧
      ∀ i token body, Writes token body → enclose token body <+: template.drop i →
        (∃ p, (i, p) ∈ pattern.places template ∧ p.raw = enclose token body) ∨
          ∃ j q, (j, q) ∈ pattern.places template ∧ j < i ∧ i < j + q.raw.length) ∧
    ∀ (gaps : List Text) (wordings : List Wording), gaps.length = wordings.length + 1 →
      (∀ g ∈ gaps, Plain g) → (∀ w ∈ wordings, w.Legible) →
      scan (weave gaps (wordings.map (·.write))) = wordings.map (·.placeholder) := by
  refine ⟨fun template => ⟨pattern.map_snd_places template, pattern.pairwise_places template, ?_, ?_⟩,
    fun gaps wordings => scan_weave⟩
  · intro i p hp
    obtain ⟨body, hwrites, hstart, hbody⟩ :=
      first?_eq_some_iff.1 (pattern.first?_drop_of_mem_places hp)
    have hraw := (raw_of_ofBody? hbody).1
    exact ⟨body, hwrites, hraw, hraw ▸ hstart⟩
  · intro i token body hwrites hstart
    obtain ⟨p, hp, hraw⟩ := hwrites.exists_first? hstart
    rcases pattern.mem_places_or_covered hp with hmem | hcovered
    · exact .inl ⟨p, hmem, hraw⟩
    · exact .inr hcovered

def nested : Wording where
  token := '+'
  name := "a,[[*b".toList
  format := ":x [y".toList
  parameters := [[], []]

def bare : Wording := { token := '%', name := "c".toList }

theorem scan_finds_written_nested :
    (Writes '*' "b".toList ∧ enclose '*' "b".toList <+: "[[+a[[*b]][[[%d]]".toList.drop 4 ∧
      (pattern.places "[[+a[[*b]][[[%d]]".toList).map (fun x => (x.1, x.2.raw)) =
        [(0, "[[+a[[*b]]".toList), (11, "[[%d]]".toList)] ∧
      ∃ j q, (j, q) ∈ pattern.places "[[+a[[*b]][[[%d]]".toList ∧ j < 4 ∧ 4 < j + q.raw.length) ∧
    scan "[[[+a,[[*b::x [y,,]]] [[[%c:]]".toList =
      [⟨"[[+a,[[*b::x [y,,]]".toList, '+', "a,[[*b".toList, ":x [y".toList, [[], []]⟩,
        ⟨"[[%c:]]".toList, '%', "c".toList, [], []⟩] := by
  obtain ⟨hfound, hread⟩ := scan_finds_written
  have hwrites : Writes '*' "b".toList :=
    ⟨by decide, by decide, 'b', [], rfl, by decide, by decide⟩
  have hstart : enclose '*' "b".toList <+: "[[+a[[*b]][[[%d]]".toList.drop 4 := by decide
  have hplaces : (pattern.places "[[+a[[*b]][[[%d]]".toList).map (fun x => (x.1, x.2.raw)) =
      [(0, "[[+a[[*b]]".toList), (11, "[[%d]]".toList)] := by decide +kernel
  have hlegible : ∀ w ∈ [nested, bare], w.Legible :=
    List.forall_mem_cons.2 ⟨by decide, List.forall_mem_singleton.2 (by decide)⟩
  have hcovered : ∃ j q, (j, q) ∈ pattern.places "[[+a[[*b]][[[%d]]".toList ∧ j < 4 ∧
      4 < j + q.raw.length := by
    rcases (hfound _).2.2.2 4 '*' _ hwrites hstart with ⟨p, hp, -⟩ | hcovered
    · have hmem := List.mem_map_of_mem (f := fun x => (x.1, x.2.raw)) hp
      rw [hplaces] at hmem
      simp at hmem
    · exact hcovered
  exact ⟨⟨hwrites, hstart, hplaces, hcovered⟩,
    hread [['['], "] [".toList, []] [nested, bare] rfl (by decide) hlegible⟩

end ContentWeave.Placeholder
