import ContentWeave.Argument
import ContentWeave.Proofs.Text.Runs
import Mathlib.Data.List.Infix
import Mathlib.Tactic.Common

/-!
# Assignments as they are written

The reader of a quoted literal does not know where the literal ends. It takes the first quote that
can close one and that something follows which can follow one, so a text is read back whole if no
quote inside it looks like that. Everything here is about a literal or an assignment with some
character behind it that ends it, whatever comes next.
-/

namespace ContentWeave

namespace Literal

def write : Literal → Text
  | .quoted content => ['\''] ++ content ++ ['\'']
  | .bare content => content

/-- Text that can stand between quotes, where `ends` tells the characters that end a literal. -/
structure Quotable (ends : Char → Bool) (content : Text) : Prop where
  ne_nil : content ≠ []
  no_bracket : ∀ c ∈ content, c ≠ '[' ∧ c ≠ ']'
  no_newline : '\n' ∉ content
  no_backslash_end : content.getLast? ≠ some '\\'
  inner_quote : ∀ i < content.length, content[i]? = some '\'' →
    (content.take i).getLast? = some '\\' ∨ (content.drop (i + 1)).head?.any ends = false

structure Bare (ends : Char → Bool) (content : Text) : Prop where
  ne_nil : content ≠ []
  no_bracket : ∀ c ∈ content, c ≠ '[' ∧ c ≠ ']'
  no_end : ∀ c ∈ content, ends c = false
  no_quote_start : content.head? ≠ some '\''

instance (ends : Char → Bool) (content : Text) : Decidable (Quotable ends content) :=
  decidable_of_iff
    (content ≠ [] ∧ (content.all fun c => c != '[' && c != ']') = true ∧ '\n' ∉ content ∧
      content.getLast? ≠ some '\\' ∧ ∀ i < content.length, content[i]? = some '\'' →
        (content.take i).getLast? = some '\\' ∨ (content.drop (i + 1)).head?.any ends = false)
    ⟨fun ⟨h₁, h₂, h₃, h₄, h₅⟩ => ⟨h₁, by simpa using h₂, h₃, h₄, h₅⟩,
      fun ⟨h₁, h₂, h₃, h₄, h₅⟩ => ⟨h₁, by simpa using h₂, h₃, h₄, h₅⟩⟩

instance (ends : Char → Bool) (content : Text) : Decidable (Bare ends content) :=
  decidable_of_iff
    (content ≠ [] ∧ (content.all fun c => c != '[' && c != ']') = true ∧
      (content.all fun c => !ends c) = true ∧ content.head? ≠ some '\'')
    ⟨fun ⟨h₁, h₂, h₃, h₄⟩ => ⟨h₁, by simpa using h₂, by simpa using h₃, h₄⟩,
      fun ⟨h₁, h₂, h₃, h₄⟩ => ⟨h₁, by simpa using h₂, by simpa using h₃, h₄⟩⟩

def Legible (ends : Char → Bool) : Literal → Prop
  | .quoted content => Quotable ends content
  | .bare content => Bare ends content

instance (ends : Char → Bool) : (l : Literal) → Decidable (l.Legible ends)
  | .quoted content => inferInstanceAs (Decidable (Quotable ends content))
  | .bare content => inferInstanceAs (Decidable (Bare ends content))

theorem Legible.no_bracket {ends : Char → Bool} {l : Literal} (h : l.Legible ends) :
    ∀ c ∈ l.write, c ≠ '[' ∧ c ≠ ']' := by
  intro c hc
  cases l with
  | quoted content =>
    rcases List.mem_append.1 hc with hc | hc
    · rcases List.mem_append.1 hc with hc | hc
      · simp [List.mem_singleton.1 hc]
      · exact Quotable.no_bracket h c hc
    · simp [List.mem_singleton.1 hc]
  | bare content => exact Bare.no_bracket h c hc

end Literal

namespace Assignment

open Literal (Quotable Bare)

theorem isValueEnd_of_isEnd {c : Char} (h : isEnd c = true) : isValueEnd c = true := by
  simp [isValueEnd, h]

theorem ne_pipe_of_isEnd {c : Char} (h : isEnd c = true) : c ≠ '|' := by
  rintro rfl
  exact absurd h (by decide)

theorem canClose_reverse_iff {s : Text} :
    canClose s.reverse = true ↔ s ≠ [] ∧ s.getLast? ≠ some '\\' := by
  rcases s.eq_nil_or_concat with rfl | ⟨front, last, rfl⟩
  · simp [canClose]
  · simp [canClose]

section Reading

/-! A reader stops at closing brackets and at what ends a literal, and never at a quote. -/

variable {stop ends : Char → Bool}

/-- What stops a reader of literals that end where `ends` says. -/
structure Stops (stop ends : Char → Bool) : Prop where
  iff : ∀ c, stop c = true ↔ c = ']' ∨ ends c = true
  quote : stop '\'' = false

theorem Stops.not_stop (hs : Stops stop ends) {c : Char} (hc : c ≠ ']') (he : ends c = false) :
    stop c = false := by
  rw [Bool.eq_false_iff, ne_eq, hs.iff]
  simp [hc, he]

theorem Stops.ne_quote (hs : Stops stop ends) {c : Char} (hc : stop c = true) : c ≠ '\'' := by
  rintro rfl
  rw [hs.quote] at hc
  exact Bool.false_ne_true hc

theorem Stops.inner_open (hs : Stops stop ends) {front back : Text}
    (h : Quotable ends (front ++ '\'' :: back)) (hclose : canClose front.reverse = true)
    (tail : Text) : endAt? stop (back ++ '\'' :: tail) = none := by
  have hfront := (canClose_reverse_iff.1 hclose).2
  have hinner := h.inner_quote front.length (by simp) (by simp)
  cases back with
  | nil => simp [endAt?, hs.quote]
  | cons d back =>
    have hd : ends d = false := by
      simpa [hfront] using hinner
    have hbracket := (h.no_bracket d (by simp)).2
    simp [endAt?, hs.not_stop hbracket hd]

theorem quotedFrom?_cons {c : Char} {reversed cs : Text}
    (hopen : c = '\'' → canClose reversed = true → endAt? stop cs = none)
    (hline : reversed.head? ≠ some '\n') :
    quotedFrom? stop reversed (c :: cs) = quotedFrom? stop (c :: reversed) cs := by
  have hclosed : (if c = '\'' ∧ canClose reversed = true then endAt? stop cs else none) = none := by
    split_ifs with hc
    · exact hopen hc.1 hc.2
    · rfl
  rw [quotedFrom?, hclosed]
  rintro tail rfl
  exact hline rfl

theorem quotedFrom?_content (hs : Stops stop ends) {e : Char} (he : stop e = true) (rest : Text)
    (front : Text) {back : Text} (h : Quotable ends (front ++ back)) :
    quotedFrom? stop front.reverse (back ++ '\'' :: e :: rest) =
      some (.quoted (front ++ back), e, rest) := by
  induction back generalizing front with
  | nil =>
    have hclose : canClose front.reverse = true := by
      refine canClose_reverse_iff.2 ⟨?_, ?_⟩
      · simpa using h.ne_nil
      · simpa using h.no_backslash_end
    simp [quotedFrom?, endAt?, he, hclose]
  | cons c back ih =>
    have hopen : c = '\'' → canClose front.reverse = true →
        endAt? stop (back ++ '\'' :: e :: rest) = none := by
      rintro rfl hclose
      exact hs.inner_open h hclose (e :: rest)
    have hline : front.reverse.head? ≠ some '\n' := by
      rw [List.head?_reverse]
      exact fun hl => h.no_newline (List.mem_append_left _ (List.mem_of_getLast? hl))
    have hnext := ih (front ++ [c]) (by simpa using h)
    rw [List.reverse_concat, List.append_assoc, List.singleton_append] at hnext
    rw [List.cons_append, quotedFrom?_cons hopen hline, hnext]

theorem literalAt?_quoted (hs : Stops stop ends) {e : Char} (he : stop e = true) (rest : Text)
    {content : Text} (h : Quotable ends content) :
    literalAt? stop ((Literal.quoted content).write ++ e :: rest) =
      some (.quoted content, e, rest) := by
  have hread := quotedFrom?_content hs he rest [] h
  rw [List.reverse_nil, List.nil_append] at hread
  simp [Literal.write, literalAt?, quotedAt?, hread]

theorem literalAt?_bare (hs : Stops stop ends) {e : Char} (he : stop e = true) (rest : Text)
    {content : Text} (hcontent : ∀ c ∈ content, stop c = false)
    (hquote : content.head? ≠ some '\'') :
    literalAt? stop (content ++ e :: rest) = some (.bare content, e, rest) := by
  have hunquoted : quotedAt? stop (content ++ e :: rest) = none := by
    cases content with
    | nil => simp [quotedAt?, hs.ne_quote he]
    | cons c content =>
      have hc : c ≠ '\'' := by simpa using hquote
      simp [quotedAt?, hc]
  have hrun : Text.Leads (!stop ·) content (e :: rest) :=
    .cons (by simpa using hcontent) (by simpa using he)
  rw [literalAt?, hunquoted, bareAt?, hrun.takeWhile_append, hrun.dropWhile_append]
  rfl

/-- A literal is read back with what ends it and what follows. -/
theorem literalAt?_write (hs : Stops stop ends) {e : Char} (he : stop e = true) (rest : Text)
    {l : Literal} (h : l.Legible ends) :
    literalAt? stop (l.write ++ e :: rest) = some (l, e, rest) := by
  cases l with
  | quoted content => exact literalAt?_quoted hs he rest h
  | bare content =>
    have hbare : Bare ends content := h
    exact literalAt?_bare hs he rest
      (fun c hc => hs.not_stop (hbare.no_bracket c hc).2 (hbare.no_end c hc))
      hbare.no_quote_start

end Reading

def endsValue (c : Char) : Bool := Text.isBlank c || c == '|'

theorem stops_value : Stops isValueEnd endsValue :=
  ⟨fun c => by simp [isValueEnd, isEnd, endsValue, or_assoc], by decide⟩

theorem stops_default : Stops isEnd Text.isBlank :=
  ⟨fun c => by simp [isEnd], by decide⟩

def writeDefault : Option Literal → Text
  | none => []
  | some default => '|' :: default.write

def writeValue (a : Assignment) : Text := a.value.write ++ writeDefault a.default

def write (a : Assignment) : Text := a.name ++ '=' :: a.writeValue

/-- Assignments that are read back as they are written. The value may be missing. -/
structure Legible (a : Assignment) : Prop where
  name_ne_nil : a.name ≠ []
  name_word : ∀ c ∈ a.name, Text.isWordChar c = true
  value : a.value = .bare [] ∨ a.value.Legible endsValue
  default : ∀ d ∈ a.default, d.Legible Text.isBlank

instance (a : Assignment) : Decidable a.Legible :=
  decidable_of_iff
    (a.name ≠ [] ∧ a.name.all Text.isWordChar = true ∧
      (a.value = .bare [] ∨ a.value.Legible endsValue) ∧
      ∀ d ∈ a.default, d.Legible Text.isBlank)
    ⟨fun ⟨h₁, h₂, h₃, h₄⟩ => ⟨h₁, List.all_eq_true.1 h₂, h₃, h₄⟩,
      fun ⟨h₁, h₂, h₃, h₄⟩ => ⟨h₁, List.all_eq_true.2 h₂, h₃, h₄⟩⟩

section Legible

variable {a : Assignment} {e : Char}

theorem literalAt?_value (ha : a.Legible) (he : isValueEnd e = true) (rest : Text) :
    literalAt? isValueEnd (a.value.write ++ e :: rest) = some (a.value, e, rest) := by
  rcases ha.value with hv | hv
  · rw [hv]
    exact literalAt?_bare stops_value he rest (List.forall_mem_nil _) (by decide)
  · exact literalAt?_write stops_value he rest hv

theorem valuesAt?_write (ha : a.Legible) (he : isEnd e = true) (rest : Text) :
    valuesAt? (a.writeValue ++ e :: rest) = some (a.value, a.default, rest) := by
  unfold writeValue valuesAt?
  cases hd : a.default with
  | none =>
    simp [writeDefault, literalAt?_value ha (isValueEnd_of_isEnd he), ne_pipe_of_isEnd he]
  | some d =>
    have hbar : isValueEnd '|' = true := by decide
    have hread := literalAt?_write stops_default he rest (ha.default d hd)
    simp [writeDefault, literalAt?_value ha hbar, hread]

end Legible

theorem allFrom_skip (x s : Text) : allFrom x.length [] (x ++ s) = allFrom 0 [] s := by
  induction x with
  | nil => rfl
  | cons c x ih => simpa [allFrom] using ih

theorem ne_equals_of_isWordChar {c : Char} (h : Text.isWordChar c = true) : c ≠ '=' := by
  rintro rfl
  exact absurd h (by decide)

theorem allFrom_word {w : Text} (hw : ∀ c ∈ w, Text.isWordChar c = true) (reversed s : Text) :
    allFrom 0 reversed (w ++ s) = allFrom 0 (w.reverse ++ reversed) s := by
  induction w generalizing reversed with
  | nil => rfl
  | cons c w ih =>
    have hc := hw c (by simp)
    have hrest := ih (fun d hd => hw d (by simp [hd])) (c :: reversed)
    simp [allFrom, ne_equals_of_isWordChar hc, hc, hrest]

theorem allFrom_pass {x : Text} (hx : ∀ c ∈ x, c ≠ '=') {e : Char} (he : e ≠ '=')
    (hword : Text.isWordChar e = false) (reversed s : Text) :
    allFrom 0 reversed (x ++ e :: s) = allFrom 0 [] s := by
  induction x generalizing reversed with
  | nil => simp [allFrom, he, hword]
  | cons c x ih =>
    have hrest := ih fun d hd => hx d (by simp [hd])
    by_cases hc : Text.isWordChar c = true <;> simp [allFrom, hx c (by simp), hc, hrest]

theorem allFrom_write {a : Assignment} (ha : a.Legible) {e : Char} (he : isEnd e = true)
    (rest : Text) : allFrom 0 [] (a.write ++ e :: rest) = a :: allFrom 0 [] rest := by
  have hname := allFrom_word ha.name_word [] ('=' :: (a.writeValue ++ e :: rest))
  have hskip := allFrom_skip (a.writeValue ++ [e]) rest
  have hlength : (a.writeValue ++ e :: rest).length - rest.length =
      (a.writeValue ++ [e]).length := by
    simp only [List.length_append, List.length_cons, List.length_nil]
    omega
  rw [List.append_assoc, List.singleton_append] at hskip
  rw [write, List.append_assoc, List.cons_append, hname, allFrom, if_pos rfl,
    valuesAt?_write ha he]
  simp only [hlength, hskip, List.append_nil, List.reverse_reverse]

end Assignment
end ContentWeave
