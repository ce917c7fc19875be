import ContentWeave.Format.Builtin
import ContentWeave.Proofs.Text.Weaving
import Mathlib.Data.List.Count

/-!
# Markup in shown text

Text that is put into a page is escaped: each character that a page would take for markup gives way
to its entity. Entities all begin with an ampersand, and no other ampersand is left, so reading them
from the left gives back the text. Line breaks are put into escaped text, where nothing else opens a
tag, so that they can be told apart from what was there.
-/

namespace ContentWeave.Format

open Text (startsWith startsWith_iff_prefix replaceAll replaceAll_append_self replaceAll_cons)

inductive Entity where
  | ampersand | less | greater | quote | apostrophe
deriving DecidableEq

namespace Entity

def all : List Entity := [ampersand, less, greater, quote, apostrophe]

def char : Entity → Char
  | ampersand => '&'
  | less => '<'
  | greater => '>'
  | quote => '"'
  | apostrophe => '\''

def text : Entity → Text
  | ampersand => "&amp;".toList
  | less => "&lt;".toList
  | greater => "&gt;".toList
  | quote => "&quot;".toList
  | apostrophe => "&#039;".toList

theorem exists_text_eq (e : Entity) :
    ∃ name : Text, e.text = '&' :: name ∧ '\n' ∉ name ∧ ∀ f : Entity, f.char ∉ name := by
  refine ⟨e.text.tail, ?_, ?_, fun f => ?_⟩
  · cases e <;> rfl
  · cases e <;> decide
  · cases e <;> cases f <;> decide

theorem mem_all (e : Entity) : e ∈ all := by cases e <;> decide

theorem eq_of_prefix_text (e f : Entity) : f.text <+: e.text → f = e := by
  cases e <;> cases f <;> decide

theorem eq_of_prefix_append {e f : Entity} {rest : Text} (h : f.text <+: e.text ++ rest) : f = e := by
  rcases List.prefix_or_prefix_of_prefix h (List.prefix_append e.text rest) with h | h
  · exact eq_of_prefix_text e f h
  · exact (eq_of_prefix_text f e h).symm

theorem eq_ampersand_of_char (e : Entity) : e.char = '&' → e = ampersand := by
  cases e <;> decide

def pattern : Text.Pattern Entity where
  first? s := all.find? fun e => startsWith e.text s
  raw := text
  raw_of_first? := by
    intro s e h
    have hstarts := List.find?_some h
    refine ⟨?_, startsWith_iff_prefix.1 hstarts⟩
    cases e <;> decide

theorem first?_eq_some_iff {s : Text} {e : Entity} : pattern.first? s = some e ↔ e.text <+: s := by
  constructor
  · intro h
    exact (pattern.raw_of_first? h).2
  · rintro ⟨rest, rfl⟩
    cases hfirst : pattern.first? (e.text ++ rest) with
    | none =>
      have hno := List.find?_eq_none.1 hfirst e (mem_all e)
      have hstarts := startsWith_iff_prefix.2 (List.prefix_append e.text rest)
      exact absurd hstarts hno
    | some f => rw [eq_of_prefix_append (pattern.raw_of_first? hfirst).2]

end Entity

/-- The text with every entity replaced by its character, from left to right. -/
def unescape (s : Text) : Text := Entity.pattern.substitute (fun e => [e.char]) s

section Escaping

variable {c : Char} {s t : Text}

theorem eq_char_or_plain (c : Char) :
    (∃ e : Entity, c = e.char) ∨ (∀ e : Entity, c ≠ e.char) ∧ escapeChar c = [c] := by
  by_cases h : ∃ e : Entity, c = e.char
  · exact .inl h
  · right
    have hne : ∀ e : Entity, c ≠ e.char := fun e he => h ⟨e, he⟩
    have hamp : c ≠ '&' := hne .ampersand
    have hless : c ≠ '<' := hne .less
    have hgreater : c ≠ '>' := hne .greater
    have hquote : c ≠ '"' := hne .quote
    have hapostrophe : c ≠ '\'' := hne .apostrophe
    exact ⟨hne, by simp [escapeChar, hamp, hless, hgreater, hquote, hapostrophe]⟩

theorem escapeChar_char (e : Entity) : escapeChar e.char = e.text := by cases e <;> rfl

@[simp] theorem escape_cons (c : Char) (s : Text) : escape (c :: s) = escapeChar c ++ escape s :=
  List.flatMap_cons

theorem unescape_entity (e : Entity) (s : Text) :
    unescape (e.text ++ s) = e.char :: unescape s := by
  have hfirst : Entity.pattern.first? (e.text ++ s) = some e :=
    Entity.first?_eq_some_iff.2 (List.prefix_append _ _)
  obtain ⟨rest, hrest, hpieces⟩ := Entity.pattern.pieces_of_first? hfirst
  obtain rfl : s = rest := List.append_cancel_left hrest
  rw [unescape, Text.Pattern.substitute, hpieces, List.flatMap_cons]
  rfl

theorem unescape_cons (hc : c ≠ '&') (s : Text) : unescape (c :: s) = c :: unescape s := by
  have hfirst : Entity.pattern.first? (c :: s) = none := by
    rw [← Option.not_isSome_iff_eq_none, Option.isSome_iff_exists]
    rintro ⟨e, he⟩
    obtain ⟨name, hname, -⟩ := e.exists_text_eq
    have hprefix := Entity.first?_eq_some_iff.1 he
    rw [hname] at hprefix
    exact hc (List.cons_prefix_cons.1 hprefix).1.symm
  rw [unescape, Text.Pattern.substitute,
    Entity.pattern.pieces_cons_of_first?_eq_none hfirst, List.flatMap_cons]
  rfl

theorem unescape_escape (s : Text) : unescape (escape s) = s := by
  induction s with
  | nil => rfl
  | cons c s ih =>
    rw [escape_cons]
    rcases eq_char_or_plain c with ⟨e, rfl⟩ | ⟨hne, hplain⟩
    · rw [escapeChar_char, unescape_entity, ih]
    · rw [hplain, List.singleton_append, unescape_cons (hne .ampersand), ih]

theorem escape_injective : Function.Injective escape :=
  Function.LeftInverse.injective unescape_escape

theorem char_notMem_escape {e : Entity} (he : e ≠ .ampersand) (s : Text) : e.char ∉ escape s := by
  induction s with
  | nil => exact List.not_mem_nil
  | cons c s ih =>
    rw [escape_cons, List.mem_append]
    rintro (hhere | hrest)
    · rcases eq_char_or_plain c with ⟨f, rfl⟩ | ⟨hne, hplain⟩
      · obtain ⟨name, hname, -, hclear⟩ := f.exists_text_eq
        rw [escapeChar_char, hname] at hhere
        rcases List.mem_cons.1 hhere with hamp | hin
        · exact he (e.eq_ampersand_of_char hamp)
        · exact hclear e hin
      · rw [hplain, List.mem_singleton] at hhere
        exact hne e hhere.symm
    · exact ih hrest

theorem cons_suffix_append {a : Char} {x y rest : Text} (h : a :: rest <:+ x ++ y) :
    a :: rest <:+ y ∨ ∃ tail, a :: tail <:+ x ∧ rest = tail ++ y := by
  induction x with
  | nil => exact .inl h
  | cons b x ih =>
    rcases List.suffix_cons_iff.1 h with heq | h
    · obtain ⟨rfl, rfl⟩ := List.cons.inj heq
      exact .inr ⟨x, List.suffix_rfl, rfl⟩
    · exact (ih h).imp_right fun ⟨tail, htail, hrest⟩ =>
        ⟨tail, htail.trans (List.suffix_cons b x), hrest⟩

theorem entity_of_ampersand {rest : Text} (h : '&' :: rest <:+ escape s) :
    ∃ e : Entity, e.text <+: '&' :: rest := by
  induction s with
  | nil => exact absurd (List.suffix_nil.1 h) (List.cons_ne_nil _ _)
  | cons c s ih =>
    rw [escape_cons] at h
    rcases cons_suffix_append h with h | ⟨tail, htail, rfl⟩
    · exact ih h
    · rcases eq_char_or_plain c with ⟨e, rfl⟩ | ⟨hne, hplain⟩
      · obtain ⟨name, hname, -, hclear⟩ := e.exists_text_eq
        rw [escapeChar_char, hname] at htail
        -- the only ampersand of an entity is its first character
        rcases List.suffix_cons_iff.1 htail with heq | hin
        · refine ⟨e, ?_⟩
          rw [hname, ← heq]
          exact List.prefix_append _ _
        · exact absurd (hin.subset List.mem_cons_self) (hclear .ampersand)
      · rw [hplain] at htail
        have hamp : '&' = c := by simpa using htail.subset List.mem_cons_self
        exact absurd hamp.symm (hne .ampersand)

theorem count_newline_escape (s : Text) : (escape s).count '\n' = s.count '\n' := by
  induction s with
  | nil => rfl
  | cons c s ih =>
    rw [escape_cons, List.count_append, ih, ← List.singleton_append, List.count_append]
    congr 1
    rcases eq_char_or_plain c with ⟨e, rfl⟩ | ⟨-, hplain⟩
    · cases e <;> decide
    · rw [hplain]

end Escaping

section Breaking

def breakTag : Text := "<br />".toList

variable {s : Text}

theorem breakTag_ne_nil : breakTag ≠ [] := by decide

@[simp] theorem breakLines_newline (s : Text) :
    breakLines ('\n' :: s) = breakTag ++ '\n' :: breakLines s := rfl

theorem breakLines_cons {c : Char} (hc : c ≠ '\n') (s : Text) :
    breakLines (c :: s) = c :: breakLines s := by
  rw [breakLines, List.flatMap_cons, if_neg hc]
  rfl

theorem breakTag_not_prefix_cons {c : Char} (hc : c ≠ '<') (s : Text) : ¬ breakTag <+: c :: s :=
  fun h => hc (List.cons_prefix_cons.1 h).1.symm

/-- Text that opens no tag is gone through as line breaks are put in: a line end gets one in front
of it, and every other character stays. -/
theorem tagless_induction {motive : (s : Text) → '<' ∉ s → Prop}
    (nil : motive [] List.not_mem_nil)
    (newline : ∀ s (hs : '<' ∉ s), motive s hs → motive ('\n' :: s) (by simpa using hs))
    (cons : ∀ c s (hc : c ≠ '<') (hs : '<' ∉ s), c ≠ '\n' → motive s hs →
      motive (c :: s) (by simpa [eq_comm] using And.intro hc hs))
    (s : Text) (hs : '<' ∉ s) : motive s hs := by
  induction s with
  | nil => exact nil
  | cons c s ih =>
    obtain ⟨hc, hrest⟩ : c ≠ '<' ∧ '<' ∉ s := by simpa [eq_comm] using hs
    by_cases hnewline : c = '\n'
    · subst hnewline
      exact newline s hrest (ih hrest)
    · exact cons c s hc hrest hnewline (ih hrest)

theorem replaceAll_breakTag_breakLines (s : Text) (hs : '<' ∉ s) :
    replaceAll breakTag [] (breakLines s) = s := by
  induction s, hs using tagless_induction with
  | nil => exact Text.replaceAll_nil
  | newline s _ ih =>
    rw [breakLines_newline, replaceAll_append_self breakTag_ne_nil, List.nil_append,
      replaceAll_cons (breakTag_not_prefix_cons (by decide) _), ih]
  | cons c s hc _ hnewline ih =>
    rw [breakLines_cons hnewline, replaceAll_cons (breakTag_not_prefix_cons hc _), ih]

def breaks (s : Text) : ℕ := s.tails.countP (startsWith breakTag)

theorem breaks_cons {c : Char} (hc : c ≠ '<') (s : Text) : breaks (c :: s) = breaks s := by
  have hno : startsWith breakTag (c :: s) = false := by
    simpa [← startsWith_iff_prefix] using breakTag_not_prefix_cons hc s
  rw [breaks, List.tails_cons, List.countP_cons_of_neg (by simp [hno])]
  rfl

theorem breaks_append {x : Text} (hx : '<' ∉ x) (s : Text) : breaks (x ++ s) = breaks s := by
  induction x with
  | nil => rfl
  | cons c x ih =>
    obtain ⟨hc, hrest⟩ : c ≠ '<' ∧ '<' ∉ x := by simpa [eq_comm] using hx
    rw [List.cons_append, breaks_cons hc, ih hrest]

theorem breaks_breakTag_append (s : Text) : breaks (breakTag ++ s) = breaks s + 1 := by
  have hhere : startsWith breakTag (breakTag ++ s) = true :=
    startsWith_iff_prefix.2 (List.prefix_append _ _)
  have hbehind : breaks (breakTag.tail ++ s) = breaks s := breaks_append (by decide) s
  have hopen : breakTag ++ s = '<' :: (breakTag.tail ++ s) := rfl
  rw [hopen] at hhere ⊢
  rw [breaks, List.tails_cons, List.countP_cons_of_pos hhere, ← hbehind]
  rfl

theorem breaks_breakLines (s : Text) (hs : '<' ∉ s) : breaks (breakLines s) = s.count '\n' := by
  induction s, hs using tagless_induction with
  | nil => decide
  | newline s _ ih =>
    rw [breakLines_newline, breaks_breakTag_append, breaks_cons (by decide), ih,
      List.count_cons_self]
  | cons c s hc _ hnewline ih =>
    rw [breakLines_cons hnewline, breaks_cons hc, ih, List.count_cons_of_ne hnewline]

theorem suffix_of_suffix_append {x t : Text} (hx : '<' ∉ x) (ht : t <:+ x ++ s)
    (htag : breakTag <+: t) : t <:+ s := by
  induction x with
  | nil => exact ht
  | cons c x ih =>
    obtain ⟨hc, hrest⟩ : c ≠ '<' ∧ '<' ∉ x := by simpa [eq_comm] using hx
    rcases List.suffix_cons_iff.1 ht with rfl | ht
    · exact absurd htag (breakTag_not_prefix_cons hc _)
    · exact ih hrest ht

theorem newline_behind_breakTag (s : Text) (hs : '<' ∉ s) :
    ∀ t, t <:+ breakLines s → breakTag <+: t → breakTag ++ ['\n'] <+: t := by
  induction s, hs using tagless_induction with
  | nil =>
    intro t ht htag
    rw [List.suffix_nil.1 ht] at htag
    exact absurd (List.prefix_nil.1 htag) breakTag_ne_nil
  | newline s _ ih =>
    intro t ht htag
    have hopen : breakLines ('\n' :: s) = '<' :: (breakTag.tail ++ ['\n'] ++ breakLines s) := rfl
    rw [hopen] at ht
    rcases List.suffix_cons_iff.1 ht with rfl | ht
    · exact ⟨breakLines s, rfl⟩
    · exact ih t (suffix_of_suffix_append (by decide) ht htag) htag
  | cons c s hc _ hnewline ih =>
    intro t ht htag
    rw [breakLines_cons hnewline, ← List.singleton_append] at ht
    exact ih t (suffix_of_suffix_append (by simpa using hc.symm) ht htag) htag

end Breaking

/-- Escaped text holds no markup but the ampersands of entities, and the entities read back as the
text, so that no two texts are escaped alike. With line breaks it has one in front of each line end
and no others, and without them it is the escaped text again. -/
theorem escaped_text_reads_back (settings : Settings) (parameters : List Value) (v : Value) :
    ∃ shown broken, Builtin.text.format settings v parameters = .ok shown ∧
      Builtin.ntext.format settings v parameters = .ok broken ∧
      (∀ c ∈ shown, c ≠ '<' ∧ c ≠ '>' ∧ c ≠ '"' ∧ c ≠ '\'') ∧
      (∀ rest, '&' :: rest <:+ shown → ∃ e : Entity, e.text <+: '&' :: rest) ∧
      unescape shown = v.display ∧
      (∀ w : Value, Builtin.text.format settings w parameters = .ok shown →
        w.display = v.display) ∧
      breaks broken = v.display.count '\n' ∧
      (∀ t, t <:+ broken → breakTag <+: t → breakTag ++ ['\n'] <+: t) ∧
      replaceAll breakTag [] broken = shown := by
  have hnot : ∀ e : Entity, e ≠ .ampersand → ∀ c ∈ escape v.display, c ≠ e.char :=
    fun e he c hc heq => char_notMem_escape he v.display (heq ▸ hc)
  have htagless : '<' ∉ escape v.display := char_notMem_escape (e := .less) (by decide) _
  refine ⟨escape v.display, breakLines (escape v.display), rfl, rfl, fun c hc => ?_,
    fun rest => entity_of_ampersand, unescape_escape _, fun w hw => ?_, ?_,
    newline_behind_breakTag _ htagless, replaceAll_breakTag_breakLines _ htagless⟩
  · exact ⟨hnot .less (by decide) c hc, hnot .greater (by decide) c hc,
      hnot .quote (by decide) c hc, hnot .apostrophe (by decide) c hc⟩
  · have hsame : escape w.display = escape v.display := Except.ok.inj hw
    exact escape_injective hsame
  · rw [breaks_breakLines _ htagless, count_newline_escape]

def notice : Value := .text "<br />&lt;\nend".toList

theorem escaped_text_reads_back_notice :
    '&' :: "amp;lt;\nend".toList <:+ escape notice.display ∧
      (∃ e : Entity, e.text <+: '&' :: "amp;lt;\nend".toList) ∧
      Builtin.text.format {} notice [] = .ok "&lt;br /&gt;&amp;lt;\nend".toList ∧
      unescape "&lt;br /&gt;&amp;lt;\nend".toList = notice.display ∧
      breakTag ++ ['\n'] <+: breakTag ++ "\nend".toList := by
  obtain ⟨shown, broken, hshown, hbroken, -, hentity, hback, -, -, hbehind, -⟩ :=
    escaped_text_reads_back {} [] notice
  obtain rfl : "&lt;br /&gt;&amp;lt;\nend".toList = shown := Except.ok.inj hshown
  obtain rfl : "&lt;br /&gt;&amp;lt;<br />\nend".toList = broken := Except.ok.inj hbroken
  refine ⟨by decide, hentity _ (by decide), hshown, hback, hbehind _ (by decide) (by decide)⟩

end ContentWeave.Format
