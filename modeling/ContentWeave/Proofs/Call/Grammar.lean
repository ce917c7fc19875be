import ContentWeave.Proofs.Call.Written
import Mathlib.Data.List.DropRight

/-!
# The grammar of assignments

Assignments are read one after the other, each at the next `=`. A quoted literal is the shortest
text between quotes of which the closing one ends it; where there is none, a literal is all text up
to the first character that ends one. The grammar says this without a reader. It reads every text
that ends with a bracket, in one way only, and that is what the reader makes of it.
-/

namespace ContentWeave

namespace Literal

structure Closable (content : Text) : Prop where
  ne_nil : content ≠ []
  no_backslash_end : content.getLast? ≠ some '\\'
  newline_last : '\n' ∉ content.dropLast

/-- A text begins with content that a quote closes. Right behind the quote stands a character that
ends a literal, and then the rest. -/
structure Closes (ends : Char → Bool) (s content : Text) (e : Char) (rest : Text) : Prop where
  text_eq : s = content ++ '\'' :: e :: rest
  closable : Closable content
  ends : ends e = true

/-- A text begins with a literal, a character that ends it stands behind, and then the rest. -/
inductive Reads (ends : Char → Bool) : Literal → Text → Char → Text → Prop
  | quoted {s content rest : Text} {e : Char} (h : Closes ends s content e rest)
      (shortest : ∀ other e' rest', Closes ends s other e' rest' →
        content.length ≤ other.length) :
      Reads ends (.quoted content) ('\'' :: s) e rest
  | bare {content rest : Text} {e : Char}
      (unclosed : ∀ s, content ++ e :: rest = '\'' :: s →
        ∀ other e' rest', ¬ Closes ends s other e' rest')
      (hcontent : ∀ c ∈ content, ends c = false) (he : ends e = true) :
      Reads ends (.bare content) (content ++ e :: rest) e rest

theorem Reads.exists_append {ends : Char → Bool} {s rest : Text} {l : Literal} {e : Char}
    (h : l.Reads ends s e rest) : ∃ written, s = written ++ e :: rest ∧ ends e = true := by
  cases h with
  | @quoted t content _ _ h _ => exact ⟨'\'' :: content ++ ['\''], by simp [h.text_eq], h.ends⟩
  | @bare content _ _ _ _ he => exact ⟨content, rfl, he⟩

section Reading

variable {ends : Char → Bool} {s rest : Text} {e : Char} {l : Literal}

open Assignment (canClose canClose_reverse_iff endAt? quotedFrom? quotedFrom?_cons quotedAt?
  bareAt? literalAt?)

theorem endAt?_eq_some_iff : endAt? ends s = some (e, rest) ↔ s = e :: rest ∧ ends e = true := by
  cases s with
  | nil => simp [endAt?]
  | cons c s =>
    by_cases hc : ends c = true
    · simp only [endAt?, hc, if_true, Option.some.injEq, Prod.mk.injEq, List.cons.injEq]
      exact ⟨fun h => ⟨h, h.1 ▸ hc⟩, fun h => h.1⟩
    · simp only [endAt?, hc, Option.ite_none_right_eq_some, List.cons.injEq]
      exact ⟨fun h => absurd h.1 (by simp), fun h => absurd (h.1.1 ▸ h.2) hc⟩

theorem quotedFrom?_step (ends : Char → Bool) (front s : Text) (c : Char) :
    (∃ e rest, c :: s = '\'' :: e :: rest ∧ canClose front.reverse = true ∧ ends e = true ∧
        quotedFrom? ends front.reverse (c :: s) = some (.quoted front, e, rest)) ∨
      (¬ ∃ e rest, c :: s = '\'' :: e :: rest ∧ canClose front.reverse = true ∧ ends e = true) ∧
        (front.getLast? = some '\n' ∧ quotedFrom? ends front.reverse (c :: s) = none ∨
          front.getLast? ≠ some '\n' ∧ quotedFrom? ends front.reverse (c :: s) =
            quotedFrom? ends (front ++ [c]).reverse s) := by
  by_cases hclose : ∃ e rest, c :: s = '\'' :: e :: rest ∧ canClose front.reverse = true ∧
      ends e = true
  · left
    obtain ⟨e, rest, hs, hcan, he⟩ := hclose
    obtain ⟨rfl, rfl⟩ := List.cons.inj hs
    exact ⟨e, rest, rfl, hcan, he, by simp [quotedFrom?, endAt?, hcan, he]⟩
  · refine .inr ⟨hclose, ?_⟩
    have hopen : c = '\'' → canClose front.reverse = true → endAt? ends s = none := by
      rintro rfl hcan
      refine Option.eq_none_iff_forall_ne_some.2 fun found hend => hclose ?_
      obtain ⟨e, rest⟩ := found
      obtain ⟨rfl, he⟩ := endAt?_eq_some_iff.1 hend
      exact ⟨e, rest, rfl, hcan, he⟩
    by_cases hline : front.getLast? = some '\n'
    · refine .inl ⟨hline, ?_⟩
      have hclosed : (if c = '\'' ∧ canClose front.reverse = true then endAt? ends s else none) =
          none := by
        split_ifs with hc
        · exact hopen hc.1 hc.2
        · rfl
      obtain ⟨before, hbefore⟩ := List.getLast?_eq_some_iff.1 hline
      unfold quotedFrom?
      rw [hclosed, hbefore, List.reverse_concat]
      rfl
    · refine .inr ⟨hline, ?_⟩
      rw [List.reverse_concat]
      exact quotedFrom?_cons hopen (by rwa [List.head?_reverse])

theorem closes_of_quotedFrom? (front : Text) (hfront : '\n' ∉ front.dropLast)
    (h : quotedFrom? ends front.reverse s = some (l, e, rest)) :
    ∃ more, l = .quoted (front ++ more) ∧ Closes ends (front ++ s) (front ++ more) e rest := by
  induction s generalizing front with
  | nil => simp [quotedFrom?] at h
  | cons c s ih =>
    rcases quotedFrom?_step ends front s c with
      ⟨e', rest', hs, hcan, he, hread⟩ | ⟨-, ⟨-, hread⟩ | ⟨hline, hread⟩⟩
    · rw [hread] at h
      cases h
      obtain ⟨hne, hback⟩ := canClose_reverse_iff.1 hcan
      exact ⟨[], by simp, by simp [hs], by simpa using ⟨hne, hback, hfront⟩, he⟩
    · rw [hread] at h
      cases h
    · rw [hread] at h
      have hlast : '\n' ∉ (front ++ [c]).dropLast := by
        rw [List.dropLast_concat]
        intro hmem
        rcases front.eq_nil_or_concat with rfl | ⟨before, last, rfl⟩
        · simp at hmem
        · rw [List.concat_eq_append] at hfront hline hmem
          rw [List.dropLast_concat] at hfront
          rcases List.mem_append.1 hmem with hmem | hmem
          · exact hfront hmem
          · rw [← List.mem_singleton.1 hmem] at hline
            exact hline (by simp)
      obtain ⟨more, hl, hcloses⟩ := ih (front ++ [c]) hlast h
      exact ⟨c :: more, by simpa using hl, by simpa using hcloses⟩

theorem exists_quotedFrom?_of_closes (front : Text) {other rest' : Text} {e' : Char}
    (h : Closes ends (front ++ s) (front ++ other) e' rest') :
    ∃ more e rest, quotedFrom? ends front.reverse s = some (.quoted (front ++ more), e, rest) ∧
      more.length ≤ other.length := by
  have hs : s = other ++ '\'' :: e' :: rest' := by
    have htext := h.text_eq
    rw [List.append_assoc] at htext
    exact List.append_cancel_left htext
  induction other generalizing front s with
  | nil =>
    rw [List.append_nil] at h
    have hcan := canClose_reverse_iff.2 ⟨h.closable.ne_nil, h.closable.no_backslash_end⟩
    refine ⟨[], e', rest', ?_, Nat.le_refl _⟩
    simp [hs, quotedFrom?, endAt?, hcan, h.ends]
  | cons c other ih =>
    subst hs
    rcases quotedFrom?_step ends front (other ++ '\'' :: e' :: rest') c with
      ⟨e, rest, -, -, -, hread⟩ | ⟨-, ⟨hline, -⟩ | ⟨-, hread⟩⟩
    · exact ⟨[], e, rest, by simpa using hread, Nat.zero_le _⟩
    · -- a line end that is not the last character cannot be closed
      refine absurd ?_ h.closable.newline_last
      rw [List.dropLast_append_of_ne_nil (List.cons_ne_nil c other)]
      exact List.mem_append_left _ (List.mem_of_getLast? hline)
    · obtain ⟨more, e, rest, hmore, hle⟩ := ih (front ++ [c]) (by simpa using h) rfl
      refine ⟨c :: more, e, rest, ?_, Nat.succ_le_succ hle⟩
      rw [List.cons_append, hread, hmore]
      simp

theorem quotedFrom?_eq_some_iff :
    quotedFrom? ends [] s = some (l, e, rest) ↔
      ∃ content, l = .quoted content ∧ Closes ends s content e rest ∧
        ∀ other e' rest', Closes ends s other e' rest' → content.length ≤ other.length := by
  constructor
  · intro h
    obtain ⟨content, hl, hcloses⟩ := closes_of_quotedFrom? [] (by simp) h
    refine ⟨content, by simpa using hl, by simpa using hcloses, fun other e' rest' hother => ?_⟩
    obtain ⟨more, e₁, rest₁, hmore, hle⟩ := exists_quotedFrom?_of_closes [] hother
    have hsame := h.symm.trans hmore
    cases hl
    cases hsame
    exact hle
  · rintro ⟨content, rfl, hcloses, hshortest⟩
    obtain ⟨more, e₁, rest₁, hmore, hle⟩ := exists_quotedFrom?_of_closes [] hcloses
    have hfound := closes_of_quotedFrom? [] (by simp) hmore
    obtain ⟨more', hl, hmore'⟩ := hfound
    cases hl
    -- two contents of one length in front of one text
    have hlength := Nat.le_antisymm hle (hshortest _ _ _ hmore')
    obtain ⟨hcontent, hrest⟩ :=
      List.append_inj (hmore'.text_eq.symm.trans hcloses.text_eq) hlength
    cases hcontent
    cases hrest
    exact hmore

theorem quotedAt?_eq_none_of_unclosed
    (h : ∀ t, s = '\'' :: t → ∀ other e' rest', ¬ Closes ends t other e' rest') :
    quotedAt? ends s = none := by
  unfold quotedAt?
  split
  · rename_i t
    refine Option.eq_none_iff_forall_ne_some.2 fun found hread => ?_
    obtain ⟨l, e, rest⟩ := found
    obtain ⟨content, -, hcloses, -⟩ := quotedFrom?_eq_some_iff.1 hread
    exact h t rfl _ _ _ hcloses
  · rfl

theorem bareAt?_eq_some_iff :
    bareAt? ends s = some (l, e, rest) ↔
      ∃ content, l = .bare content ∧ s = content ++ e :: rest ∧ (∀ c ∈ content, ends c = false) ∧
        ends e = true := by
  constructor
  · intro h
    have hcut := List.takeWhile_append_dropWhile (p := (!ends ·)) (l := s)
    have hrun := Text.leads_cut (!ends ·) s
    unfold bareAt? at h
    split at h
    · rename_i e' rest' hdrop
      cases h
      rw [hdrop] at hcut hrun
      exact ⟨_, rfl, hcut.symm, by simpa using hrun.all, by simpa using hrun.ends⟩
    · cases h
  · rintro ⟨content, rfl, rfl, hcontent, he⟩
    have hrun : Text.Leads (!ends ·) content (e :: rest) :=
      .cons (by simpa using hcontent) (by simpa using he)
    rw [bareAt?, hrun.takeWhile_append, hrun.dropWhile_append]

theorem literalAt?_eq_some_iff :
    literalAt? ends s = some (l, e, rest) ↔ l.Reads ends s e rest := by
  rw [literalAt?, Option.or_eq_some_iff, bareAt?_eq_some_iff]
  constructor
  · rintro (h | ⟨h, content, rfl, rfl, hcontent, he⟩)
    · unfold quotedAt? at h
      split at h
      · obtain ⟨content, rfl, hcloses, hshortest⟩ := quotedFrom?_eq_some_iff.1 h
        exact .quoted hcloses hshortest
      · cases h
    · refine .bare ?_ hcontent he
      rintro t ht other e' rest' hcloses
      obtain ⟨more, e₁, rest₁, hmore, -⟩ := exists_quotedFrom?_of_closes [] hcloses
      rw [ht] at h
      exact absurd (h.symm.trans hmore) (by simp)
  · intro h
    cases h with
    | quoted hcloses hshortest =>
      exact .inl (quotedFrom?_eq_some_iff.2 ⟨_, rfl, hcloses, hshortest⟩)
    | bare hunclosed hcontent he =>
      exact .inr ⟨quotedAt?_eq_none_of_unclosed hunclosed, _, rfl, rfl, hcontent, he⟩

end Reading

theorem Reads.value?_eq_meaning? {ends : Char → Bool} {s rest : Text} {l : Literal} {e : Char}
    (h : l.Reads ends s e rest) (hblank : ∀ c, Text.isBlank c = true → ends c = true) :
    l.value? = l.meaning? := by
  cases h with
  | quoted hcloses _ =>
    refine Literal.value?_eq_meaning? (fun content hl => ?_) (fun content hl => ?_)
    · cases hl
      exact hcloses.closable.ne_nil
    · cases hl
  | bare _ hcontent _ =>
    refine Literal.value?_eq_meaning? (fun content hl => ?_) (fun content hl c hc => ?_)
    · cases hl
    · cases hl
      have hend := hcontent c (List.mem_of_head? hc)
      exact Bool.eq_false_iff.2 fun hb => by simp [hblank c hb] at hend

end Literal

def Text.Closed (s : Text) : Prop := ∀ c ∈ s.getLast?, c = ']'

theorem Text.Closed.of_append (front : Text) {s : Text} (h : Closed (front ++ s)) : Closed s := by
  intro c hc
  refine h c ?_
  rw [List.getLast?_append, Option.mem_def.1 hc]
  rfl

namespace Assignment

inductive ReadsValues : Text → Literal → Option Literal → Text → Prop
  | plain {s rest : Text} {value : Literal} {e : Char} (h : value.Reads isValueEnd s e rest)
      (he : e ≠ '|') : ReadsValues s value none rest
  | default {s after rest : Text} {value default : Literal} {e : Char}
      (h : value.Reads isValueEnd s '|' after) (hd : default.Reads isEnd after e rest) :
      ReadsValues s value (some default) rest

/-- The assignments of a text. Each stands at the next `=`, behind the longest word that ends there,
and the next one is looked for behind what ends it. -/
inductive Reads : Text → List Assignment → Prop
  | done {s : Text} (h : '=' ∉ s) : Reads s []
  | next {front name after rest : Text} {value : Literal} {default : Option Literal}
      {as : List Assignment} (hfront : '=' ∉ front)
      (hname : ∀ c ∈ name, Text.isWordChar c = true)
      (longest : ∀ c ∈ front.getLast?, Text.isWordChar c = false)
      (hvalues : ReadsValues after value default rest) (h : Reads rest as) :
      Reads (front ++ name ++ '=' :: after) (⟨name, value, default⟩ :: as)

section Values

variable {s rest : Text} {value : Literal} {default : Option Literal}

theorem valuesAt?_eq_some_iff :
    valuesAt? s = some (value, default, rest) ↔ ReadsValues s value default rest := by
  constructor
  · intro h
    unfold valuesAt? at h
    split at h
    · cases h
    · rename_i v c after hread
      have hvalue := Literal.literalAt?_eq_some_iff.1 hread
      split_ifs at h with hc
      · subst hc
        obtain ⟨⟨d, e, rest'⟩, hd, hmade⟩ := Option.map_eq_some_iff.1 h
        cases hmade
        exact .default hvalue (Literal.literalAt?_eq_some_iff.1 hd)
      · cases h
        exact .plain hvalue hc
  · intro h
    cases h with
    | plain h he => simp [valuesAt?, Literal.literalAt?_eq_some_iff.2 h, he]
    | default h hd =>
      simp [valuesAt?, Literal.literalAt?_eq_some_iff.2 h, Literal.literalAt?_eq_some_iff.2 hd]

theorem ReadsValues.exists_append (h : ReadsValues s value default rest) :
    ∃ written, s = written ++ rest := by
  cases h with
  | @plain _ _ e h _ =>
    obtain ⟨written, hs, -⟩ := h.exists_append
    exact ⟨written ++ [e], by simp [hs]⟩
  | @default _ after _ d e h hd =>
    obtain ⟨written, hs, -⟩ := h.exists_append
    obtain ⟨written', hafter, -⟩ := hd.exists_append
    exact ⟨written ++ '|' :: written' ++ [e], by simp [hs, hafter]⟩

theorem exists_literal (ends : Char → Bool) (hbracket : ends ']' = true) {s : Text} (hs : s.Closed)
    (hne : s ≠ []) : ∃ l e rest, Literal.Reads ends l s e rest := by
  have hstops : ∃ c ∈ s, ends c = true := by
    rcases s.eq_nil_or_concat with rfl | ⟨front, last, rfl⟩
    · exact absurd rfl hne
    · obtain rfl : last = ']' := hs last (by simp)
      exact ⟨']', by simp, hbracket⟩
  have hbare : (bareAt? ends s).isSome = true := by
    unfold bareAt?
    split
    · rfl
    · rename_i hdrop
      obtain ⟨c, hc, he⟩ := hstops
      have hall := List.dropWhile_eq_nil_iff.1 hdrop c hc
      simp [he] at hall
  have hsome : (literalAt? ends s).isSome = true := by
    simp [literalAt?, Option.isSome_or, hbare]
  obtain ⟨⟨l, e, rest⟩, hread⟩ := Option.isSome_iff_exists.1 hsome
  exact ⟨l, e, rest, Literal.literalAt?_eq_some_iff.1 hread⟩

theorem exists_values {s : Text} (hs : s.Closed) (hne : s ≠ []) :
    ∃ value default rest, ReadsValues s value default rest := by
  obtain ⟨value, e, after, hvalue⟩ := exists_literal isValueEnd (by decide) hs hne
  by_cases he : e = '|'
  · subst he
    obtain ⟨written, hwritten, -⟩ := hvalue.exists_append
    have hclosed : Text.Closed ('|' :: after) := Text.Closed.of_append written (hwritten ▸ hs)
    have hafter : after ≠ [] := by
      rintro rfl
      exact absurd (hclosed '|' rfl) (by decide)
    obtain ⟨default, e, rest, hdefault⟩ :=
      exists_literal isEnd (by decide) (Text.Closed.of_append ['|'] hclosed)
        hafter
    exact ⟨value, some default, rest, .default hvalue hdefault⟩
  · exact ⟨value, none, after, .plain hvalue he⟩

end Values

theorem allFrom_front {front : Text} (hfront : '=' ∉ front)
    (hlast : ∀ c ∈ front.getLast?, Text.isWordChar c = false) (s : Text) :
    allFrom 0 [] (front ++ s) = allFrom 0 [] s := by
  rcases front.eq_nil_or_concat with rfl | ⟨before, last, rfl⟩
  · rfl
  · rw [List.concat_eq_append] at hfront hlast ⊢
    rw [List.append_assoc, List.singleton_append]
    refine allFrom_pass (fun c hc => ?_) ?_ (hlast last (by simp)) [] s
    · rintro rfl
      exact hfront (by simp [hc])
    · rintro rfl
      exact hfront (by simp)

theorem all_of_values {front name after rest : Text} {value : Literal} {default : Option Literal}
    (hfront : '=' ∉ front) (hname : ∀ c ∈ name, Text.isWordChar c = true)
    (hlast : ∀ c ∈ front.getLast?, Text.isWordChar c = false)
    (hvalues : ReadsValues after value default rest) :
    all (front ++ name ++ '=' :: after) = ⟨name, value, default⟩ :: all rest := by
  obtain ⟨written, rfl⟩ := hvalues.exists_append
  have hread := valuesAt?_eq_some_iff.2 hvalues
  have hlength : (written ++ rest).length - rest.length = written.length := by simp
  rw [all, List.append_assoc, allFrom_front hfront hlast, allFrom_word hname, allFrom, if_pos rfl,
    hread]
  simp only [hlength, allFrom_skip, List.append_nil, List.reverse_reverse, all]

theorem allFrom_of_notMem {s : Text} (h : '=' ∉ s) (reversed : Text) :
    allFrom 0 reversed s = [] := by
  induction s generalizing reversed with
  | nil => rfl
  | cons c s ih =>
    obtain ⟨hc, hs⟩ : '=' ≠ c ∧ '=' ∉ s := by simpa using h
    by_cases hw : Text.isWordChar c = true <;> simp [allFrom, Ne.symm hc, hw, ih hs]

/-- The grammar reads a text in one way only, which is the reader's. -/
theorem Reads.all_eq {s : Text} {as : List Assignment} (h : Reads s as) : all s = as := by
  induction h with
  | done h => exact allFrom_of_notMem h []
  | next hfront hname longest hvalues _ ih =>
    rw [all_of_values hfront hname longest hvalues, ih]

theorem longest_rdropWhile (s : Text) :
    ∀ c ∈ (s.rdropWhile Text.isWordChar).getLast?, Text.isWordChar c = false := by
  intro c hc
  obtain ⟨hne, rfl⟩ := List.mem_getLast?_eq_getLast hc
  simpa using List.rdropWhile_last_not Text.isWordChar s hne

theorem exists_reads {s : Text} (hs : s.Closed) : ∃ as, Reads s as := by
  generalize hn : s.length = n
  induction n using Nat.strongRecOn generalizing s with
  | ind n ih =>
    by_cases hmem : '=' ∈ s
    · obtain ⟨before, after, rfl, hbefore⟩ := List.eq_append_cons_of_mem hmem
      have hclosed : Text.Closed ('=' :: after) := Text.Closed.of_append before hs
      have hafter : after ≠ [] := by
        rintro rfl
        exact absurd (hclosed '=' rfl) (by decide)
      obtain ⟨value, default, rest, hvalues⟩ :=
        exists_values (Text.Closed.of_append ['='] hclosed) hafter
      obtain ⟨written, rfl⟩ := hvalues.exists_append
      have hrest : Text.Closed rest := Text.Closed.of_append ('=' :: written) hclosed
      obtain ⟨as, has⟩ := ih rest.length (by simp at hn; omega) hrest rfl
      -- the name is the longest word in front of the sign
      have hcut := List.rdropWhile_append_rtakeWhile (p := Text.isWordChar) (l := before)
      rw [← hcut]
      exact ⟨_, .next (fun h => hbefore ((List.rdropWhile_prefix _ _).subset h))
        (fun c hc => List.mem_rtakeWhile_imp hc) (longest_rdropWhile before) hvalues has⟩
    · exact ⟨[], .done hmem⟩

theorem reads_iff {s : Text} (hs : s.Closed) {as : List Assignment} :
    Reads s as ↔ as = all s := by
  constructor
  · intro h
    exact h.all_eq.symm
  · rintro rfl
    obtain ⟨as, has⟩ := exists_reads hs
    exact has.all_eq ▸ has

theorem ReadsValues.meant {s rest name : Text} {value : Literal} {default : Option Literal}
    (h : ReadsValues s value default rest) (hname : ∀ c ∈ name, Text.isWordChar c = true) :
    Meant ⟨name, value, default⟩ := by
  have hblank : ∀ c, Text.isBlank c = true → isValueEnd c = true := by
    intro c hc
    simp [isValueEnd, isEnd, hc]
  cases h with
  | plain h _ => exact ⟨hname, h.value?_eq_meaning? hblank, rfl⟩
  | default h hd =>
    exact ⟨hname, h.value?_eq_meaning? hblank,
      hd.value?_eq_meaning? fun c hc => by simp [isEnd, hc]⟩

theorem Reads.meant {s : Text} {as : List Assignment} (h : Reads s as) : ∀ a ∈ as, a.Meant := by
  induction h with
  | done => exact List.forall_mem_nil _
  | next _ hname _ hvalues _ ih => exact List.forall_mem_cons.2 ⟨hvalues.meant hname, ih⟩

end Assignment

theorem Directive.closed_enclose (body : Text) : (enclose body).Closed := by
  intro c hc
  rw [enclose, List.getLast?_append] at hc
  simpa [eq_comm] using hc

/-- The grammar reads every directive, in one way only, and the arguments of the directive are what
the assignments that it reads say. -/
theorem parse_follows_grammar {s : Text} {d : Directive} (hd : d ∈ Directive.scan s) :
    ∃ as, (∀ other, Assignment.Reads d.raw other ↔ other = as) ∧ Assignment.all d.raw = as ∧
      (ArgumentSet.parse d.raw).Holds as := by
  obtain ⟨t, body, -, rfl⟩ := Directive.exists_body_of_mem_scan hd
  rw [Directive.parse_raw]
  have hclosed := Directive.closed_enclose body
  refine ⟨_, fun other => Assignment.reads_iff hclosed, rfl, ?_⟩
  exact ArgumentSet.holds_foldl_of_meant ((Assignment.reads_iff hclosed).2 rfl).meant

def strayCall : Text := "x=1 [[$c a='it's' b='p\\'|'q r'|z' -d==|=3 a=|'\n' ]]".toList

theorem parse_follows_grammar_stray :
    ∃ d ∈ Directive.scan strayCall,
      Assignment.Reads d.raw
        [⟨['a'], .quoted "it's".toList, none⟩,
          ⟨['b'], .quoted "p\\'|'q r".toList, some (.bare "z'".toList)⟩,
          ⟨['d'], .bare ['='], some (.bare "=3".toList)⟩,
          ⟨['a'], .bare [], some (.quoted ['\n'])⟩] ∧
      (ArgumentSet.parse d.raw).get? ['a'] = some (.text "it's".toList) ∧
      (ArgumentSet.parse d.raw).defaultFor? ['a'] = some (.text ['\n']) := by
  have hd : Directive.parse (strayCall.drop 4) ∈ Directive.scan strayCall := by decide +kernel
  obtain ⟨as, hreads, hall, hholds⟩ := parse_follows_grammar hd
  subst hall
  refine ⟨_, hd, (hreads _).2 (by decide +kernel), ?_, ?_⟩
  · rw [hholds.value ['a'] (List.forall_mem_singleton.2 (by decide +kernel))]
    decide +kernel
  · rw [hholds.default ['a']]
    decide +kernel

end ContentWeave
