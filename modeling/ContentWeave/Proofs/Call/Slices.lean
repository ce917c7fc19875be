import ContentWeave.Proofs.Call.Grammar

/-!
# Where the texts of arguments come from

Only quoted literals become texts, and a quoted literal stands in the directive between its quotes.
So every text among the arguments of a directive is a piece of its body and holds no bracket.
-/

namespace ContentWeave

open Text (BracketFree)

namespace Text

variable {c d : Char} {s t : Text}

theorem infix_of_infix_cons (hne : c ≠ d) (h : c :: s <:+: d :: t) : c :: s <:+: t := by
  rcases List.infix_cons_iff.1 h with h | h
  · exact absurd (List.cons_prefix_cons.1 h).1 hne
  · exact h

theorem infix_of_infix_concat (hne : c ≠ d) (h : s ++ [c] <:+: t ++ [d]) : s ++ [c] <:+: t := by
  rcases List.infix_concat_iff.1 h with h | h
  · rcases List.suffix_concat_iff.1 h with h | ⟨u, hu, -⟩
    · simp at h
    · exact absurd (List.append_inj_right' hu rfl) (by simpa using hne)
  · exact h

end Text

theorem Literal.eq_quoted_of_value? {l : Literal} {t : Text} (h : l.value? = some (.text t)) :
    l = .quoted t := by
  rcases l with ⟨_ | ⟨c, content⟩⟩ | ⟨_ | ⟨c, content⟩⟩
  · cases h
  · cases h
    rfl
  · cases h
  · -- what is bare is a number
    have hbare : Value.ofBare (c :: content) = .text t := Option.some.inj h
    unfold Value.ofBare at hbare
    split at hbare <;> cases hbare

theorem ArgumentSet.exists_quoted_of_get? {as : List Assignment} {k t : Text}
    (h : (as.foldl assign {}).get? k = some (.text t)) :
    ∃ a ∈ as, a.value = .quoted t ∨ a.default = some (.quoted t) := by
  induction as using List.reverseRecOn with
  | nil => cases h
  | append_singleton as a ih =>
    rw [List.foldl_concat, get?_assign, Option.or_eq_some_iff, Option.or_eq_some_iff] at h
    rcases h with h | ⟨-, h | ⟨-, h⟩⟩
    · split_ifs at h
      obtain ⟨l, hl, hvalue⟩ := Option.bind_eq_some_iff.1 h
      exact ⟨a, by simp, .inr (Literal.eq_quoted_of_value? hvalue ▸ hl)⟩
    · split_ifs at h
      exact ⟨a, by simp, .inl (Literal.eq_quoted_of_value? h)⟩
    · obtain ⟨b, hb, hquoted⟩ := ih h
      exact ⟨b, by simp [hb], hquoted⟩

theorem Literal.Reads.write_prefix {ends : Char → Bool} {s rest : Text} {l : Literal} {e : Char}
    (h : l.Reads ends s e rest) : l.write <+: s := by
  cases h with
  | quoted h _ =>
    rw [h.text_eq]
    exact ⟨e :: rest, by simp [write]⟩
  | bare => exact List.prefix_append _ _

theorem Assignment.ReadsValues.write_infix {s rest : Text} {l value : Literal}
    {default : Option Literal} (h : ReadsValues s value default rest)
    (hl : value = l ∨ default = some l) : l.write <:+: s := by
  cases h with
  | plain h _ =>
    obtain rfl : value = l := by simpa using hl
    exact h.write_prefix.isInfix
  | default h hd =>
    rcases hl with rfl | hl
    · exact h.write_prefix.isInfix
    · cases hl
      obtain ⟨written, rfl, -⟩ := h.exists_append
      exact hd.write_prefix.isInfix.trans (List.IsSuffix.isInfix ⟨written ++ ['|'], by simp⟩)

theorem Assignment.Reads.write_infix {s : Text} {as : List Assignment} (h : Reads s as)
    {a : Assignment} (ha : a ∈ as) {l : Literal} (hl : a.value = l ∨ a.default = some l) :
    l.write <:+: s := by
  induction h with
  | done => cases ha
  | @next front name after rest value default as _ _ _ hvalues _ ih =>
    have hbehind : after <:+ front ++ name ++ '=' :: after := ⟨front ++ name ++ ['='], by simp⟩
    rcases List.mem_cons.1 ha with rfl | ha
    · exact (hvalues.write_infix hl).trans hbehind.isInfix
    · obtain ⟨written, rfl⟩ := hvalues.exists_append
      exact (ih ha).trans ((List.suffix_append written rest).trans hbehind).isInfix

namespace Directive

theorem quoted_infix_body {body t : Text} (h : (Literal.quoted t).write <:+: enclose body) :
    (Literal.quoted t).write <:+: body := by
  have hopen : (Literal.quoted t).write <:+: body ++ [']'] ++ [']'] := by
    have hne : '\'' ≠ '[' := by decide
    refine Text.infix_of_infix_cons hne (Text.infix_of_infix_cons hne ?_)
    simpa [Literal.write, enclose] using h
  have hne : '\'' ≠ ']' := by decide
  exact Text.infix_of_infix_concat hne (Text.infix_of_infix_concat hne hopen)

theorem text_infix_body {body k t : Text}
    (h : (ArgumentSet.parse (enclose body)).get? k = some (.text t)) : t <:+: body := by
  obtain ⟨a, ha, hquoted⟩ := ArgumentSet.exists_quoted_of_get? h
  have hreads := (Assignment.reads_iff (closed_enclose body)).2 rfl
  have hbody := quoted_infix_body (hreads.write_infix ha hquoted)
  have hinner : t <:+: (Literal.quoted t).write := ⟨['\''], ['\''], by simp [Literal.write]⟩
  exact hinner.trans hbody

end Directive
end ContentWeave
