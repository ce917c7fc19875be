import ContentWeave.Proofs.Directive.Bodies
import ContentWeave.Proofs.Text.Blanks
import ContentWeave.Proofs.Text.Runs

/-!
# How a directive begins

The key of a directive is the first run of its body, that is, of characters that are not blank.
The token is what stands right in front of it: the last of the blanks at the start of the body, or
else the first character of the run itself, unless that is a word character or all of the run. The
reader tries every position from the opening brackets on, but before the first run it can read
nothing, and there it always can.
-/

namespace ContentWeave.Directive

open Text (BracketFree isBlank isWordChar)

structure Run (run rest : Text) : Prop where
  ne_nil : run ≠ []
  no_blank : ∀ c ∈ run, isBlank c = false
  ends : ∀ c ∈ rest.head?, isBlank c = true

/-- What the start of a body says: the token and the key. -/
inductive Opening : (body : Text) → (token : Option Char) → (key : Text) → Prop
  | blank {body : Text} (h : ∀ c ∈ body, isBlank c = true) : Opening body none []
  | behindBlanks {front run rest : Text} {c : Char} (h : ∀ d ∈ front ++ [c], isBlank d = true)
      (hr : Run run rest) : Opening (front ++ c :: (run ++ rest)) (some c) run
  | marked {key rest : Text} {c : Char} (hc : isBlank c = false) (hw : isWordChar c = false)
      (hr : Run key rest) : Opening (c :: (key ++ rest)) (some c) key
  | unmarked {run rest : Text} (hr : Run run rest)
      (h : (∀ c ∈ run.head?, isWordChar c = true) ∨ run.length = 1) :
      Opening (run ++ rest) none run

theorem isWordChar_of_isBlank {c : Char} (h : isBlank c = true) : isWordChar c = false :=
  Text.eq_false_of_isBlank (by decide +kernel) h

theorem isKeyChar_of_isBlank {c : Char} (h : isBlank c = true) : isKeyChar c = false := by
  simp [isKeyChar, h]

theorem ne_bracket_of_isBlank {c : Char} (h : isBlank c = true) : c ≠ '[' := by
  rintro rfl
  exact absurd h (by decide)

theorem keyAt?_append {key : Text} (hne : key ≠ []) (hkey : ∀ c ∈ key, isKeyChar c = true)
    {e : Char} (he : endsKey e = true) (rest : Text) : keyAt? (key ++ e :: rest) = some key := by
  have hstop : isKeyChar e = false := by
    rcases Bool.or_eq_true_iff.1 he with hb | hb
    · exact isKeyChar_of_isBlank hb
    · simp [isKeyChar, beq_iff_eq.1 hb]
  have hrun : Text.Leads isKeyChar key (e :: rest) := .cons hkey hstop
  obtain ⟨c, cs, hcs⟩ := List.exists_cons_of_ne_nil hne
  rw [keyAt?, hrun.takeWhile_append, hrun.dropWhile_append]
  simp [hcs, he]

theorem keyAt?_cons_eq_none {c : Char} (hc : isKeyChar c = false) (s : Text) :
    keyAt? (c :: s) = none := by
  simp [keyAt?, hc]

theorem tokenAndKey?_cons (c : Char) (cs : Text) :
    tokenAndKey? (c :: cs) =
      match (if isWordChar c || c == '[' then none else keyAt? cs), keyAt? (c :: cs) with
      | some key, _ => some (some c, key)
      | none, some key => some (none, key)
      | none, none => tokenAndKey? cs := by
  exact rfl

theorem tokenAndKey?_bracket (s : Text) : tokenAndKey? ('[' :: s) = tokenAndKey? s := by
  have htoken : (isWordChar '[' || '[' == '[') = true := by decide
  rw [tokenAndKey?_cons, htoken, keyAt?_cons_eq_none (by decide), if_pos rfl]

theorem tokenAndKey?_marked {c : Char} (hw : isWordChar c = false) (hc : c ≠ '[') {s key : Text}
    (h : keyAt? s = some key) : tokenAndKey? (c :: s) = some (some c, key) := by
  have htoken : (isWordChar c || c == '[') = false := by simp [hw, hc]
  rw [tokenAndKey?_cons, htoken, h, if_neg Bool.false_ne_true]

theorem tokenAndKey?_unmarked {c : Char} {s key : Text}
    (h : isWordChar c = true ∨ keyAt? s = none) (hkey : keyAt? (c :: s) = some key) :
    tokenAndKey? (c :: s) = some (none, key) := by
  have hnone : (if isWordChar c || c == '[' then none else keyAt? s) = none := by
    rcases h with h | h
    · simp [h]
    · rw [h, ite_self]
  rw [tokenAndKey?_cons, hnone, hkey]

theorem tokenAndKey?_pass {c : Char} (hc : isKeyChar c = false) {s : Text}
    (h : keyAt? s = none) : tokenAndKey? (c :: s) = tokenAndKey? s := by
  rw [tokenAndKey?_cons, keyAt?_cons_eq_none hc, h, ite_self]

section Reading

variable {run rest : Text}

theorem Run.keyAt? (hr : Run run rest) (hfree : BracketFree run) :
    Directive.keyAt? (run ++ rest ++ [']', ']']) = some run := by
  have hkey : ∀ c ∈ run, isKeyChar c = true := by
    intro c hc
    simp [isKeyChar, hr.no_blank c hc, hfree c hc]
  rw [List.append_assoc]
  cases rest with
  | nil => exact keyAt?_append hr.ne_nil hkey (by decide) [']']
  | cons e rest =>
    have he : endsKey e = true := by simp [endsKey, hr.ends e (by simp)]
    exact keyAt?_append hr.ne_nil hkey he (rest ++ [']', ']'])

theorem keyAt?_of_ends {s : Text} (h : ∀ c ∈ s.head?, isBlank c = true) :
    Directive.keyAt? (s ++ [']', ']']) = none := by
  cases s with
  | nil => decide
  | cons c s => exact keyAt?_cons_eq_none (isKeyChar_of_isBlank (h c rfl)) _

theorem tokenAndKey?_blanks {front : Text} (h : ∀ d ∈ front, isBlank d = true) {s : Text}
    (hs : Directive.keyAt? s = none) :
    tokenAndKey? (front ++ s) = tokenAndKey? s := by
  induction front with
  | nil => rfl
  | cons d front ih =>
    have hrest := ih fun c hc => h c (by simp [hc])
    have hnone : Directive.keyAt? (front ++ s) = none := by
      cases front with
      | nil => exact hs
      | cons c front => exact keyAt?_cons_eq_none (isKeyChar_of_isBlank (h c (by simp))) _
    rw [List.cons_append, tokenAndKey?_pass (isKeyChar_of_isBlank (h d (by simp))) hnone, hrest]

theorem tokenAndKey?_enclose (body : Text) :
    tokenAndKey? (enclose body) = tokenAndKey? (body ++ [']', ']']) := by
  simp [enclose, tokenAndKey?_bracket]

theorem Opening.tokenAndKey?_eq {body key : Text} {token : Option Char}
    (h : Opening body token key) (hfree : BracketFree body) :
    tokenAndKey? (body ++ [']', ']']) = if key = [] then none else some (token, key) := by
  cases h with
  | blank h =>
    rw [if_pos rfl, tokenAndKey?_blanks h (by decide)]
    decide
  | @behindBlanks front _ rest c h hr =>
    have hc : isBlank c = true := h c (by simp)
    have hrun : BracketFree key := hfree.of_subset fun d hd => by simp [hd]
    have hread := tokenAndKey?_marked (isWordChar_of_isBlank hc) (ne_bracket_of_isBlank hc)
      (hr.keyAt? hrun)
    have hnone := keyAt?_cons_eq_none (isKeyChar_of_isBlank hc) (key ++ rest ++ [']', ']'])
    have hfront := tokenAndKey?_blanks (fun d hd => h d (List.mem_append_left _ hd)) hnone
    rw [if_neg hr.ne_nil, List.append_assoc, List.cons_append, hfront, hread]
  | @marked _ rest c hc hw hr =>
    have hrun : BracketFree key := hfree.of_subset fun d hd => by simp [hd]
    have hbracket : c ≠ '[' := (hfree c (by simp)).1
    rw [if_neg hr.ne_nil, List.cons_append, tokenAndKey?_marked hw hbracket (hr.keyAt? hrun)]
  | @unmarked _ rest hr h =>
    have hrun : BracketFree key := hfree.of_subset fun d hd => by simp [hd]
    have hread := hr.keyAt? hrun
    rw [if_neg hr.ne_nil]
    obtain ⟨c, cs, rfl⟩ := List.exists_cons_of_ne_nil hr.ne_nil
    have hlone : isWordChar c = true ∨ Directive.keyAt? (cs ++ rest ++ [']', ']']) = none := by
      refine h.imp (fun hword => hword c rfl) fun hlength => ?_
      obtain rfl : cs = [] := by simpa using hlength
      exact keyAt?_of_ends hr.ends
    exact tokenAndKey?_unmarked hlone hread

/-- Token and key are read as the start of the body says. -/
theorem Opening.parse_enclose {body key : Text} {token : Option Char}
    (h : Opening body token key) (hfree : BracketFree body) :
    parse (enclose body) = ⟨enclose body, token, key⟩ := by
  have hread := h.tokenAndKey?_eq hfree
  unfold parse
  rw [tokenAndKey?_enclose, hread]
  by_cases hkey : key = []
  · rw [if_pos hkey]
    cases h with
    | blank => rfl
    | behindBlanks _ hr => exact absurd hkey hr.ne_nil
    | marked _ _ hr => exact absurd hkey hr.ne_nil
    | unmarked hr => exact absurd hkey hr.ne_nil
  · rw [if_neg hkey]

end Reading

theorem exists_run {c : Char} (hc : isBlank c = false) (s : Text) :
    ∃ run rest, c :: s = run ++ rest ∧ Run run rest := by
  have hrun := Text.leads_cut (!isBlank ·) (c :: s)
  exact ⟨(c :: s).takeWhile (!isBlank ·), (c :: s).dropWhile (!isBlank ·),
    List.takeWhile_append_dropWhile.symm, by simp [hc], by simpa using hrun.all,
    by simpa using hrun.ends⟩

theorem exists_opening_of_not_blank {c : Char} (hc : isBlank c = false) (s : Text) :
    ∃ token key, Opening (c :: s) token key := by
  obtain ⟨run, rest, hrun, hr⟩ := exists_run hc s
  by_cases hw : isWordChar c = true
  · have hhead : ∀ d ∈ run.head?, isWordChar d = true := by
      obtain ⟨d, ds, rfl⟩ := List.exists_cons_of_ne_nil hr.ne_nil
      obtain rfl := (List.cons.inj hrun).1
      simpa using hw
    exact ⟨none, run, hrun ▸ .unmarked hr (.inl hhead)⟩
  · by_cases hs : ∀ d ∈ s.head?, isBlank d = true
    · have hlone : Run [c] s := ⟨by simp, by simpa using hc, hs⟩
      exact ⟨none, [c], .unmarked hlone (.inr rfl)⟩
    · obtain ⟨d, hd, hdb⟩ : ∃ d ∈ s.head?, isBlank d = false := by simpa using hs
      obtain ⟨ds, rfl⟩ := List.head?_eq_some_iff.1 hd
      obtain ⟨key, after, hkey, hr⟩ := exists_run hdb ds
      exact ⟨some c, key, hkey ▸ .marked hc (by simpa using hw) hr⟩

theorem exists_opening (body : Text) : ∃ token key, Opening body token key := by
  have hcut := List.takeWhile_append_dropWhile (p := isBlank) (l := body)
  obtain ⟨hblank, hends⟩ := Text.leads_cut isBlank body
  generalize body.takeWhile isBlank = blanks at hcut hblank
  generalize body.dropWhile isBlank = rest at hcut hends
  cases rest with
  | nil =>
    rw [List.append_nil] at hcut
    exact ⟨none, [], .blank (hcut ▸ hblank)⟩
  | cons c s =>
    have hc : isBlank c = false := hends c rfl
    rcases blanks.eq_nil_or_concat with rfl | ⟨front, last, rfl⟩
    · rw [← hcut]
      exact exists_opening_of_not_blank hc s
    · obtain ⟨run, rest, hrun, hr⟩ := exists_run hc s
      rw [List.concat_eq_append] at hcut hblank
      rw [List.append_assoc, List.singleton_append, hrun] at hcut
      exact ⟨some last, run, hcut ▸ .behindBlanks hblank hr⟩

theorem opening_iff {body : Text} (hfree : BracketFree body) {token : Option Char} {key : Text} :
    Opening body token key ↔
      token = (parse (enclose body)).token ∧ key = (parse (enclose body)).key := by
  constructor
  · intro h
    rw [h.parse_enclose hfree]
    exact ⟨rfl, rfl⟩
  · rintro ⟨rfl, rfl⟩
    obtain ⟨token, key, h⟩ := exists_opening body
    rw [h.parse_enclose hfree]
    exact h

/-- A sign that is neither blank nor part of a word is the token exactly if something follows it
without a blank between. -/
theorem token_eq_iff {body : Text} (hfree : BracketFree body) {sign : Char}
    (hblank : isBlank sign = false) (hword : isWordChar sign = false) :
    (parse (enclose body)).token = some sign ↔
      ∃ c rest, body = sign :: c :: rest ∧ isBlank c = false := by
  constructor
  · intro htoken
    have h := (opening_iff hfree).2 ⟨htoken.symm, rfl⟩
    generalize (parse (enclose body)).key = key at h
    cases h with
    | behindBlanks h hr => simp [h sign (by simp)] at hblank
    | @marked _ rest _ _ _ hr =>
      obtain ⟨c, cs, rfl⟩ := List.exists_cons_of_ne_nil hr.ne_nil
      exact ⟨c, cs ++ rest, by simp, hr.no_blank c (by simp)⟩
  · rintro ⟨c, rest, rfl, hc⟩
    obtain ⟨key, after, hkey, hr⟩ := exists_run hc rest
    have h : Opening (sign :: c :: rest) (some sign) key := hkey ▸ .marked hblank hword hr
    exact ((opening_iff hfree).1 h).1.symm

theorem key_eq_nil_iff {body : Text} (hfree : BracketFree body) :
    (parse (enclose body)).key = [] ↔ ∀ c ∈ body, isBlank c = true := by
  constructor
  · intro hkey
    have h := (opening_iff hfree).2 ⟨rfl, hkey.symm⟩
    generalize (parse (enclose body)).token = token at h
    generalize hnil : ([] : Text) = key at h
    cases h with
    | blank h => exact h
    | behindBlanks _ hr => exact absurd hnil.symm hr.ne_nil
    | marked _ _ hr => exact absurd hnil.symm hr.ne_nil
    | unmarked hr => exact absurd hnil.symm hr.ne_nil
  · intro h
    exact ((opening_iff hfree).1 (.blank h)).2.symm

theorem kind_eq_chunk_iff {d : Directive} : d.kind = .chunk ↔ d.token = some '$' := by
  unfold kind
  split <;> simp_all

theorem kind_eq_form_iff {d : Directive} : d.kind = .form ↔ d.token = some '%' := by
  unfold kind
  split <;> simp_all

/-- Token and key of a directive are what the start of its body says, which can be read in one way
only. So it calls a chunk, or shows a form, exactly if its body begins with the sign for it and no
blank behind, and it has a key unless its body is blank. -/
theorem token_and_key_of_body {s : Text} {d : Directive} (hd : d ∈ scan s) :
    ∃ body, d.raw = enclose body ∧ body ≠ [] ∧ BracketFree body ∧
      (∀ token key, Opening body token key ↔ token = d.token ∧ key = d.key) ∧
      (d.kind = .chunk ↔ ∃ c rest, body = '$' :: c :: rest ∧ isBlank c = false) ∧
      (d.kind = .form ↔ ∃ c rest, body = '%' :: c :: rest ∧ isBlank c = false) ∧
      (d.key = [] ↔ ∀ c ∈ body, isBlank c = true) := by
  obtain ⟨t, body, hbody, rfl⟩ := exists_body_of_mem_scan hd
  obtain ⟨hne, hfree, -⟩ := bodyAt?_eq_some_iff.1 hbody
  refine ⟨body, parse_raw _, hne, hfree, fun token key => opening_iff hfree, ?_, ?_,
    key_eq_nil_iff hfree⟩
  · rw [kind_eq_chunk_iff]
    exact token_eq_iff hfree (by decide) (by decide)
  · rw [kind_eq_form_iff]
    exact token_eq_iff hfree (by decide) (by decide)

theorem token_and_key_of_body_blanks :
    let s := "[[ \u3000$a b]][[$ x]][[%7;x ]][[ \t]]".toList
    (scan s).map (fun d => (d.token, d.key)) =
        [(some '\u3000', "$a".toList), (none, ['$']), (some '%', "7;x".toList), (none, [])] ∧
      parse "[[ \u3000$a b]]".toList ∈ scan s ∧
      Opening " \u3000$a b".toList (some '\u3000') "$a".toList := by
  have hmem : parse "[[ \u3000$a b]]".toList ∈
      scan "[[ \u3000$a b]][[$ x]][[%7;x ]][[ \t]]".toList := by decide +kernel
  obtain ⟨body, hraw, -, -, hopening, -⟩ := token_and_key_of_body hmem
  have hbody : body = " \u3000$a b".toList := by
    have henclose : enclose " \u3000$a b".toList = enclose body := (parse_raw _).symm.trans hraw
    exact (enclose_injective henclose).symm
  subst hbody
  exact ⟨by decide +kernel, hmem, (hopening _ _).2 ⟨by decide +kernel, by decide +kernel⟩⟩

end ContentWeave.Directive
