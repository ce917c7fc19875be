import ContentWeave.Proofs.Session.Transparency

/-!
# Directives that are written more than once

A directive that is written twice is queued twice, and its second replacement is made in a text in
which the first has left none, unless an expansion in between has brought it back. What follows says
exactly when the second replacement does nothing, and that over no cache this makes every directive
stand for the same text however often it is written.
-/

namespace ContentWeave

open Text (weave Mark Inert Spaced replaceAll)

namespace Text

variable {word new : Text}

/-- A text is gone through as replacing does it: a whole occurrence of the word at once, and one
character where the word does not begin. -/
theorem occurrence_induction (hw : word ≠ []) {motive : Text → Prop} (nil : motive [])
    (occurrence : ∀ rest, motive rest → motive (word ++ rest))
    (cons : ∀ c s, ¬ word <+: c :: s → motive s → motive (c :: s)) (s : Text) : motive s := by
  generalize hn : s.length = n
  induction n using Nat.strongRecOn generalizing s with
  | ind n ih =>
    cases s with
    | nil => exact nil
    | cons c s =>
      by_cases hp : word <+: c :: s
      · obtain ⟨rest, hrest⟩ := hp
        have hlength := congrArg List.length hrest
        have hpos := List.length_pos_iff.2 hw
        rw [List.length_append, hn] at hlength
        rw [← hrest]
        exact occurrence rest (ih rest.length (by omega) rest rfl)
      · exact cons c s hp (ih s.length (by simp at hn; omega) s rfl)

theorem replaceAll_self (word s : Text) : replaceAll word word s = s := by
  by_cases hw : word = []
  · simp [replaceAll, hw]
  · induction s using occurrence_induction hw with
    | nil => exact replaceAll_nil
    | occurrence rest ih => rw [replaceAll_append_self hw, ih]
    | cons c s hp ih => rw [replaceAll_cons hp, ih]

theorem length_replaceAll (hw : word ≠ []) (new s : Text) :
    ∃ n, (replaceAll word new s).length + n * word.length = s.length + n * new.length := by
  induction s using occurrence_induction hw with
  | nil => exact ⟨0, by simp⟩
  | occurrence rest ih =>
    obtain ⟨n, hn⟩ := ih
    refine ⟨n + 1, ?_⟩
    simp only [replaceAll_append_self hw, List.length_append, Nat.add_mul, Nat.one_mul]
    omega
  | cons c s hp ih =>
    obtain ⟨n, hn⟩ := ih
    refine ⟨n, ?_⟩
    simp only [replaceAll_cons hp, List.length_cons]
    omega

theorem replaceAll_prefix_ne (hw : word ≠ []) (hne : new ≠ word) (rest : Text) :
    replaceAll word new (word ++ rest) ≠ word ++ rest := by
  intro h
  rw [replaceAll_append_self hw] at h
  obtain ⟨n, hn⟩ := length_replaceAll hw new rest
  have hl := congrArg List.length h
  rw [List.length_append, List.length_append] at hl
  -- the replacements behind the first one change the length in the direction of the first
  have hsame : new.length = word.length := by
    rcases Nat.lt_trichotomy new.length word.length with hlt | heq | hgt
    · have := Nat.mul_le_mul_left n hlt.le
      omega
    · exact heq
    · have := Nat.mul_le_mul_left n hgt.le
      omega
  exact hne (List.append_inj h hsame).1

def Idle (word new s : Text) : Prop := word = [] ∨ new = word ∨ ¬ word <:+: s

theorem replaceAll_eq_self_iff {s : Text} : replaceAll word new s = s ↔ Idle word new s := by
  constructor
  · intro h
    by_contra hidle
    obtain ⟨hw, hne, hin⟩ : word ≠ [] ∧ new ≠ word ∧ word <:+: s := by
      simpa [Idle, not_or] using hidle
    induction s with
    | nil => exact hw (List.infix_nil.1 hin)
    | cons c s ih =>
      by_cases hp : word <+: c :: s
      · obtain ⟨rest, hrest⟩ := hp
        rw [← hrest] at h
        exact replaceAll_prefix_ne hw hne rest h
      · rw [replaceAll_cons hp] at h
        have hs : word <:+: s := (List.infix_cons_iff.1 hin).resolve_left hp
        exact ih (List.cons.inj h).2 (by simp [Idle, hw, hne, hs]) hs
  · rintro (rfl | rfl | h)
    · simp [replaceAll]
    · exact replaceAll_self _ _
    · exact replaceAll_of_not_infix h

end Text

namespace Replacements

theorem apply_append (first second : List (Text × Text)) (s : Text) :
    apply ⟨first ++ second⟩ s = apply ⟨second⟩ (apply ⟨first⟩ s) :=
  List.foldl_append

theorem apply_cons (word new s : Text) (pairs : List (Text × Text)) :
    apply ⟨(word, new) :: pairs⟩ s = apply ⟨pairs⟩ (replaceAll word new s) := rfl

theorem apply_concat_eq_iff (pairs : List (Text × Text)) (word new s : Text) :
    apply ⟨pairs ++ [(word, new)]⟩ s = apply ⟨pairs⟩ s ↔ Text.Idle word new (apply ⟨pairs⟩ s) := by
  rw [apply_append, apply_cons]
  exact Text.replaceAll_eq_self_iff

theorem apply_of_idle {pairs : List (Text × Text)} {word new s : Text}
    (h : Text.Idle word new (apply ⟨pairs⟩ s)) (rest : List (Text × Text)) :
    apply ⟨pairs ++ (word, new) :: rest⟩ s = apply ⟨pairs ++ rest⟩ s := by
  rw [apply_append, apply_append, apply_cons, Text.replaceAll_eq_self_iff.2 h]

section Repeat

variable {front rest : List (Text × Text)} {word again : Text}

theorem replacementFor_repeat (h : word ∈ front.map Prod.fst) (x : Text) :
    replacementFor ⟨front ++ (word, again) :: rest⟩ x = replacementFor ⟨front ++ rest⟩ x := by
  unfold replacementFor
  simp only [List.lookup_append, List.lookup_cons]
  by_cases hx : x = word
  · subst hx
    cases hfound : front.lookup x with
    | some new => rfl
    | none =>
      obtain ⟨q, hq, hqx⟩ := List.mem_map.1 h
      have hne := List.lookup_eq_none_iff.1 hfound q hq
      simp [hqx] at hne
  · rw [beq_eq_false_iff_ne.2 hx]

/-- Among marks and inert texts a repeat never has anything to do. -/
theorem apply_repeat_weave (h : word ∈ front.map Prod.fst)
    (hpairs : ∀ q ∈ front ++ (word, again) :: rest, Mark q.1 ∧ Inert q.2)
    {gaps texts : List Text} (hg : Spaced gaps) (hl : gaps.length = texts.length + 1)
    (ht : ∀ x ∈ texts, Mark x ∨ Inert x) :
    apply ⟨front ++ (word, again) :: rest⟩ (weave gaps texts) =
      apply ⟨front ++ rest⟩ (weave gaps texts) := by
  have hfewer : ∀ q ∈ front ++ rest, Mark q.1 ∧ Inert q.2 := by
    intro q hq
    refine hpairs q ?_
    rcases List.mem_append.1 hq with hq | hq
    · exact List.mem_append_left _ hq
    · exact List.mem_append_right _ (List.mem_cons_of_mem _ hq)
  rw [apply_weave hpairs hg hl ht, apply_weave hfewer hg hl ht]
  congr 1
  exact List.map_congr_left fun x _ => replacementFor_repeat h x

end Repeat

end Replacements

/-- The text that a directive stands for, whatever else its content holds; nothing if the store
fails. -/
def Materials.expansion (materials : Materials) (d : Directive) : Text :=
  match materials.standsFor d with
  | .ok text => text
  | .error _ => []

section Uncached

variable {materials : Materials} {contentKey : Text} {dependency : Dependency}

theorem Materials.expansion_of_standsFor {d : Directive} {text : Text}
    (h : materials.standsFor d = .ok text) : materials.expansion d = text := by
  simp only [expansion, h]

theorem KeptApart.nil (contentKey : Text) : KeptApart contentKey [] where
  raw_eq _ hd := by cases hd
  no_chunks _ hd := by cases hd

theorem uncached_preload_leads :
    Compile.Leads (Faithful materials.shelf) (fun _ => True) (fun _ => True)
      materials.uncached.templates.preload fun _ t => t.preloaded = true := by
  have hasked : Keeps (fun _ => True) materials.uncached.templates.store.findPreloaded
      fun templates => materials.shelf.preloaded = .ok templates :=
    fun _ hs => ⟨hs, fun _ h => h⟩
  exact TemplateSource.preload_faithful (KeptApart.nil []) Cache.Sound.never
    (Keeps.map hasked fun templates hp => ⟨templates, hp, rfl⟩) (Set.mem_univ _)

theorem uncached_expand_leads (d : Directive) :
    Compile.Leads (Faithful materials.shelf) (fun _ => True) (fun t => t.preloaded = true)
      (materials.uncached.expand d contentKey dependency) fun text t =>
        t.preloaded = true ∧ materials.standsFor d = .ok text := by
  have hasked : Keeps (fun _ => True) (materials.uncached.templates.store.find d.key)
      fun template => materials.shelf.find d.key = .ok template :=
    fun _ hs => ⟨hs, fun _ h => h⟩
  have hcache : materials.uncached.cache.Sound Set.univ
      (fun _ text => materials.standsFor d = .ok text) fun _ => True := .never
  refine Compiler.expand_leads (fun found => materials.shelf.template? d.key = .ok found) hcache
    (Set.mem_univ _) (fun _ h => h) (fun _ => TemplateSource.fetch_faithful (KeptApart.nil [])
      Cache.Sound.never hasked (Set.mem_univ _)) ?_ ?_ ?_ ?_
  · intro hk hnone
    simp only [Materials.standsFor, hk, hnone]
  · intro hk text hsome
    simp only [Materials.standsFor, hk, hsome]
  · intro hk
    simp only [Materials.standsFor, hk]
  · intro hk
    simp only [Materials.standsFor, hk]

/-- Over no cache, a compilation that succeeds queues for every directive what it stands for. -/
theorem uncached_compile_eq_ok {t : TemplateCache} (ht : Faithful materials.shelf t)
    {content text : Text}
    (h : ((materials.uncached.compile content contentKey dependency).runFrom t ()).1 = .ok text) :
    (∀ d ∈ Directive.scan content, materials.standsFor d = .ok (materials.expansion d)) ∧
      text = (Replacements.ofItems Directive.pattern materials.expansion
        (Directive.scan content)).apply content := by
  obtain ⟨-, -, hanswer⟩ := Compiler.compile_leads uncached_preload_leads
    (fun d _ => uncached_expand_leads d) t () ht trivial trivial
  obtain ⟨-, texts, htexts, rfl⟩ := hanswer text h
  have hexpansion : List.Forall₂ (fun d text => materials.expansion d = text)
      (Directive.scan content) texts :=
    htexts.imp fun _ _ => Materials.expansion_of_standsFor
  have hmap : texts = (Directive.scan content).map materials.expansion := by
    rw [← List.forall₂_map_left_iff (R := Eq), List.forall₂_eq_eq_eq] at hexpansion
    exact hexpansion.symm
  subst hmap
  constructor
  · rw [List.forall₂_map_right_iff, List.forall₂_same] at htexts
    exact htexts
  · rw [Replacements.ofItems, List.zip_map']
    rfl

end Uncached

/-- A pair that repeats the word of an earlier pair can be left out exactly if it does nothing when
its turn comes: if its word does not occur any more, or is replaced by itself. Among marks and inert
texts that is so for every repeat. Over no cache, every directive of a content is queued with the
text that it stands for, whatever else the content holds; and if gaps and expansions fit together,
every directive gives way to that text, however often it is written. -/
theorem repeats_expand_once (before between rest : List (Text × Text)) (word new again s : Text)
    (gaps texts : List Text) (materials : Materials) (t : TemplateCache)
    (content contentKey text : Text) (dependency : Dependency) :
    (Replacements.apply ⟨before ++ (word, new) :: between ++ [(word, again)]⟩ s =
        Replacements.apply ⟨before ++ (word, new) :: between⟩ s ↔
      word = [] ∨ again = word ∨
        ¬ word <:+: Replacements.apply ⟨before ++ (word, new) :: between⟩ s) ∧
    (¬ word <:+: Replacements.apply ⟨before ++ (word, new) :: between⟩ s →
      Replacements.apply ⟨before ++ (word, new) :: between ++ (word, again) :: rest⟩ s =
        Replacements.apply ⟨before ++ (word, new) :: between ++ rest⟩ s) ∧
    ((∀ q ∈ before ++ (word, new) :: between ++ (word, again) :: rest, Mark q.1 ∧ Inert q.2) →
      Spaced gaps → gaps.length = texts.length + 1 → (∀ x ∈ texts, Mark x ∨ Inert x) →
      Replacements.apply ⟨before ++ (word, new) :: between ++ (word, again) :: rest⟩
          (weave gaps texts) =
        Replacements.apply ⟨before ++ (word, new) :: between ++ rest⟩ (weave gaps texts)) ∧
    (Faithful materials.shelf t →
      ((materials.uncached.compile content contentKey dependency).runFrom t ()).1 = .ok text →
      (∀ d ∈ Directive.scan content, materials.standsFor d = .ok (materials.expansion d)) ∧
      text = Replacements.apply
        ⟨(Directive.scan content).map fun d => (d.raw, materials.expansion d)⟩ content ∧
      (Spliceable content ((Directive.scan content).map materials.expansion) →
        text = weave (Directive.pattern.gaps content)
          ((Directive.scan content).map materials.expansion))) := by
  refine ⟨?_, fun h => ?_, fun hpairs hg hl ht => ?_, fun ht h => ?_⟩
  · exact Replacements.apply_concat_eq_iff _ word again s
  · exact Replacements.apply_of_idle (.inr (.inr h)) rest
  · exact Replacements.apply_repeat_weave (by simp) hpairs hg hl ht
  · obtain ⟨hstands, hqueue⟩ := uncached_compile_eq_ok ht h
    refine ⟨hstands, hqueue, fun hs => hqueue.trans ?_⟩
    refine Replacements.apply_ofItems _ _ (fun d => Directive.mark_of_mem_scan)
      (fun d hd => hs.inert _ (List.mem_map_of_mem hd)) ?_ hs.spaced
    intro d hd e he hraw
    have hsame : e.raw = d.raw := hraw
    rw [← Directive.parse_of_mem_scan hd, ← Directive.parse_of_mem_scan he, hsame]

def xCall : Text := "[[$x]]".toList

def echo : Materials where
  shelf :=
    { find := fun key => .ok (if key = ['x'] then some "<[[$x]]>".toList else none)
      preloaded := .ok [] }

/-- A repeat can expand what it stands for once more: in a queue, and in a content that has a
directive twice. -/
theorem repeats_expand_again :
    (¬ ∀ (before between rest : List (Text × Text)) (word new again s : Text),
      Replacements.apply ⟨before ++ (word, new) :: between ++ (word, again) :: rest⟩ s =
        Replacements.apply ⟨before ++ (word, new) :: between ++ rest⟩ s) ∧
    ¬ ∀ (materials : Materials) (raw once twice : Text),
      Directive.scan raw = [Directive.parse raw] →
      ((materials.uncached.compile raw [] {}).runFrom {} ()).1 = .ok once →
      ((materials.uncached.compile (raw ++ raw) [] {}).runFrom {} ()).1 = .ok twice →
      twice = once ++ once := by
  constructor
  · intro h
    have hsame := h [] [] [] xCall "<[[$x]]>".toList "<[[$x]]>".toList xCall
    exact absurd hsame (by decide +kernel)
  · intro h
    have hsame := h echo xCall "<[[$x]]>".toList "<<[[$x]]>><<[[$x]]>>".toList
      (by decide +kernel) (by decide +kernel) (by decide +kernel)
    exact absurd hsame (by decide +kernel)

def numbers : Materials where
  shelf :=
    { find := fun key => .ok (if key = ['x'] then some ['1'] else some ['2'])
      preloaded := .ok [] }

def twins : Text := "[[$x]]-[[$y]][[$x]]".toList

theorem repeats_expand_once_twins :
    Replacements.apply ⟨[(xCall, ['1']), (xCall, ['2'])]⟩ (xCall ++ xCall) =
      Replacements.apply ⟨[(xCall, ['1'])]⟩ (xCall ++ xCall) ∧
    Replacements.apply ⟨[(xCall, ['1']), (xCall, ['2'])]⟩ (weave [[], ['-'], []] [xCall, xCall]) =
      Replacements.apply ⟨[(xCall, ['1'])]⟩ (weave [[], ['-'], []] [xCall, xCall]) ∧
    ((numbers.uncached.compile twins [] {}).runFrom {} ()).1 = .ok "1-21".toList ∧
    "1-21".toList = weave (Directive.pattern.gaps twins)
      ((Directive.scan twins).map numbers.expansion) := by
  obtain ⟨-, hqueue, hwoven, hcontent⟩ := repeats_expand_once [] [] [] xCall ['1'] ['2']
    (xCall ++ xCall) [[], ['-'], []] [xCall, xCall] numbers {} twins [] "1-21".toList {}
  have hmark : Mark xCall := ⟨['$', 'x'], by simp, rfl⟩
  have hinert : ∀ c : Char, c ≠ '[' → Inert [c] := fun c hc =>
    Text.inert_of_no_bracket (by simpa using hc)
  have hpairs : ∀ q ∈ [] ++ (xCall, ['1']) :: [] ++ (xCall, ['2']) :: [], Mark q.1 ∧ Inert q.2 := by
    intro q hq
    have hcases : q = (xCall, ['1']) ∨ q = (xCall, ['2']) := by simpa using hq
    rcases hcases with rfl | rfl
    · exact ⟨hmark, hinert '1' (by decide)⟩
    · exact ⟨hmark, hinert '2' (by decide)⟩
  have hspaced : Spaced [[], ['-'], []] := ⟨by decide, by decide⟩
  have hidle : ¬ xCall <:+: Replacements.apply ⟨[] ++ (xCall, ['1']) :: []⟩ (xCall ++ xCall) := by
    decide +kernel
  have hrun : ((numbers.uncached.compile twins [] {}).runFrom {} ()).1 = .ok "1-21".toList := by
    decide +kernel
  have hfits : Spliceable twins ((Directive.scan twins).map numbers.expansion) :=
    ⟨by decide +kernel, by decide +kernel, by decide +kernel, by decide +kernel⟩
  refine ⟨hqueue hidle, ?_, hrun, ?_⟩
  · exact hwoven hpairs hspaced rfl (by simp [hmark])
  · exact (hcontent (Faithful.empty _) hrun).2.2 hfits

end ContentWeave
