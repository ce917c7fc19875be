import ContentWeave.Proofs.Compile.Running
import ContentWeave.Proofs.Directive.Bodies
import ContentWeave.Proofs.Text.Weaving

/-!
# Expansions in the places of directives

Directives are replaced one after the other, each everywhere in the text that the earlier ones
left. Where neither gaps nor expansions open a double bracket, this puts every expansion in the
place of its directive, and the compiled text holds no directive.
-/

namespace ContentWeave

open Text (weave Mark Inert Plain Spaced)

namespace Directive

theorem scan_plain {s : Text} (hs : Plain s) : scan s = [] := by
  refine pattern.items_eq_nil fun t ht => ?_
  have hbody : bodyAt? t = none := by
    unfold bodyAt?
    split
    · exact absurd ((List.prefix_append ['[', '['] _).isInfix.trans ht.isInfix) hs
    · rfl
  simp [pattern, hbody]

end Directive

namespace Compiler

variable {σ : Type} (c : Compiler (StateM σ)) (contentKey : Text) (dependency : Dependency)

theorem length_of_expandAll {ds : List Directive} {es : List Text} {t t' : TemplateCache}
    {s s' : σ} (h : (c.expandAll contentKey dependency ds).runFrom t s = (.ok es, t', s')) :
    es.length = ds.length := by
  induction ds generalizing es t s with
  | nil =>
    rw [expandAll, Compile.runFrom_pure] at h
    cases h
    rfl
  | cons d ds ih =>
    rw [expandAll] at h
    obtain ⟨e, t₁, s₁, -, h⟩ := Compile.runFrom_bind_eq_ok h
    obtain ⟨rest, t₂, s₂, hrest, h⟩ := Compile.runFrom_bind_eq_ok h
    cases h
    simpa using ih hrest

end Compiler

theorem Compiler.compile_of_scan_eq_nil {m : Type → Type} [Monad m] [LawfulMonad m]
    (c : Compiler m) {content : Text} (h : Directive.scan content = []) (contentKey : Text)
    (dependency : Dependency) :
    c.compile content contentKey dependency = do c.templates.preload; return content := by
  simp [compile, h, expandAll, Replacements.apply]

/-- The pieces of a content and the expansions of its directives fit together: no double bracket
opens inside a gap or an expansion, or where one ends, unless it is the last gap that ends. -/
structure Spliceable (content : Text) (expansions : List Text) : Prop where
  gaps_plain : ∀ g ∈ Directive.pattern.gaps content, Plain g
  gaps_open_end : ∀ g ∈ (Directive.pattern.gaps content).dropLast, g.getLast? ≠ some '['
  expansions_plain : ∀ e ∈ expansions, Plain e
  expansions_open_end : ∀ e ∈ expansions, e.getLast? ≠ some '['

namespace Spliceable

variable {content : Text} {expansions : List Text}

theorem spaced (h : Spliceable content expansions) : Spaced (Directive.pattern.gaps content) :=
  ⟨h.gaps_plain, h.gaps_open_end⟩

theorem inert (h : Spliceable content expansions) : ∀ e ∈ expansions, Inert e :=
  fun e he => ⟨h.expansions_plain e he, h.expansions_open_end e he⟩

end Spliceable

def queued (ds : List Directive) (expansions : List Text) : Replacements :=
  ⟨(ds.map (·.raw)).zip expansions⟩

theorem inert_of_replacementFor {ds : List Directive} {expansions : List Text} {d : Directive}
    (hd : d ∈ ds) (hl : expansions.length = ds.length) (he : ∀ e ∈ expansions, Inert e) :
    Inert ((queued ds expansions).replacementFor d.raw) := by
  have hmem : d.raw ∈ ((ds.map (·.raw)).zip expansions).map Prod.fst := by
    rw [List.map_fst_zip (by simp [hl])]
    exact List.mem_map_of_mem hd
  cases h : ((ds.map (·.raw)).zip expansions).lookup d.raw with
  | none =>
    obtain ⟨q, hq, hqd⟩ := List.mem_map.1 hmem
    have hne := List.lookup_eq_none_iff.1 h q hq
    simp [hqd] at hne
  | some e =>
    obtain ⟨l₁, l₂, hzip, -⟩ := List.lookup_eq_some_iff.1 h
    have hin : (d.raw, e) ∈ (ds.map (·.raw)).zip expansions := by simp [hzip]
    have hexp := he e (List.of_mem_zip hin).2
    simpa [queued, Replacements.replacementFor, h] using hexp

/-- Every successful run expands the directives of the content one after the other. If gaps and
expansions fit together, the result has, in the place of each directive, the expansion of the first
directive that is written alike; it holds no directive, and compiling it again, with any compiler
and under any key, only loads the templates that are to be loaded first. -/
theorem compile_weaves_expansions {σ : Type} (c : Compiler (StateM σ)) (content contentKey : Text)
    (dependency : Dependency) {t t' : TemplateCache} {s s' : σ} {text : Text}
    (h : (c.compile content contentKey dependency).runFrom t s = (.ok text, t', s')) :
    ∃ t₁ s₁ expansions,
      c.templates.preload.runFrom t s = (.ok (), t₁, s₁) ∧
      (c.expandAll contentKey dependency (Directive.scan content)).runFrom t₁ s₁ =
        (.ok expansions, t', s') ∧
      expansions.length = (Directive.scan content).length ∧
      weave (Directive.pattern.gaps content) ((Directive.scan content).map (·.raw)) = content ∧
      (Spliceable content expansions →
        text = weave (Directive.pattern.gaps content)
          ((Directive.scan content).map fun d =>
            ((((Directive.scan content).map (·.raw)).zip expansions).lookup d.raw).getD d.raw) ∧
        Directive.scan text = [] ∧
        ∀ {m : Type → Type} [Monad m] [LawfulMonad m] (c' : Compiler m) (contentKey' : Text)
          (dependency' : Dependency), c'.compile text contentKey' dependency' =
            do c'.templates.preload; return text) := by
  obtain ⟨⟨⟩, t₁, s₁, hpre, h⟩ := Compile.runFrom_bind_eq_ok h
  obtain ⟨expansions, t₂, s₂, hexp, h⟩ := Compile.runFrom_bind_eq_ok h
  rw [Compile.runFrom_pure] at h
  cases h
  have hlen := c.length_of_expandAll contentKey dependency hexp
  have hcontent : weave (Directive.pattern.gaps content)
      ((Directive.scan content).map (·.raw)) = content := Directive.pattern.weave_gaps content
  refine ⟨t₁, s₁, expansions, hpre, hexp, hlen, hcontent, fun hs => ?_⟩
  have hgaps : (Directive.pattern.gaps content).length =
      ((Directive.scan content).map (·.raw)).length + 1 := by
    rw [List.length_map]
    exact Directive.pattern.length_gaps content
  have hpairs : ∀ q ∈ (queued (Directive.scan content) expansions).pairs,
      Mark q.1 ∧ Inert q.2 := by
    intro q hq
    obtain ⟨hraw, he⟩ := List.of_mem_zip hq
    obtain ⟨d, hd, hdq⟩ := List.mem_map.1 hraw
    exact ⟨hdq ▸ Directive.mark_of_mem_scan hd, hs.inert q.2 he⟩
  have hmarks : ∀ x ∈ (Directive.scan content).map (·.raw), Mark x ∨ Inert x := by
    intro x hx
    obtain ⟨d, hd, rfl⟩ := List.mem_map.1 hx
    exact .inl (Directive.mark_of_mem_scan hd)
  have hwoven := Replacements.apply_weave hpairs hs.spaced hgaps hmarks
  rw [hcontent, List.map_map] at hwoven
  have hplain : Plain (weave (Directive.pattern.gaps content)
      ((Directive.scan content).map
        ((queued (Directive.scan content) expansions).replacementFor ∘ (·.raw)))) := by
    refine Text.plain_weave hs.spaced (by simpa using hgaps) fun x hx => ?_
    obtain ⟨d, hd, rfl⟩ := List.mem_map.1 hx
    exact inert_of_replacementFor hd hlen hs.inert
  rw [← hwoven] at hplain
  have hscan := Directive.scan_plain hplain
  exact ⟨hwoven, hscan, fun c' contentKey' dependency' =>
    c'.compile_of_scan_eq_nil hscan contentKey' dependency'⟩

def greeter : Compiler (StateM Unit) :=
  let store : ChunkStore (StateM Unit) :=
    { find := fun key => return if key = "hi".toList then some "Hi [[+name]]".toList else none
      findPreloaded := return [] }
  { Compiler.ofStore store .never with forms := .html }

def greetings : Text := "<[[$hi name='A']][[%7]]|[[$hi name='A']]>[".toList

theorem compile_weaves_greetings :
    ∃ expansions text,
      ((greeter.compile greetings [] {}).runFrom {} ()).1 = .ok text ∧
      text = "<Hi A<div class=\"cb-form\" data-form-id=\"7\"></div>|Hi A>[".toList ∧
      Spliceable greetings expansions ∧
      text = weave (Directive.pattern.gaps greetings) ((Directive.scan greetings).map fun d =>
        ((((Directive.scan greetings).map (·.raw)).zip expansions).lookup d.raw).getD d.raw) ∧
      Directive.scan text = [] := by
  have hrun : (greeter.compile greetings [] {}).runFrom {} () =
      (.ok "<Hi A<div class=\"cb-form\" data-form-id=\"7\"></div>|Hi A>[".toList,
        ((greeter.compile greetings [] {}).runFrom {} ()).2) := Prod.ext (by decide +kernel) rfl
  obtain ⟨t₁, s₁, expansions, hpre, hexp, -, -, hspliced⟩ :=
    compile_weaves_expansions greeter greetings [] {} hrun
  have ht₁ : t₁ = (greeter.templates.preload.runFrom {} ()).2.1 := by rw [hpre]
  subst ht₁
  have hes : ((greeter.expandAll [] {} (Directive.scan greetings)).runFrom
      (greeter.templates.preload.runFrom {} ()).2.1 ()).1 = .ok ["Hi A".toList,
        "<div class=\"cb-form\" data-form-id=\"7\"></div>".toList, "Hi A".toList] := by
    decide +kernel
  rw [hexp] at hes
  cases hes
  have hs : Spliceable greetings ["Hi A".toList,
      "<div class=\"cb-form\" data-form-id=\"7\"></div>".toList, "Hi A".toList] :=
    ⟨by decide +kernel, by decide +kernel, by decide +kernel, by decide +kernel⟩
  obtain ⟨htext, hscan, -⟩ := hspliced hs
  exact ⟨_, _, by rw [hrun], rfl, hs, htext, hscan⟩

end ContentWeave
