import ContentWeave.Proofs.Compile.Stages

/-!
# Compilations that succeed

`Delivers` says that a computation succeeds from every state with an invariant and keeps the invariant.
Compiling over a cache that delivers succeeds if the store delivers the chunks that are asked for:
nothing else in a compilation can fail.
-/

namespace ContentWeave

variable {σ ε α β : Type} {inv : σ → Prop}

def Delivers (inv : σ → Prop) (x : ExceptT ε (StateM σ) α) : Prop :=
  ∀ s, inv s → (∃ a, (runOn x s).1 = .ok a) ∧ inv (runOn x s).2

namespace Delivers

variable {x : ExceptT ε (StateM σ) α}

protected theorem pure (a : α) : Delivers inv (Pure.pure a : ExceptT ε (StateM σ) α) :=
  fun _ hs => ⟨⟨a, rfl⟩, hs⟩

protected theorem bind {f : α → ExceptT ε (StateM σ) β} (hx : Delivers inv x)
    (hf : ∀ a, Delivers inv (f a)) : Delivers inv (x >>= f) := by
  intro s hs
  obtain ⟨⟨a, ha⟩, hi⟩ := hx s hs
  rw [runOn_bind]
  rcases hrun : runOn x s with ⟨r, s'⟩
  rw [hrun] at ha hi
  obtain rfl : r = .ok a := ha
  exact hf a s' hi

protected theorem map (f : α → β) (hx : Delivers inv x) : Delivers inv (f <$> x) := by
  rw [← bind_pure_comp]
  exact hx.bind fun a => .pure (f a)

end Delivers

structure Cache.Delivers (cache : Cache (StateM σ)) (inv : σ → Prop) : Prop where
  get : ∀ key, ContentWeave.Delivers inv (cache.get key)
  set : ∀ key value ttl dependency, ContentWeave.Delivers inv (cache.set key value ttl dependency)

theorem Cache.Delivers.getAs {cache : Cache (StateM σ)} (h : cache.Delivers inv)
    (codec : Json.Codec α) (key : Text) : ContentWeave.Delivers inv (cache.getAs codec key) := by
  unfold Cache.getAs
  refine (h.get key).bind fun found => ?_
  cases found with
  | none => exact .pure none
  | some value => exact .pure _

namespace Compile

/-- From all resident templates and a state with `inv`, `x` succeeds and leaves a state with `inv`. -/
def Delivers (inv : σ → Prop) (x : Compile (StateM σ) α) : Prop :=
  ∀ t s, inv s → (∃ a, (x.runFrom t s).1 = .ok a) ∧ inv (x.runFrom t s).2.2

namespace Delivers

protected theorem pure (a : α) : Delivers inv (Pure.pure a : Compile (StateM σ) α) :=
  fun _ _ hs => ⟨⟨a, rfl⟩, hs⟩

protected theorem bind {x : Compile (StateM σ) α} {f : α → Compile (StateM σ) β}
    (hx : Delivers inv x) (hf : ∀ a, Delivers inv (f a)) : Delivers inv (x >>= f) := by
  intro t s hs
  obtain ⟨⟨a, ha⟩, hi⟩ := hx t s hs
  rw [runFrom_bind]
  rcases hrun : x.runFrom t s with ⟨r, t', s'⟩
  rw [hrun] at ha hi
  obtain rfl : r = .ok a := ha
  exact hf a t' s' hi

protected theorem ofCache {x : ExceptT CacheError (StateM σ) α}
    (hx : ContentWeave.Delivers inv x) : Delivers inv (ofCache x) := by
  intro t s hs
  obtain ⟨⟨a, ha⟩, hi⟩ := hx s hs
  rw [runFrom_ofCache, ha]
  exact ⟨⟨a, rfl⟩, hi⟩

protected theorem ofStore {x : ExceptT StorageError (StateM σ) α}
    (hx : ContentWeave.Delivers inv x) : Delivers inv (ofStore x) := by
  intro t s hs
  obtain ⟨⟨a, ha⟩, hi⟩ := hx s hs
  rw [runFrom_ofStore, ha]
  exact ⟨⟨a, rfl⟩, hi⟩

protected theorem get :
    Delivers inv (getThe TemplateCache : Compile (StateM σ) TemplateCache) :=
  fun t _ hs => ⟨⟨t, rfl⟩, hs⟩

protected theorem modify (f : TemplateCache → TemplateCache) :
    Delivers inv (modifyThe TemplateCache f : Compile (StateM σ) Unit) :=
  fun _ _ hs => ⟨⟨(), rfl⟩, hs⟩

end Delivers
end Compile

namespace TemplateSource

variable {source : TemplateSource (StateM σ)} (hcache : source.cache.Delivers inv)

include hcache

theorem throughCache_delivers (codec : Json.Codec α) (cacheKey : Text)
    {ask : ExceptT StorageError (StateM σ) α} (hask : Delivers inv ask) :
    Compile.Delivers inv (source.throughCache codec cacheKey ask) := by
  unfold throughCache
  refine (Compile.Delivers.ofCache (hcache.getAs codec cacheKey)).bind fun found => ?_
  cases found with
  | some a => exact .pure a
  | none =>
    refine (Compile.Delivers.ofStore hask).bind fun a => ?_
    exact (Compile.Delivers.ofCache (hcache.set _ _ _ _)).bind fun _ => .pure a

theorem preload_delivers (hask : Delivers inv source.store.findPreloaded) :
    Compile.Delivers inv source.preload := by
  unfold preload
  refine Compile.Delivers.get.bind fun t => ?_
  cases t.preloaded with
  | true => exact .pure ()
  | false => exact (throughCache_delivers hcache _ _ (hask.map _)).bind fun _ => .modify _

theorem fetch_delivers {key : Text} (hask : Delivers inv (source.store.find key)) :
    Compile.Delivers inv (source.fetch key) := by
  unfold fetch
  refine Compile.Delivers.get.bind fun t => ?_
  cases t.resident.get? key with
  | some template => exact .pure template
  | none =>
    refine (throughCache_delivers hcache _ _ hask).bind fun template => ?_
    exact (Compile.Delivers.modify _).bind fun _ => .pure template

end TemplateSource

namespace Compiler

variable {c : Compiler (StateM σ)} {contentKey : Text} {dependency : Dependency}

theorem expand_delivers (hcache : c.cache.Delivers inv) {d : Directive}
    (hfetch : d.kind = .chunk → Compile.Delivers inv (c.templates.fetch d.key)) :
    Compile.Delivers inv (c.expand d contentKey dependency) := by
  unfold expand
  refine (Compile.Delivers.ofCache (hcache.get _)).bind fun found => ?_
  cases found with
  | some text => exact .pure text
  | none =>
    cases hkind : d.kind with
    | form => exact .pure _
    | unknown => exact .pure []
    | chunk =>
      refine (hfetch hkind).bind fun template => ?_
      cases template with
      | none => exact .pure []
      | some text => exact (Compile.Delivers.ofCache (hcache.set _ _ _ _)).bind fun _ => .pure _

/-- A compilation succeeds if its preload and its chunk calls find templates, or find that there are
none. -/
theorem compile_delivers (htemplates : c.templates.cache.Delivers inv)
    (hcache : c.cache.Delivers inv) (hpreload : Delivers inv c.templates.store.findPreloaded)
    {content : Text} (hfind : ∀ d ∈ Directive.scan content, d.kind = .chunk →
      Delivers inv (c.templates.store.find d.key)) :
    Compile.Delivers inv (c.compile content contentKey dependency) := by
  have hall : ∀ ds ⊆ Directive.scan content,
      Compile.Delivers inv (c.expandAll contentKey dependency ds) := by
    intro ds hds
    induction ds with
    | nil => exact .pure []
    | cons d ds ih =>
      have hd := hds List.mem_cons_self
      have hone : Compile.Delivers inv (c.expand d contentKey dependency) :=
        expand_delivers hcache fun hkind =>
          TemplateSource.fetch_delivers htemplates (hfind d hd hkind)
      exact hone.bind fun text =>
        (ih fun e he => hds (List.mem_cons_of_mem d he)).bind fun texts => .pure (text :: texts)
  unfold compile
  refine (TemplateSource.preload_delivers htemplates hpreload).bind fun _ => ?_
  exact (hall _ (List.Subset.refl _)).bind fun texts => .pure _

end Compiler
end ContentWeave
