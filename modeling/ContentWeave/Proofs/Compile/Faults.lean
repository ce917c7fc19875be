import ContentWeave.Proofs.Compile.Stages

/-!
# Runs that fail, and two runs of one computation

`Attempts` says that a computation which fails keeps an invariant, and nothing of one that succeeds.
A template source that fails keeps what reading the cache and asking the store keep, and what storing
keeps where it fails; only for that last step something can be asked of the state. `Uniform` compares
two runs of one computation from related states: both return the same, and the states they leave are
related again. Its rules follow the way computations are put together, as those of `Keeps` do.
-/

namespace ContentWeave

variable {σ ε ε' α β : Type}

/-- If `x` fails from a state with `inv`, it leaves one with `inv`. -/
def Attempts (inv : σ → Prop) (x : ExceptT ε (StateM σ) α) : Prop :=
  ∀ s, inv s → ∀ e, (runOn x s).1 = .error e → inv (runOn x s).2

namespace Attempts

variable {inv : σ → Prop} {x : ExceptT ε (StateM σ) α} {post : α → Prop}

protected theorem bind {f : α → ExceptT ε (StateM σ) β} (hx : Keeps inv x post)
    (hf : ∀ a, post a → Attempts inv (f a)) : Attempts inv (x >>= f) := by
  intro s hs e he
  obtain ⟨hi, hp⟩ := hx s hs
  rw [runOn_bind] at he ⊢
  rcases hr : runOn x s with ⟨e' | a, s'⟩
  · rw [hr] at hi
    exact hi
  · rw [hr] at he hi hp
    exact hf a (hp a rfl) s' hi e he

end Attempts

/-- From states related by `rel`, both runs of `x` return the same and leave related states. -/
def Uniform (rel : σ → σ → Prop) (x : ExceptT ε (StateM σ) α) : Prop :=
  ∀ s s', rel s s' → (runOn x s).1 = (runOn x s').1 ∧ rel (runOn x s).2 (runOn x s').2

namespace Uniform

variable {rel : σ → σ → Prop} {x : ExceptT ε (StateM σ) α}

protected theorem pure (a : α) : Uniform rel (Pure.pure a : ExceptT ε (StateM σ) α) :=
  fun _ _ h => ⟨rfl, h⟩

protected theorem throw (e : ε) : Uniform rel (throw e : ExceptT ε (StateM σ) α) :=
  fun _ _ h => ⟨rfl, h⟩

theorem bind_of_ok {f : α → ExceptT ε (StateM σ) β} (hx : Uniform rel x)
    (hf : ∀ s s' a, rel s s' → (runOn x s).1 = .ok a → (runOn x s').1 = .ok a →
      (runOn (f a) (runOn x s).2).1 = (runOn (f a) (runOn x s').2).1 ∧
        rel (runOn (f a) (runOn x s).2).2 (runOn (f a) (runOn x s').2).2) :
    Uniform rel (x >>= f) := by
  intro s s' h
  obtain ⟨hsame, hrel⟩ := hx s s' h
  have hnext := hf s s'
  rw [runOn_bind, runOn_bind]
  rcases hx₁ : runOn x s with ⟨r, w⟩
  rcases hx₂ : runOn x s' with ⟨r', w'⟩
  rw [hx₁, hx₂] at hsame hrel hnext
  obtain rfl : r = r' := hsame
  cases r with
  | error e => exact ⟨rfl, hrel⟩
  | ok a => exact hnext a h rfl rfl

protected theorem bind {f : α → ExceptT ε (StateM σ) β} (hx : Uniform rel x)
    (hf : ∀ a, Uniform rel (f a)) : Uniform rel (x >>= f) :=
  hx.bind_of_ok fun s s' a h _ _ => hf a _ _ (hx s s' h).2

protected theorem map (f : α → β) (hx : Uniform rel x) : Uniform rel (f <$> x) := by
  rw [← bind_pure_comp]
  exact hx.bind fun a => .pure (f a)

protected theorem mapM {f : β → ExceptT ε (StateM σ) α} (hf : ∀ b, Uniform rel (f b)) (bs : List β) :
    Uniform rel (bs.mapM f) := by
  induction bs with
  | nil =>
    rw [List.mapM_nil]
    exact .pure []
  | cons b bs ih =>
    rw [List.mapM_cons]
    exact (hf b).bind fun a => ih.bind fun as => .pure (a :: as)

protected theorem transform {f : Except ε α → Except ε' β} {y : ExceptT ε' (StateM σ) β}
    (hx : Uniform rel x) (hy : ∀ s, runOn y s = (f (runOn x s).1, (runOn x s).2)) : Uniform rel y := by
  intro s s' h
  obtain ⟨hsame, hrel⟩ := hx s s' h
  rw [hy, hy]
  exact ⟨congrArg f hsame, hrel⟩

end Uniform

structure Cache.Uniform (cache : Cache (StateM σ)) (rel : σ → σ → Prop) : Prop where
  get : ∀ key, ContentWeave.Uniform rel (cache.get key)
  set : ∀ key value ttl dependency, ContentWeave.Uniform rel (cache.set key value ttl dependency)
  invalidate : ∀ tags, ContentWeave.Uniform rel (cache.invalidate tags)

theorem Cache.Uniform.never (rel : σ → σ → Prop) : (Cache.never : Cache (StateM σ)).Uniform rel where
  get _ := .pure none
  set _ _ _ _ := .pure ()
  invalidate _ := .pure ()

namespace Compile

def Uniform (rel : σ → σ → Prop) (x : Compile (StateM σ) α) : Prop :=
  ∀ t s s', rel s s' → (x.runFrom t s).1 = (x.runFrom t s').1 ∧
    (x.runFrom t s).2.1 = (x.runFrom t s').2.1 ∧ rel (x.runFrom t s).2.2 (x.runFrom t s').2.2

namespace Uniform

variable {rel : σ → σ → Prop}

protected theorem pure (a : α) : Uniform rel (Pure.pure a : Compile (StateM σ) α) :=
  fun _ _ _ h => ⟨rfl, rfl, h⟩

protected theorem bind {x : Compile (StateM σ) α} {f : α → Compile (StateM σ) β}
    (hx : Uniform rel x) (hf : ∀ a, Uniform rel (f a)) : Uniform rel (x >>= f) := by
  intro t s s' h
  obtain ⟨hsame, htemplates, hrel⟩ := hx t s s' h
  rw [runFrom_bind, runFrom_bind]
  rcases hx₁ : x.runFrom t s with ⟨r, t₁, w⟩
  rcases hx₂ : x.runFrom t s' with ⟨r', t₁', w'⟩
  rw [hx₁, hx₂] at hsame htemplates hrel
  obtain rfl : r = r' := hsame
  obtain rfl : t₁ = t₁' := htemplates
  cases r with
  | error e => exact ⟨rfl, rfl, hrel⟩
  | ok a => exact hf a t₁ w w' hrel

protected theorem ofCache {x : ExceptT CacheError (StateM σ) α} (hx : ContentWeave.Uniform rel x) :
    Uniform rel (ofCache x) := by
  intro t s s' h
  obtain ⟨hsame, hrel⟩ := hx s s' h
  rw [runFrom_ofCache, runFrom_ofCache, hsame]
  exact ⟨rfl, rfl, hrel⟩

protected theorem ofStore {x : ExceptT StorageError (StateM σ) α} (hx : ContentWeave.Uniform rel x) :
    Uniform rel (ofStore x) := by
  intro t s s' h
  obtain ⟨hsame, hrel⟩ := hx s s' h
  rw [runFrom_ofStore, runFrom_ofStore, hsame]
  exact ⟨rfl, rfl, hrel⟩

protected theorem get :
    Uniform rel (getThe TemplateCache : Compile (StateM σ) TemplateCache) :=
  fun _ _ _ h => ⟨rfl, rfl, h⟩

protected theorem modify (f : TemplateCache → TemplateCache) :
    Uniform rel (modifyThe TemplateCache f : Compile (StateM σ) Unit) :=
  fun _ _ _ h => ⟨rfl, rfl, h⟩

end Uniform

end Compile

namespace TemplateSource

section Uniform

variable {rel : σ → σ → Prop} {source : TemplateSource (StateM σ)}
variable (hget : ∀ key, Uniform rel (source.cache.get key))
variable (hset : ∀ key value ttl dependency, Uniform rel (source.cache.set key value ttl dependency))

include hget hset

theorem throughCache_uniform (codec : Json.Codec α) (cacheKey : Text)
    {ask : ExceptT StorageError (StateM σ) α} (hask : Uniform rel ask) :
    Compile.Uniform rel (source.throughCache codec cacheKey ask) := by
  have hgetAs : Uniform rel (source.cache.getAs codec cacheKey) := by
    unfold Cache.getAs
    refine (hget cacheKey).bind fun found => ?_
    cases found with
    | none => exact .pure none
    | some value => exact .pure _
  unfold throughCache
  refine (Compile.Uniform.ofCache hgetAs).bind fun found => ?_
  cases found with
  | some a => exact .pure a
  | none =>
    refine (Compile.Uniform.ofStore hask).bind fun a => ?_
    exact (Compile.Uniform.ofCache (hset _ _ _ _)).bind fun _ => .pure a

theorem preload_uniform (hask : Uniform rel source.store.findPreloaded) :
    Compile.Uniform rel source.preload := by
  unfold preload
  refine Compile.Uniform.get.bind fun t => ?_
  cases t.preloaded with
  | true => exact .pure ()
  | false => exact (throughCache_uniform hget hset _ _ (hask.map _)).bind fun _ => .modify _

theorem fetch_uniform {key : Text} (hask : Uniform rel (source.store.find key)) :
    Compile.Uniform rel (source.fetch key) := by
  unfold fetch
  refine Compile.Uniform.get.bind fun t => ?_
  cases t.resident.get? key with
  | some template => exact .pure template
  | none =>
    refine (throughCache_uniform hget hset _ _ hask).bind fun template => ?_
    exact (Compile.Uniform.modify _).bind fun _ => .pure template

end Uniform

/-- The state in which an answer is to be stored, if the cache has none and the store gives one. -/
def toStore (source : TemplateSource (StateM σ)) (codec : Json.Codec α) (cacheKey : Text)
    (ask : ExceptT StorageError (StateM σ) α) (s : σ) : σ :=
  (runOn ask (runOn (source.cache.getAs codec cacheKey) s).2).2

section Failing

variable {inv ready : σ → Prop} {source : TemplateSource (StateM σ)} {t : TemplateCache} {s : σ}
variable {e : CompileError}
variable (hget : ∀ key, Keeps inv (source.cache.get key) fun _ => True)
variable (hset : ∀ key value ttl dependency w, inv w → ready w → ∀ e,
  (runOn (source.cache.set key value ttl dependency) w).1 = .error e →
    inv (runOn (source.cache.set key value ttl dependency) w).2)
variable (hs : inv s)

include hget hset hs

theorem throughCache_of_error {codec : Json.Codec α} {cacheKey : Text}
    {ask : ExceptT StorageError (StateM σ) α} (hask : Keeps inv ask fun _ => True)
    (hready : ready (source.toStore codec cacheKey ask s))
    (he : ((source.throughCache codec cacheKey ask).runFrom t s).1 = .error e) :
    ((source.throughCache codec cacheKey ask).runFrom t s).2.1 = t ∧
      inv ((source.throughCache codec cacheKey ask).runFrom t s).2.2 := by
  have hmissed : inv (runOn (source.cache.getAs codec cacheKey) s).2 := by
    rw [Cache.runOn_getAs]
    exact (hget cacheKey s hs).1
  have hasked := (hask _ hmissed).1
  rw [toStore] at hready
  rw [runFrom_throughCache] at he ⊢
  rcases hcached : runOn (source.cache.getAs codec cacheKey) s with ⟨⟨e'⟩ | ⟨_ | a⟩, s₁⟩
  · rw [hcached] at hmissed
    exact ⟨rfl, hmissed⟩
  · rw [hcached] at he hready hasked
    dsimp only at he ⊢
    rcases hanswer : runOn ask s₁ with ⟨⟨e'⟩ | ⟨a⟩, s₂⟩
    · rw [hanswer] at hasked
      exact ⟨rfl, hasked⟩
    · rw [hanswer] at he hready hasked
      have hstored := hset cacheKey (codec.encode a) source.ttl dependency s₂ hasked hready
      dsimp only [Cache.setAs] at he ⊢
      rcases hrun : runOn (source.cache.set cacheKey (codec.encode a) source.ttl dependency) s₂
        with ⟨⟨e'⟩ | ⟨_⟩, s₃⟩
      · rw [hrun] at hstored
        exact ⟨rfl, hstored e' rfl⟩
      · rw [hrun] at he
        cases he
  · rw [hcached] at he
    cases he

theorem preload_of_error (hask : Keeps inv source.store.findPreloaded fun _ => True)
    (hready : ready (source.toStore Json.Codec.texts preloadKey
      (Table.ofList <$> source.store.findPreloaded) s))
    (he : (source.preload.runFrom t s).1 = .error e) :
    (source.preload.runFrom t s).2.1 = t ∧ inv (source.preload.runFrom t s).2.2 := by
  have htable : Keeps inv (Table.ofList <$> source.store.findPreloaded) fun _ => True :=
    Keeps.map hask fun _ _ => trivial
  rw [runFrom_preload] at he ⊢
  split_ifs at he ⊢
  have hfails := fun e' => throughCache_of_error (t := t) (e := e') hget hset hs htable hready
  rcases hrun : (source.throughCache Json.Codec.texts preloadKey
    (Table.ofList <$> source.store.findPreloaded)).runFrom t s with ⟨⟨e'⟩ | ⟨templates⟩, t', s'⟩
  · rw [hrun] at hfails
    exact hfails e' rfl
  · rw [hrun] at he
    cases he

theorem fetch_of_error {key : Text} (hask : Keeps inv (source.store.find key) fun _ => True)
    (hready : ready (source.toStore Json.Codec.optionalText (lookupKey key)
      (source.store.find key) s))
    (he : ((source.fetch key).runFrom t s).1 = .error e) :
    ((source.fetch key).runFrom t s).2.1 = t ∧ inv ((source.fetch key).runFrom t s).2.2 := by
  rw [runFrom_fetch] at he ⊢
  cases hresident : t.resident.get? key with
  | some template =>
    rw [hresident] at he
    cases he
  | none =>
    rw [hresident] at he
    have hfails := fun e' => throughCache_of_error (t := t) (e := e') hget hset hs hask hready
    dsimp only at he ⊢
    rcases hrun : (source.throughCache Json.Codec.optionalText (lookupKey key)
      (source.store.find key)).runFrom t s with ⟨⟨e'⟩ | ⟨template⟩, t', s'⟩
    · rw [hrun] at hfails
      exact hfails e' rfl
    · rw [hrun] at he
      cases he

end Failing

end TemplateSource

namespace Compiler

variable {rel : σ → σ → Prop} {c : Compiler (StateM σ)} {contentKey : Text}
variable {dependency : Dependency}

theorem expand_uniform {d : Directive} (hget : ∀ key, Uniform rel (c.cache.get key))
    (hset : ∀ key value ttl dependency, Uniform rel (c.cache.set key value ttl dependency))
    (hfetch : Compile.Uniform rel (c.templates.fetch d.key)) :
    Compile.Uniform rel (c.expand d contentKey dependency) := by
  unfold expand
  refine (Compile.Uniform.ofCache (hget _)).bind fun found => ?_
  cases found with
  | some text => exact .pure text
  | none =>
    cases d.kind with
    | form => exact .pure _
    | unknown => exact .pure []
    | chunk =>
      refine hfetch.bind fun template => ?_
      cases template with
      | none => exact .pure []
      | some text => exact (Compile.Uniform.ofCache (hset _ _ _ _)).bind fun _ => .pure _

theorem compile_uniform (hpreload : Compile.Uniform rel c.templates.preload)
    (hexpand : ∀ d, Compile.Uniform rel (c.expand d contentKey dependency)) (content : Text) :
    Compile.Uniform rel (c.compile content contentKey dependency) := by
  have hall : ∀ ds, Compile.Uniform rel (c.expandAll contentKey dependency ds) := by
    intro ds
    induction ds with
    | nil => exact .pure []
    | cons d ds ih => exact (hexpand d).bind fun text => ih.bind fun texts => .pure (text :: texts)
  exact hpreload.bind fun _ => (hall _).bind fun texts => .pure _

end Compiler
end ContentWeave
