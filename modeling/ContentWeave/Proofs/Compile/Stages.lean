import ContentWeave.Proofs.Cache.Sound

/-!
# One rule for each stage of a compilation

What a stage of a compilation needs of the resident templates and of a sound cache, and what it
returns then. The rules leave open which texts fit which keys and what is known about the templates,
so that each account of sessions instantiates them once.
-/

namespace ContentWeave

variable {σ α : Type} {keys : Set Text} {fits : Text → Text → Prop} {inv : σ → Prop}
variable {res pre : TemplateCache → Prop}

namespace Cache.Sound

variable {cache : Cache (StateM σ)}

theorem getAs (h : cache.Sound keys fits inv) (codec : Json.Codec α) {key : Text}
    (hkey : key ∈ keys) :
    Keeps inv (cache.getAs codec key) fun found =>
      ∀ a ∈ found, ∃ value, fits key value ∧ codec.decode? value = some a := by
  unfold Cache.getAs
  refine Keeps.bind (h.get key hkey) fun found hfound => ?_
  cases found with
  | none => exact Keeps.pure (by simp)
  | some value => exact Keeps.pure fun a ha => ⟨value, hfound value rfl, ha⟩

end Cache.Sound

theorem Cache.runOn_getAs (cache : Cache (StateM σ)) (codec : Json.Codec α) (key : Text) (w : σ) :
    runOn (cache.getAs codec key) w =
      ((runOn (cache.get key) w).1.map (·.bind codec.decode?), (runOn (cache.get key) w).2) := by
  unfold Cache.getAs
  rw [runOn_bind]
  rcases runOn (cache.get key) w with ⟨⟨e⟩ | ⟨_ | value⟩, w'⟩ <;> rfl

namespace TemplateSource

theorem chunks_prefix_preloadKey : "chunks:".toList <+: preloadKey := ⟨"preload".toList, rfl⟩

theorem chunks_prefix_lookupKey (key : Text) : "chunks:".toList <+: lookupKey key :=
  ⟨"key:".toList ++ key, rfl⟩

theorem lookupKey_injective : Function.Injective lookupKey :=
  fun _ _ h => List.append_cancel_left h

theorem lookupKey_ne_preloadKey (key : Text) : lookupKey key ≠ preloadKey := by
  intro h
  have hk : ("chunks:".toList ++ "key:".toList ++ key) = "chunks:".toList ++ "preload".toList := h
  rw [List.append_assoc] at hk
  have hhead := (List.cons.inj (List.append_cancel_left hk)).1
  exact absurd hhead (by decide)

variable {s : TemplateSource (StateM σ)}

/-- Asking through a cache: `answer` is what the store says, `known` what is known of the result. -/
theorem throughCache_leads (hs : s.cache.Sound keys fits inv) {codec : Json.Codec α}
    {cacheKey : Text} (hkey : cacheKey ∈ keys) {ask : ExceptT StorageError (StateM σ) α}
    {answer known : α → Prop} (hask : Keeps inv ask answer)
    (hfits : ∀ a, answer a → fits cacheKey (codec.encode a))
    (hcached : ∀ value a, fits cacheKey value → codec.decode? value = some a → known a)
    (hanswer : ∀ a, answer a → known a) :
    Compile.Leads res inv pre (s.throughCache codec cacheKey ask) fun a t => pre t ∧ known a := by
  unfold throughCache
  refine Compile.Leads.bind (Compile.Leads.ofCache (hs.getAs codec hkey)) fun found => ?_
  refine Compile.Leads.assume fun hfound => ?_
  cases found with
  | some a =>
    obtain ⟨value, hvalue, hdecode⟩ := hfound a rfl
    exact Compile.Leads.pure fun t _ hpre => ⟨hpre, hcached value a hvalue hdecode⟩
  | none =>
    refine Compile.Leads.bind (Compile.Leads.ofStore hask) fun a => ?_
    refine Compile.Leads.assume fun ha => ?_
    have hset := hs.set cacheKey hkey (codec.encode a) s.ttl dependency (hfits a ha)
    refine Compile.Leads.bind (Compile.Leads.ofCache hset) fun _ => ?_
    exact Compile.Leads.pure fun t _ hpre => ⟨hpre.1, hanswer a ha⟩

theorem runFrom_throughCache (s : TemplateSource (StateM σ)) (codec : Json.Codec α)
    (cacheKey : Text) (ask : ExceptT StorageError (StateM σ) α) (t : TemplateCache) (w : σ) :
    (s.throughCache codec cacheKey ask).runFrom t w =
      match runOn (s.cache.getAs codec cacheKey) w with
      | (.error e, w) => (.error (.cache e), t, w)
      | (.ok (some a), w) => (.ok a, t, w)
      | (.ok none, w) =>
        match runOn ask w with
        | (.error e, w) => (.error (.storage e), t, w)
        | (.ok a, w) =>
          match runOn (s.cache.setAs codec cacheKey a s.ttl dependency) w with
          | (.error e, w) => (.error (.cache e), t, w)
          | (.ok _, w) => (.ok a, t, w) := by
  unfold throughCache
  rw [Compile.runFrom_bind, Compile.runFrom_ofCache]
  rcases runOn (s.cache.getAs codec cacheKey) w with ⟨⟨e⟩ | ⟨_ | a⟩, w₁⟩
  · rfl
  · dsimp only [Except.mapError]
    rw [Compile.runFrom_bind, Compile.runFrom_ofStore]
    rcases runOn ask w₁ with ⟨⟨e⟩ | ⟨a⟩, w₂⟩
    · rfl
    · dsimp only [Except.mapError]
      rw [Compile.runFrom_bind, Compile.runFrom_ofCache]
      rcases runOn (s.cache.setAs codec cacheKey a s.ttl dependency) w₂ with ⟨⟨e⟩ | ⟨_⟩, w₃⟩
      · rfl
      · rfl
  · rfl

theorem throughCache_resident (s : TemplateSource (StateM σ)) (codec : Json.Codec α)
    (cacheKey : Text) (ask : ExceptT StorageError (StateM σ) α) (t : TemplateCache) (w : σ) :
    ((s.throughCache codec cacheKey ask).runFrom t w).2.1 = t := by
  rw [runFrom_throughCache]
  split
  · rfl
  · rfl
  · split
    · rfl
    · split <;> rfl

theorem runFrom_preload (s : TemplateSource (StateM σ)) (t : TemplateCache) (w : σ) :
    s.preload.runFrom t w =
      if t.preloaded then (.ok (), t, w)
      else match (s.throughCache Json.Codec.texts preloadKey
          (Table.ofList <$> s.store.findPreloaded)).runFrom t w with
        | (.ok templates, t, w) => (.ok (), t.rememberAll templates, w)
        | (.error e, t, w) => (.error e, t, w) := by
  unfold preload
  rw [Compile.runFrom_bind, Compile.runFrom_get]
  dsimp only
  cases hp : t.preloaded with
  | true => rfl
  | false =>
    rw [if_neg Bool.false_ne_true, if_neg Bool.false_ne_true, Compile.runFrom_bind]
    rcases (s.throughCache Json.Codec.texts preloadKey
      (Table.ofList <$> s.store.findPreloaded)).runFrom t w with ⟨⟨e⟩ | ⟨templates⟩, t', w'⟩
    · rfl
    · rfl

theorem runFrom_fetch (s : TemplateSource (StateM σ)) (key : Text) (t : TemplateCache) (w : σ) :
    (s.fetch key).runFrom t w =
      match t.resident.get? key with
      | some template => (.ok template, t, w)
      | none =>
        match (s.throughCache Json.Codec.optionalText (lookupKey key) (s.store.find key)).runFrom
          t w with
        | (.ok template, t, w) => (.ok template, t.remember key template, w)
        | (.error e, t, w) => (.error e, t, w) := by
  unfold fetch
  rw [Compile.runFrom_bind, Compile.runFrom_get]
  dsimp only
  cases t.resident.get? key with
  | some template => rfl
  | none =>
    dsimp only
    rw [Compile.runFrom_bind]
    rcases (s.throughCache Json.Codec.optionalText (lookupKey key) (s.store.find key)).runFrom t w
      with ⟨⟨e⟩ | ⟨template⟩, t', w'⟩
    · rfl
    · rfl

theorem preload_state (s : TemplateSource (StateM σ)) (t : TemplateCache) (w : σ) :
    (s.preload.runFrom t w).2.2 =
      if t.preloaded then w
      else ((s.throughCache Json.Codec.texts preloadKey
        (Table.ofList <$> s.store.findPreloaded)).runFrom t w).2.2 := by
  rw [runFrom_preload]
  split_ifs
  · rfl
  · rcases (s.throughCache Json.Codec.texts preloadKey
      (Table.ofList <$> s.store.findPreloaded)).runFrom t w with ⟨⟨e⟩ | ⟨templates⟩, t', w'⟩
    · rfl
    · rfl

theorem fetch_state (s : TemplateSource (StateM σ)) (key : Text) (t : TemplateCache) (w : σ) :
    ((s.fetch key).runFrom t w).2.2 =
      if t.resident.get? key = none then
        ((s.throughCache Json.Codec.optionalText (lookupKey key) (s.store.find key)).runFrom t w).2.2
      else w := by
  rw [runFrom_fetch]
  cases t.resident.get? key with
  | some template => rfl
  | none =>
    rcases (s.throughCache Json.Codec.optionalText (lookupKey key) (s.store.find key)).runFrom t w
      with ⟨⟨e⟩ | ⟨template⟩, t', w'⟩
    · rfl
    · rfl

variable {post : Unit → TemplateCache → Prop}

theorem preload_leads (known : Table Text Text → Prop)
    (hask : ∀ pre, Compile.Leads res inv pre
      (s.throughCache Json.Codec.texts preloadKey (Table.ofList <$> s.store.findPreloaded))
      fun templates t => pre t ∧ known templates)
    (hdone : ∀ t, res t → pre t → t.preloaded = true → post () t)
    (hload : ∀ t templates, res t → pre t → known templates →
      res (t.rememberAll templates) ∧ post () (t.rememberAll templates)) :
    Compile.Leads res inv pre s.preload post := by
  unfold preload
  refine Compile.Leads.bind Compile.Leads.get fun t₀ => ?_
  cases hp : t₀.preloaded with
  | true =>
    refine Compile.Leads.pure fun t hres ht => ?_
    obtain ⟨rfl, hpre⟩ := ht
    exact hdone t₀ hres hpre hp
  | false =>
    refine Compile.Leads.bind (hask _) fun templates => ?_
    refine Compile.Leads.assume fun hknown => ?_
    exact Compile.Leads.modify fun t hres ht => hload t templates hres ht.2 hknown

theorem fetch_leads {key : Text} (known : Option Text → Prop)
    {post : Option Text → TemplateCache → Prop}
    (hask : ∀ pre, Compile.Leads res inv pre
      (s.throughCache Json.Codec.optionalText (lookupKey key) (s.store.find key))
      fun template t => pre t ∧ known template)
    (hfound : ∀ t template, res t → pre t → t.resident.get? key = some template →
      post template t)
    (hload : ∀ t template, res t → pre t → t.resident.get? key = none → known template →
      res (t.remember key template) ∧ post template (t.remember key template)) :
    Compile.Leads res inv pre (s.fetch key) post := by
  unfold fetch
  refine Compile.Leads.bind Compile.Leads.get fun t₀ => ?_
  cases hr : t₀.resident.get? key with
  | some template =>
    refine Compile.Leads.pure fun t hres ht => ?_
    obtain ⟨rfl, hpre⟩ := ht
    exact hfound t₀ template hres hpre hr
  | none =>
    refine Compile.Leads.bind (hask _) fun template => ?_
    refine Compile.Leads.assume fun hknown => ?_
    have hmodify : Compile.Leads res inv (fun t => t₀ = t ∧ pre t)
        (modifyThe TemplateCache (·.remember key template)) fun _ t => post template t := by
      refine Compile.Leads.modify fun t hres ht => ?_
      obtain ⟨rfl, hpre⟩ := ht
      exact hload t₀ template hres hpre hr hknown
    exact Compile.Leads.bind hmodify fun _ => Compile.Leads.pure fun t _ ht => ht

end TemplateSource

namespace Compiler

variable {c : Compiler (StateM σ)} {d : Directive} {contentKey : Text} {dependency : Dependency}

variable (c) in
theorem renderChunk_state (d : Directive) (contentKey : Text) (dependency : Dependency)
    (t : TemplateCache) (w : σ) : ((c.renderChunk d contentKey dependency).runFrom t w).2.2 =
      match (c.templates.fetch d.key).runFrom t w with
      | (.ok (some template), _, w) => (runOn (c.cache.set (renderKey d.key contentKey)
          (c.fill template (ArgumentSet.parse d.raw)) c.renderTtl dependency) w).2
      | (_, _, w) => w := by
  unfold renderChunk
  rw [Compile.runFrom_bind]
  rcases (c.templates.fetch d.key).runFrom t w with ⟨⟨e⟩ | ⟨_ | template⟩, t', w'⟩
  · rfl
  · rfl
  · dsimp only
    rw [Compile.runFrom_bind, Compile.runFrom_ofCache]
    rcases runOn (c.cache.set (renderKey d.key contentKey)
      (c.fill template (ArgumentSet.parse d.raw)) c.renderTtl dependency) w' with ⟨⟨e⟩ | ⟨_⟩, w''⟩
    · rfl
    · rfl

variable (c) in
theorem runFrom_expand (d : Directive) (contentKey : Text) (dependency : Dependency)
    (t : TemplateCache) (w : σ) : (c.expand d contentKey dependency).runFrom t w =
      match runOn (c.cache.get (renderKey d.key contentKey)) w with
      | (.error e, w) => (.error (.cache e), t, w)
      | (.ok (some text), w) => (.ok text, t, w)
      | (.ok none, w) =>
        match d.kind with
        | .chunk => (c.renderChunk d contentKey dependency).runFrom t w
        | .form => (.ok (c.renderForm d.key), t, w)
        | .unknown => (.ok [], t, w) := by
  unfold expand
  rw [Compile.runFrom_bind, Compile.runFrom_ofCache]
  rcases runOn (c.cache.get (renderKey d.key contentKey)) w with ⟨⟨e⟩ | ⟨_ | text⟩, w'⟩
  · rfl
  · dsimp only [Except.mapError]
    cases d.kind with
    | chunk => rfl
    | form => rfl
    | unknown => rfl
  · rfl

theorem expand_leads {stands : Text → Prop} (template : Option Text → Prop)
    (hc : c.cache.Sound keys fits inv) (hkey : renderKey d.key contentKey ∈ keys)
    (hcached : ∀ text, fits (renderKey d.key contentKey) text → stands text)
    (hfetch : d.kind = .chunk → Compile.Leads res inv pre (c.templates.fetch d.key)
      fun found t => pre t ∧ template found)
    (hmissing : d.kind = .chunk → template none → stands [])
    (hfilled : d.kind = .chunk → ∀ text, template (some text) →
      fits (renderKey d.key contentKey) (c.fill text (ArgumentSet.parse d.raw)))
    (hform : d.kind = .form → stands (c.renderForm d.key))
    (hunknown : d.kind = .unknown → stands []) :
    Compile.Leads res inv pre (c.expand d contentKey dependency) fun text t => pre t ∧ stands text := by
  unfold expand
  refine Compile.Leads.bind (Compile.Leads.ofCache (hc.get _ hkey)) fun found => ?_
  refine Compile.Leads.assume fun hfound => ?_
  cases found with
  | some text => exact Compile.Leads.pure fun t _ hpre => ⟨hpre, hcached text (hfound text rfl)⟩
  | none =>
    cases hk : d.kind with
    | form => exact Compile.Leads.pure fun t _ hpre => ⟨hpre, hform hk⟩
    | unknown => exact Compile.Leads.pure fun t _ hpre => ⟨hpre, hunknown hk⟩
    | chunk =>
      refine Compile.Leads.bind (hfetch hk) fun found => ?_
      refine Compile.Leads.assume fun htemplate => ?_
      cases found with
      | none => exact Compile.Leads.pure fun t _ hpre => ⟨hpre, hmissing hk htemplate⟩
      | some text =>
        have hfits := hfilled hk text htemplate
        have hset := hc.set _ hkey _ c.renderTtl dependency hfits
        refine Compile.Leads.bind (Compile.Leads.ofCache hset) fun _ => ?_
        exact Compile.Leads.pure fun t _ hpre => ⟨hpre.1, hcached _ hfits⟩

theorem expandAll_leads {stands : Directive → Text → Prop} {ds : List Directive}
    (h : ∀ d ∈ ds, Compile.Leads res inv pre (c.expand d contentKey dependency)
      fun text t => pre t ∧ stands d text) :
    Compile.Leads res inv pre (c.expandAll contentKey dependency ds)
      fun texts t => pre t ∧ List.Forall₂ stands ds texts := by
  induction ds with
  | nil => exact Compile.Leads.pure fun t _ hpre => ⟨hpre, .nil⟩
  | cons d ds ih =>
    rw [expandAll]
    refine Compile.Leads.bind (h d (by simp)) fun text => ?_
    refine Compile.Leads.assume fun htext => ?_
    refine Compile.Leads.bind (ih fun e he => h e (by simp [he])) fun texts => ?_
    refine Compile.Leads.assume fun htexts => ?_
    exact Compile.Leads.pure fun t _ hpre => ⟨hpre, .cons htext htexts⟩

theorem compile_leads {start : TemplateCache → Prop} {stands : Directive → Text → Prop}
    {content : Text} (hpreload : Compile.Leads res inv start c.templates.preload fun _ => pre)
    (h : ∀ d ∈ Directive.scan content, Compile.Leads res inv pre
      (c.expand d contentKey dependency) fun text t => pre t ∧ stands d text) :
    Compile.Leads res inv start (c.compile content contentKey dependency) fun text t =>
      pre t ∧ ∃ texts, List.Forall₂ stands (Directive.scan content) texts ∧
        text = Replacements.apply ⟨((Directive.scan content).map (·.raw)).zip texts⟩ content := by
  unfold compile
  refine Compile.Leads.bind hpreload fun _ => ?_
  refine Compile.Leads.bind (expandAll_leads h) fun texts => ?_
  refine Compile.Leads.assume fun htexts => ?_
  exact Compile.Leads.pure fun _ _ hpre => ⟨hpre, texts, htexts, rfl⟩

end Compiler

namespace Compile

def Retains (inv : σ → Prop) (x : Compile (StateM σ) α) : Prop :=
  Leads (fun _ => True) inv (fun _ => True) x fun _ _ => True

theorem Retains.run {inv : σ → Prop} {x : Compile (StateM σ) α} (h : Retains inv x)
    (t : TemplateCache) {s : σ} (hs : inv s) : inv (x.runFrom t s).2.2 :=
  (h t s trivial hs trivial).2.1

end Compile

namespace TemplateSource

variable {s : TemplateSource (StateM σ)}

theorem throughCache_retains {codec : Json.Codec α} {cacheKey : Text}
    {ask : ExceptT StorageError (StateM σ) α}
    (hget : Keeps inv (s.cache.get cacheKey) fun _ => True)
    (hset : ∀ value, Keeps inv (s.cache.set cacheKey value s.ttl dependency) fun _ => True)
    (hask : Keeps inv ask fun _ => True) :
    Compile.Leads res inv pre (s.throughCache codec cacheKey ask) fun _ t => pre t ∧ True := by
  have hgetAs : Keeps inv (s.cache.getAs codec cacheKey) fun _ => True := by
    unfold Cache.getAs
    refine Keeps.bind hget fun found _ => ?_
    cases found <;> exact Keeps.pure trivial
  unfold throughCache
  refine Compile.Leads.bind (Compile.Leads.ofCache hgetAs) fun found => ?_
  cases found with
  | some a => exact Compile.Leads.pure fun t _ ht => ht
  | none =>
    refine Compile.Leads.bind (Compile.Leads.ofStore hask) fun a => ?_
    refine Compile.Leads.bind (Compile.Leads.ofCache (hset _)) fun _ => ?_
    exact Compile.Leads.pure fun t _ ht => ⟨ht.1.1.1, trivial⟩

theorem preload_retains (hget : Keeps inv (s.cache.get preloadKey) fun _ => True)
    (hset : ∀ value, Keeps inv (s.cache.set preloadKey value s.ttl dependency) fun _ => True)
    (hask : Keeps inv s.store.findPreloaded fun _ => True) : Compile.Retains inv s.preload := by
  have htable : Keeps inv (Table.ofList <$> s.store.findPreloaded) fun _ => True :=
    Keeps.map hask fun _ _ => trivial
  refine preload_leads (fun _ => True) (fun _ => throughCache_retains hget hset htable) ?_ ?_
  · exact fun _ _ _ _ => trivial
  · exact fun _ _ _ _ _ => ⟨trivial, trivial⟩

theorem fetch_retains {key : Text} (hget : Keeps inv (s.cache.get (lookupKey key)) fun _ => True)
    (hset : ∀ value, Keeps inv (s.cache.set (lookupKey key) value s.ttl dependency) fun _ => True)
    (hask : Keeps inv (s.store.find key) fun _ => True) :
    Compile.Retains inv (s.fetch key) := by
  refine fetch_leads (fun _ => True) (fun _ => throughCache_retains hget hset hask) ?_ ?_
  · exact fun _ _ _ _ _ => trivial
  · exact fun _ _ _ _ _ _ => ⟨trivial, trivial⟩

end TemplateSource

namespace Compiler

variable {c : Compiler (StateM σ)} {d : Directive} {content contentKey : Text}
variable {dependency : Dependency}

theorem expand_retains (hget : Keeps inv (c.cache.get (renderKey d.key contentKey)) fun _ => True)
    (hset : ∀ value, Keeps inv
      (c.cache.set (renderKey d.key contentKey) value c.renderTtl dependency) fun _ => True)
    (hfetch : d.kind = .chunk → Compile.Retains inv (c.templates.fetch d.key)) :
    Compile.Retains inv (c.expand d contentKey dependency) := by
  unfold Compile.Retains expand
  refine Compile.Leads.bind (Compile.Leads.ofCache hget) fun found => ?_
  refine Compile.Leads.assume fun _ => ?_
  cases found with
  | some text => exact Compile.Leads.pure fun _ _ _ => trivial
  | none =>
    cases hk : d.kind with
    | form => exact Compile.Leads.pure fun _ _ _ => trivial
    | unknown => exact Compile.Leads.pure fun _ _ _ => trivial
    | chunk =>
      refine Compile.Leads.bind (hfetch hk) fun found => ?_
      cases found with
      | none => exact Compile.Leads.pure fun _ _ _ => trivial
      | some text =>
        refine Compile.Leads.bind (Compile.Leads.ofCache (hset _)) fun _ => ?_
        exact Compile.Leads.pure fun _ _ _ => trivial

theorem compile_retains (hpreload : Compile.Retains inv c.templates.preload)
    (hexpand : ∀ d ∈ Directive.scan content,
      Compile.Retains inv (c.expand d contentKey dependency)) :
    Compile.Retains inv (c.compile content contentKey dependency) := by
  have hone : ∀ d ∈ Directive.scan content, Compile.Leads (fun _ => True) inv (fun _ => True)
      (c.expand d contentKey dependency) fun _ _ => True ∧ True :=
    fun d hd => (hexpand d hd).mono fun _ _ _ _ => ⟨trivial, trivial⟩
  exact (compile_leads hpreload hone).mono fun _ _ _ _ => trivial

end Compiler
end ContentWeave
