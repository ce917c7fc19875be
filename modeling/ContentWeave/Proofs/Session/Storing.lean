import ContentWeave.Proofs.Cache.OnDisk
import ContentWeave.Proofs.Compile.Stages
import Mathlib.Data.List.Induction

/-!
# What the calls of a session store

A call stores a text for a purpose: the result of a directive under the key of a content, the preloaded
templates, or the look-up of one template. It gets there if the cache has had nothing and what is to be
stored was found. What comes into the cache in the course of a call is what the call stores.
-/

namespace ContentWeave

open TemplateSource (preloadKey lookupKey)

inductive Purpose
  | result (key contentKey : Text)
  | preload
  | lookup (key : Text)
deriving DecidableEq

def Purpose.cacheKey : Purpose → Text
  | result key contentKey => Compiler.renderKey key contentKey
  | preload => preloadKey
  | lookup key => lookupKey key

namespace Backend

/-- Storing a text takes effect: it succeeds, or it fails after the text has come to be there. -/
def Takes (backend : Backend) (key value : Text) (ttl : ℕ) (dependency : Dependency) (w : World) :
    Prop :=
  (runOn (backend.cache.set key value ttl dependency) w).1 = .ok () ∨
    backend.kept? w key ≠ some value ∧
      backend.kept? (runOn (backend.cache.set key value ttl dependency) w).2 key = some value

/-- From `w` to `w'` nothing has come under the keys but what is stored for purposes with these keys. -/
def Gains (backend : Backend) (keys : Set Text) (stores : Purpose → Text → Prop) (w w' : World) :
    Prop :=
  backend.Holds keys (fun key value =>
    backend.kept? w key = some value ∨ ∃ p, stores p value ∧ p.cacheKey = key) w'

variable {backend : Backend} {keys : Set Text} {stores stores' : Purpose → Text → Prop}
variable {w w' w'' : World}

namespace Gains

theorem refl (w : World) : backend.Gains keys stores w w := fun _ _ _ h => .inl h

theorem trans (h : backend.Gains keys stores w w') (h' : backend.Gains keys stores w' w'') :
    backend.Gains keys stores w w'' := by
  intro key hkey value hvalue
  rcases h' key hkey value hvalue with hbefore | hstored
  · exact h key hkey value hbefore
  · exact .inr hstored

theorem mono (h : backend.Gains keys stores w w') (hstores : ∀ p value, stores p value → stores' p value) :
    backend.Gains keys stores' w w' :=
  Holds.mono h fun _ _ value hvalue => hvalue.imp_right fun ⟨p, hp, hkey⟩ => ⟨p, hstores p value hp, hkey⟩

theorem of_keeps {ε α : Type} {x : ExceptT ε (StateM World) α}
    (hx : ∀ fits, Keeps (backend.Holds keys fits) x fun _ => True) (w : World) :
    backend.Gains keys stores w (runOn x w).2 :=
  (hx _ w (refl w)).1

end Gains

variable {key value : Text} {ttl : ℕ} {dependency : Dependency}

theorem kept?_of_get (hnames : backend.Separates keys) (hkey : key ∈ keys)
    (h : (runOn (backend.cache.get key) w).1 = .ok (some value)) : backend.kept? w key = some value := by
  have hcache := backend.sound hnames fun key value => backend.kept? w key = some value
  exact (hcache.get key hkey w fun _ _ _ hkept => hkept).2 _ h value rfl

theorem get_gains (hnames : backend.Separates keys) (hkey : key ∈ keys) (w : World) :
    backend.Gains keys stores w (runOn (backend.cache.get key) w).2 :=
  .of_keeps (fun fits => ((backend.sound hnames fits).get key hkey).mono fun _ _ => trivial) w

theorem set_gains {p : Purpose} (hnames : backend.Separates keys) (hkey : p.cacheKey ∈ keys)
    (hstores : backend.Takes p.cacheKey value ttl dependency w → stores p value) :
    backend.Gains keys stores w (runOn (backend.cache.set p.cacheKey value ttl dependency) w).2 := by
  have hcache := backend.sound hnames fun j v =>
    backend.kept? w j = some v ∨ j = p.cacheKey ∧ v = value
  obtain ⟨hafter, -⟩ :=
    hcache.set _ hkey value ttl dependency (.inr ⟨rfl, rfl⟩) w fun _ _ _ hkept => .inl hkept
  intro j hj v hv
  rcases hafter j hj v hv with hbefore | ⟨rfl, rfl⟩
  · exact .inl hbefore
  · by_cases hbefore : backend.kept? w p.cacheKey = some v
    · exact .inl hbefore
    · exact .inr ⟨p, hstores (.inr ⟨hbefore, hv⟩), rfl⟩

end Backend

/-- A compilation as far as the directives `ds`. -/
def Compiler.expandFirst {m : Type → Type} [Monad m] (c : Compiler m) (contentKey : Text)
    (dependency : Dependency) (ds : List Directive) : Compile m (List Text) := do
  c.templates.preload
  c.expandAll contentKey dependency ds

theorem Compiler.expandFirst_concat {m : Type → Type} [Monad m] [LawfulMonad m] (c : Compiler m)
    (contentKey : Text) (dependency : Dependency) (ds : List Directive) (d : Directive) :
    c.expandFirst contentKey dependency (ds ++ [d]) = do
      let texts ← c.expandFirst contentKey dependency ds
      let text ← c.expand d contentKey dependency
      return texts ++ [text] := by
  have hconcat : c.expandAll contentKey dependency (ds ++ [d]) = do
      let texts ← c.expandAll contentKey dependency ds
      let text ← c.expand d contentKey dependency
      return texts ++ [text] := by
    induction ds with
    | nil => simp [expandAll]
    | cons e ds ih => simp [expandAll, ih]
  simp [expandFirst, hconcat]

theorem Compiler.compile_state {σ : Type} (c : Compiler (StateM σ)) (content contentKey : Text)
    (dependency : Dependency) (t : TemplateCache) (w : σ) :
    ((c.compile content contentKey dependency).runFrom t w).2 =
      ((c.expandFirst contentKey dependency (Directive.scan content)).runFrom t w).2 := by
  have hcompile : c.compile content contentKey dependency = do
      let texts ← c.expandFirst contentKey dependency (Directive.scan content)
      return Replacements.apply ⟨((Directive.scan content).map (·.raw)).zip texts⟩ content := by
    simp [compile, expandFirst]
  rw [hcompile, Compile.runFrom_bind_pure]

namespace Client

variable (client : Client) (backend : Backend)

/-- What is asked for through the cache is stored: the cache has nothing, and the store answers. -/
inductive Asks {α : Type} (codec : Json.Codec α) (key : Text)
    (ask : ExceptT StorageError (StateM World) α) (w : World) (a : α) : Prop
  | intro {w₁ w₂ : World} (missed : runOn (backend.cache.getAs codec key) w = (.ok none, w₁))
      (answered : runOn ask w₁ = (.ok a, w₂))
      (taken : backend.Takes key (codec.encode a) client.lookupTtl TemplateSource.dependency w₂)

inductive PreloadStores (t : TemplateCache) (w : World) : Purpose → Text → Prop
  | intro {templates : Table Text Text} (hnew : t.preloaded = false)
      (h : client.Asks backend Json.Codec.texts preloadKey
        (Table.ofList <$> client.shelf.exposed.findPreloaded) w templates) :
      PreloadStores t w .preload (Json.Codec.texts.encode templates)

inductive FetchStores (key : Text) (t : TemplateCache) (w : World) : Purpose → Text → Prop
  | intro {template : Option Text} (hnew : t.resident.get? key = none)
      (h : client.Asks backend Json.Codec.optionalText (lookupKey key)
        (client.shelf.exposed.find key) w template) :
      FetchStores key t w (.lookup key) (Json.Codec.optionalText.encode template)

variable (contentKey : Text) (dependency : Dependency)

/-- Expanding a directive stores something only for a chunk call whose result the cache does not have:
the look-up of its template, and the template that was fetched, filled. -/
inductive ExpandStores (d : Directive) (t : TemplateCache) (w : World) : Purpose → Text → Prop
  | lookup {w₁ : World} {p : Purpose} {value : Text} (hk : d.kind = .chunk)
      (hmissed : runOn (backend.cache.get (Compiler.renderKey d.key contentKey)) w = (.ok none, w₁))
      (h : client.FetchStores backend d.key t w₁ p value) : ExpandStores d t w p value
  | result {w₁ w₂ : World} {t₂ : TemplateCache} {template : Text} (hk : d.kind = .chunk)
      (hmissed : runOn (backend.cache.get (Compiler.renderKey d.key contentKey)) w = (.ok none, w₁))
      (hfetched : ((client.compiler backend).templates.fetch d.key).runFrom t w₁ =
        (.ok (some template), t₂, w₂))
      (htaken : backend.Takes (Compiler.renderKey d.key contentKey)
        (Template.fill client.formats (ArgumentSet.parse d.raw) template) client.renderTtl dependency
        w₂) :
      ExpandStores d t w (.result d.key contentKey)
        (Template.fill client.formats (ArgumentSet.parse d.raw) template)

/-- Compiling directives stores what the preload stores, and what each directive stores that is
reached. -/
inductive CompileStores (ds : List Directive) (t : TemplateCache) (w : World) : Purpose → Text → Prop
  | preload {p : Purpose} {value : Text} (h : client.PreloadStores backend t w p value) :
      CompileStores ds t w p value
  | directive {before rest : List Directive} {d : Directive} {texts : List Text}
      {t₁ : TemplateCache} {w₁ : World} {p : Purpose} {value : Text} (hsplit : ds = before ++ d :: rest)
      (hreached : ((client.compiler backend).expandFirst contentKey dependency before).runFrom t w =
        (.ok texts, t₁, w₁))
      (h : client.ExpandStores backend contentKey dependency d t₁ w₁ p value) :
      CompileStores ds t w p value

variable {client backend contentKey dependency} in
theorem CompileStores.contentKey_eq {ds : List Directive} {t : TemplateCache} {w : World}
    {key contentKey' value : Text}
    (h : client.CompileStores backend contentKey dependency ds t w (.result key contentKey') value) :
    contentKey' = contentKey := by
  cases h with
  | preload h => cases h
  | directive _ _ h =>
    cases h with
    | lookup _ _ h => cases h
    | result => rfl

variable {client backend contentKey dependency} in
theorem CompileStores.append {ds : List Directive} {t : TemplateCache} {w : World} {p : Purpose}
    {value : Text} (h : client.CompileStores backend contentKey dependency ds t w p value)
    (more : List Directive) :
    client.CompileStores backend contentKey dependency (ds ++ more) t w p value := by
  cases h with
  | preload h => exact .preload h
  | @directive before rest d _ _ _ _ _ hsplit hreached h =>
    have hmore : ds ++ more = before ++ d :: (rest ++ more) := by simp [hsplit]
    exact .directive hmore hreached h

end Client

namespace Session

def Stores (backend : Backend) (s : Session) : Event → Purpose → Text → Prop
  | .compile client content contentKey dependency =>
    client.CompileStores backend contentKey dependency (Directive.scan content)
      (s.residents client.who) s.world
  | .fetch client key => client.FetchStores backend key (s.residents client.who) s.world
  | .preload client => client.PreloadStores backend (s.residents client.who) s.world
  | .invalidate _ => fun _ _ => False

def StoredFor (backend : Backend) (s : Session) (events : List Event) (p : Purpose) (value : Text) :
    Prop :=
  ∃ earlier e later, events = earlier ++ e :: later ∧ (s.after backend earlier).Stores backend e p value

end Session

theorem Session.StoredFor.append {backend : Backend} {s : Session} {events : List Event} {p : Purpose}
    {value : Text} (h : s.StoredFor backend events p value) (more : List Event) :
    s.StoredFor backend (events ++ more) p value := by
  obtain ⟨earlier, e, later, rfl, hstores⟩ := h
  exact ⟨earlier, e, later ++ more, by simp, hstores⟩

section Stages

variable (client : Client) {backend : Backend} {keys : Set Text} {stores : Purpose → Text → Prop}
variable (hnames : backend.Separates keys)

include hnames

theorem throughCache_gains {α : Type} {codec : Json.Codec α} {p : Purpose}
    {ask : ExceptT StorageError (StateM World) α} (hkey : p.cacheKey ∈ keys)
    (hask : ∀ fits, Keeps (backend.Holds keys fits) ask fun _ => True) (t : TemplateCache) {w : World}
    (hstores : ∀ a, client.Asks backend codec p.cacheKey ask w a → stores p (codec.encode a)) :
    backend.Gains keys stores w
      (((client.compiler backend).templates.throughCache codec p.cacheKey ask).runFrom t w).2.2 := by
  have hcache : (client.compiler backend).templates.cache = backend.cache := rfl
  have hmissed : backend.Gains keys stores w (runOn (backend.cache.getAs codec p.cacheKey) w).2 :=
    .of_keeps (fun fits => ((backend.sound hnames fits).getAs codec hkey).mono fun _ _ => trivial) w
  rw [TemplateSource.runFrom_throughCache, hcache]
  rcases hget : runOn (backend.cache.getAs codec p.cacheKey) w with ⟨⟨e⟩ | ⟨_ | a⟩, w₁⟩
  · rwa [hget] at hmissed
  · rw [hget] at hmissed
    have hasked : backend.Gains keys stores w₁ (runOn ask w₁).2 := .of_keeps hask w₁
    dsimp only
    rcases hanswer : runOn ask w₁ with ⟨⟨e⟩ | ⟨a⟩, w₂⟩
    · rw [hanswer] at hasked
      exact hmissed.trans hasked
    · rw [hanswer] at hasked
      have htaken : backend.Takes p.cacheKey (codec.encode a) (client.compiler backend).templates.ttl
          TemplateSource.dependency w₂ → stores p (codec.encode a) :=
        fun h => hstores a (.intro hget hanswer h)
      have hall := (hmissed.trans hasked).trans (backend.set_gains hnames hkey htaken)
      dsimp only [Cache.setAs]
      rcases hrun : runOn (backend.cache.set p.cacheKey (codec.encode a)
        (client.compiler backend).templates.ttl TemplateSource.dependency) w₂ with ⟨⟨e⟩ | ⟨_⟩, w₃⟩
      · rwa [hrun] at hall
      · rwa [hrun] at hall
  · rwa [hget] at hmissed

theorem preload_gains (hkey : preloadKey ∈ keys) (t : TemplateCache) (w : World) :
    backend.Gains keys (client.PreloadStores backend t w) w
      ((client.compiler backend).templates.preload.runFrom t w).2.2 := by
  have hask : ∀ fits, Keeps (backend.Holds keys fits)
      (Table.ofList <$> client.shelf.exposed.findPreloaded) fun _ => True := fun fits =>
    (client.shelf.preloadedTable_keeps backend.enduring_holds).mono fun _ _ => trivial
  rw [TemplateSource.preload_state]
  split_ifs with hpreloaded
  · exact .refl w
  · exact throughCache_gains client (p := .preload) hnames hkey hask t fun templates h =>
      .intro (Bool.eq_false_iff.2 hpreloaded) h

theorem fetch_gains {key : Text} (hkey : lookupKey key ∈ keys) (t : TemplateCache) (w : World) :
    backend.Gains keys (client.FetchStores backend key t w) w
      (((client.compiler backend).templates.fetch key).runFrom t w).2.2 := by
  have hask : ∀ fits, Keeps (backend.Holds keys fits) (client.shelf.exposed.find key)
      fun _ => True := fun fits =>
    (Shelf.find_keeps backend.enduring_holds key).mono fun _ _ => trivial
  rw [TemplateSource.fetch_state]
  split_ifs with hnew
  · exact throughCache_gains client (p := .lookup key) hnames hkey hask t fun template h => .intro hnew h
  · exact .refl w

variable {contentKey : Text} {d : Directive}

theorem expand_gains (dependency : Dependency) (hlookup : lookupKey d.key ∈ keys)
    (hrender : Compiler.renderKey d.key contentKey ∈ keys) (t : TemplateCache) (w : World) :
    backend.Gains keys (client.ExpandStores backend contentKey dependency d t w) w
      (((client.compiler backend).expand d contentKey dependency).runFrom t w).2.2 := by
  have hcache : (client.compiler backend).cache = backend.cache := rfl
  have hasked : backend.Gains keys (client.ExpandStores backend contentKey dependency d t w) w
      (runOn (backend.cache.get (Compiler.renderKey d.key contentKey)) w).2 :=
    backend.get_gains hnames hrender w
  rw [Compiler.runFrom_expand, hcache]
  rcases hmissed : runOn (backend.cache.get (Compiler.renderKey d.key contentKey)) w
    with ⟨⟨e⟩ | ⟨_ | text⟩, w₁⟩
  · rwa [hmissed] at hasked
  · rw [hmissed] at hasked
    cases hk : d.kind with
    | form => exact hasked
    | unknown => exact hasked
    | chunk =>
      have hfetch := fetch_gains client hnames hlookup t w₁
      have hlooked := hasked.trans (hfetch.mono fun p value h => .lookup hk hmissed h)
      dsimp only
      rw [Compiler.renderChunk_state]
      rcases hfetched : ((client.compiler backend).templates.fetch d.key).runFrom t w₁
        with ⟨⟨e⟩ | ⟨_ | template⟩, t₂, w₂⟩
      · rwa [hfetched] at hlooked
      · rwa [hfetched] at hlooked
      · rw [hfetched] at hlooked
        refine hlooked.trans (backend.set_gains (p := .result d.key contentKey) hnames hrender ?_)
        exact fun htaken => Client.ExpandStores.result hk hmissed hfetched htaken
  · rwa [hmissed] at hasked

theorem expandFirst_gains (dependency : Dependency) (hpreload : preloadKey ∈ keys)
    {ds : List Directive} (hlookup : ∀ d ∈ ds, lookupKey d.key ∈ keys)
    (hrender : ∀ d ∈ ds, Compiler.renderKey d.key contentKey ∈ keys) (t : TemplateCache) (w : World) :
    backend.Gains keys (client.CompileStores backend contentKey dependency ds t w) w
      (((client.compiler backend).expandFirst contentKey dependency ds).runFrom t w).2.2 := by
  induction ds using List.reverseRecOn with
  | nil =>
    have hpreloaded := preload_gains client hnames hpreload t w
    rw [Compiler.expandFirst, Compile.runFrom_bind]
    refine (hpreloaded.mono fun p value h => .preload h).trans ?_
    rcases (client.compiler backend).templates.preload.runFrom t w with ⟨⟨e⟩ | ⟨_⟩, t₁, w₁⟩
    · exact .refl w₁
    · exact .refl w₁
  | append_singleton before d ih =>
    have hbefore := ih (fun e he => hlookup e (by simp [he])) fun e he => hrender e (by simp [he])
    have hmore := hbefore.mono fun p value h => h.append [d]
    rw [Compiler.expandFirst_concat, Compile.runFrom_bind]
    rcases hreached : ((client.compiler backend).expandFirst contentKey dependency before).runFrom t w
      with ⟨⟨e⟩ | ⟨texts⟩, t₁, w₁⟩
    · rwa [hreached] at hmore
    · rw [hreached] at hmore
      have hexpanded := expand_gains client hnames dependency (hlookup d (by simp))
        (hrender d (by simp)) t₁ w₁
      refine hmore.trans ?_
      dsimp only
      rw [Compile.runFrom_bind_pure]
      exact hexpanded.mono fun p value h => .directive rfl hreached h

end Stages

section Run

variable {backend : Backend} {keys : Set Text} (hnames : backend.Separates keys)

include hnames

theorem step_gains {s : Session} {e : Event} (hkeys : ∀ key ∈ e.keys, key ∈ keys) :
    backend.Gains keys (s.Stores backend e) s.world (s.step backend e).world := by
  cases e with
  | compile client content contentKey dependency =>
    have hcompiled := expandFirst_gains client hnames dependency
      (hkeys _ Event.preloadKey_mem_keys) (fun d hd => hkeys _ (Event.lookupKey_mem_keys hd))
      (fun d hd => hkeys _ (Event.renderKey_mem_keys hd)) (s.residents client.who) s.world
    rw [← Compiler.compile_state] at hcompiled
    exact hcompiled
  | fetch client key =>
    exact fetch_gains client hnames (hkeys _ (by simp [Event.keys])) _ _
  | preload client =>
    exact preload_gains client hnames (hkeys _ (by simp [Event.keys])) _ _
  | invalidate tags =>
    exact .of_keeps (fun fits => (backend.sound hnames fits).invalidate tags) s.world

/-- What the cache holds after events was there before them, or one of them has stored it for a purpose
with its key. -/
theorem after_gains {s : Session} {events : List Event} (hkeys : ∀ key ∈ keysOf events, key ∈ keys) :
    backend.Gains keys (s.StoredFor backend events) s.world (s.after backend events).world := by
  induction events using List.reverseRecOn with
  | nil => exact .refl s.world
  | append_singleton earlier e ih =>
    have hearlier := ih fun key hkey => hkeys key (keysOf_mono (List.subset_append_left earlier [e]) hkey)
    have hlast := step_gains hnames (s := s.after backend earlier) (e := e) fun key hkey =>
      hkeys key (mem_keysOf (by simp) hkey)
    have hafter : s.after backend (earlier ++ [e]) = (s.after backend earlier).step backend e := by
      simp [Session.after]
    rw [hafter]
    refine (hearlier.mono fun p value h => h.append [e]).trans (hlast.mono fun p value h => ?_)
    exact ⟨earlier, e, [], rfl, h⟩

end Run

end ContentWeave
