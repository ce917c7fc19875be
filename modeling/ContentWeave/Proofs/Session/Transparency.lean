import ContentWeave.Proofs.Cache.OnDisk
import ContentWeave.Proofs.Compile.Splicing
import ContentWeave.Proofs.Compile.Stages
import ContentWeave.Proofs.Json.RoundTrip
import Mathlib.Data.List.Nodup

/-!
# Caching does not change output

What a directive stands for is first said without any cache. Every entry that clients with the
same materials leave in a cache under one content key, and every template that they keep, agrees with
it; so a compilation that succeeds returns what a compiler that keeps nothing returns.
-/

namespace ContentWeave

open TemplateSource (preloadKey lookupKey)

namespace Shelf

def template? (shelf : Shelf) (key : Text) : Except StorageError (Option Text) :=
  match shelf.preloaded with
  | .error e => .error e
  | .ok templates =>
    match (Table.ofList templates).get? key with
    | some template => .ok (some template)
    | none => shelf.find key

theorem template?_of_preloaded {shelf : Shelf} {templates : List (Text × Text)} {key : Text}
    (h : shelf.preloaded = .ok templates) :
    shelf.template? key = match (Table.ofList templates).get? key with
      | some template => .ok (some template)
      | none => shelf.find key := by
  simp only [template?, h]

end Shelf

def Materials.standsFor (materials : Materials) (d : Directive) : Except StorageError Text :=
  match d.kind with
  | .form => .ok (materials.uncached.renderForm d.key)
  | .unknown => .ok []
  | .chunk =>
    match materials.shelf.template? d.key with
    | .error e => .error e
    | .ok none => .ok []
    | .ok (some template) => .ok (materials.uncached.fill template (ArgumentSet.parse d.raw))

structure Faithful (shelf : Shelf) (t : TemplateCache) : Prop where
  resident : ∀ key template, t.resident.get? key = some template →
    shelf.template? key = .ok template
  preloaded : t.preloaded = true → ∃ templates, shelf.preloaded = .ok templates ∧
    ∀ key, t.resident.get? key = none → (Table.ofList templates).get? key = none

namespace Faithful

variable {shelf : Shelf} {t : TemplateCache}

theorem empty (shelf : Shelf) : Faithful shelf {} where
  resident := TemplateCache.All.empty _
  preloaded h := by cases h

theorem template?_of_get?_eq_none (h : Faithful shelf t) (hp : t.preloaded = true) {key : Text}
    (hk : t.resident.get? key = none) : shelf.template? key = shelf.find key := by
  obtain ⟨templates, htemplates, hmissing⟩ := h.preloaded hp
  rw [Shelf.template?_of_preloaded htemplates, hmissing key hk]

theorem remember (h : Faithful shelf t) {key : Text} {template : Option Text}
    (ht : shelf.template? key = .ok template) : Faithful shelf (t.remember key template) where
  resident := TemplateCache.All.remember h.resident ht
  preloaded hp := by
    obtain ⟨templates, htemplates, hmissing⟩ := h.preloaded hp
    refine ⟨templates, htemplates, fun j hj => ?_⟩
    rw [TemplateCache.get?_remember] at hj
    split_ifs at hj
    exact hmissing j hj

theorem rememberAll (h : Faithful shelf t) {templates : List (Text × Text)}
    {table : Table Text Text} (hp : shelf.preloaded = .ok templates)
    (ht : ∀ key, table.get? key = (Table.ofList templates).get? key) :
    Faithful shelf (t.rememberAll table) where
  resident := TemplateCache.All.rememberAll h.resident fun key template hkey => by
    rw [ht] at hkey
    rw [Shelf.template?_of_preloaded hp, hkey]
  preloaded _ := by
    refine ⟨templates, hp, fun j hj => ?_⟩
    rw [TemplateCache.get?_rememberAll, ht, Option.or_eq_none_iff, Option.map_eq_none_iff] at hj
    exact hj.2

end Faithful

/-- Texts under the keys of a cache that agree with the materials: what directives stand for, and
what the shelf answers. -/
structure Agrees (materials : Materials) (contentKey : Text) (ds : List Directive)
    (key value : Text) : Prop where
  rendered : ∀ d ∈ ds, Compiler.renderKey d.key contentKey = key → materials.standsFor d = .ok value
  preload : key = preloadKey → ∃ templates, materials.shelf.preloaded = .ok templates ∧
    value = Json.Codec.texts.encode (Table.ofList templates)
  lookup : ∀ k, key = lookupKey k → ∃ template, materials.shelf.find k = .ok template ∧
    value = Json.Codec.optionalText.encode template

/-- Directives that one content key keeps apart: those with one key are written alike, and none
meets the keys of templates. -/
structure KeptApart (contentKey : Text) (ds : List Directive) : Prop where
  raw_eq : ∀ d ∈ ds, ∀ e ∈ ds, d.key = e.key → d.raw = e.raw
  no_chunks : ∀ d ∈ ds, ¬ "chunks:".toList <+: Compiler.renderKey d.key contentKey

namespace KeptApart

variable {contentKey : Text} {ds : List Directive} {d : Directive}

theorem renderKey_ne_preloadKey (h : KeptApart contentKey ds) (hd : d ∈ ds) :
    Compiler.renderKey d.key contentKey ≠ preloadKey := by
  intro hkey
  have hchunks := TemplateSource.chunks_prefix_preloadKey
  rw [← hkey] at hchunks
  exact h.no_chunks d hd hchunks

theorem renderKey_ne_lookupKey (h : KeptApart contentKey ds) (hd : d ∈ ds) (key : Text) :
    Compiler.renderKey d.key contentKey ≠ lookupKey key := by
  intro hkey
  have hchunks := TemplateSource.chunks_prefix_lookupKey key
  rw [← hkey] at hchunks
  exact h.no_chunks d hd hchunks

end KeptApart

namespace Agrees

variable {materials : Materials} {contentKey : Text} {ds : List Directive}

theorem of_standsFor (hds : ∀ d ∈ ds, Directive.parse d.raw = d) (h : KeptApart contentKey ds)
    {d : Directive} (hd : d ∈ ds) {text : Text} (ht : materials.standsFor d = .ok text) :
    Agrees materials contentKey ds (Compiler.renderKey d.key contentKey) text where
  rendered e he hkey := by
    have hsame : e.key = d.key := List.append_cancel_right hkey
    have hraw := h.raw_eq e he d hd hsame
    have hed : e = d := by rw [← hds e he, hraw, hds d hd]
    rw [hed]
    exact ht
  preload hkey := absurd hkey (h.renderKey_ne_preloadKey hd)
  lookup k hkey := absurd hkey (h.renderKey_ne_lookupKey hd k)

theorem of_preloaded (h : KeptApart contentKey ds) {templates : List (Text × Text)}
    (hp : materials.shelf.preloaded = .ok templates) :
    Agrees materials contentKey ds preloadKey
      (Json.Codec.texts.encode (Table.ofList templates)) where
  rendered _ hd hkey := absurd hkey (h.renderKey_ne_preloadKey hd)
  preload _ := ⟨templates, hp, rfl⟩
  lookup k hkey := absurd hkey.symm (TemplateSource.lookupKey_ne_preloadKey k)

theorem of_find (h : KeptApart contentKey ds) {key : Text} {template : Option Text}
    (hf : materials.shelf.find key = .ok template) :
    Agrees materials contentKey ds (lookupKey key)
      (Json.Codec.optionalText.encode template) where
  rendered d hd hkey := absurd hkey (h.renderKey_ne_lookupKey hd key)
  preload hkey := absurd hkey (TemplateSource.lookupKey_ne_preloadKey key)
  lookup k hkey := by
    have hk : key = k := TemplateSource.lookupKey_injective hkey
    subst hk
    exact ⟨template, hf, rfl⟩

end Agrees

section Source

variable {σ : Type} {materials : Materials} {keys : Set Text} {contentKey : Text}
variable {ds : List Directive} {inv : σ → Prop} {source : TemplateSource (StateM σ)}

theorem TemplateSource.preload_faithful (h : KeptApart contentKey ds)
    (hcache : source.cache.Sound keys (Agrees materials contentKey ds) inv)
    (hask : Keeps inv (Table.ofList <$> source.store.findPreloaded) fun table =>
      ∃ templates, materials.shelf.preloaded = .ok templates ∧ table = Table.ofList templates)
    (hkey : preloadKey ∈ keys) :
    Compile.Leads (Faithful materials.shelf) inv (fun _ => True) source.preload
      fun _ t => t.preloaded = true := by
  refine TemplateSource.preload_leads (fun table => ∃ templates,
    materials.shelf.preloaded = .ok templates ∧
      ∀ key, table.get? key = (Table.ofList templates).get? key)
    (fun pre => TemplateSource.throughCache_leads hcache hkey hask ?_ ?_ ?_) ?_ ?_
  · rintro table ⟨templates, hp, rfl⟩
    exact .of_preloaded h hp
  · intro value table hagrees hdecode
    obtain ⟨templates, hp, rfl⟩ := hagrees.preload rfl
    exact ⟨templates, hp, Json.Codec.get?_of_decode?_encode_texts hdecode⟩
  · rintro table ⟨templates, hp, rfl⟩
    exact ⟨templates, hp, fun _ => rfl⟩
  · exact fun t _ _ hp => hp
  · rintro t table hres - ⟨templates, hp, htable⟩
    exact ⟨hres.rememberAll hp htable, rfl⟩

theorem TemplateSource.fetch_faithful (h : KeptApart contentKey ds)
    (hcache : source.cache.Sound keys (Agrees materials contentKey ds) inv) {key : Text}
    (hask : Keeps inv (source.store.find key) fun template =>
      materials.shelf.find key = .ok template)
    (hkey : lookupKey key ∈ keys) :
    Compile.Leads (Faithful materials.shelf) inv (fun t => t.preloaded = true) (source.fetch key)
      fun template t => t.preloaded = true ∧ materials.shelf.template? key = .ok template := by
  refine TemplateSource.fetch_leads (fun template => materials.shelf.find key = .ok template)
    (fun pre => TemplateSource.throughCache_leads hcache hkey hask ?_ ?_ ?_) ?_ ?_
  · exact fun template hf => .of_find h hf
  · intro value template hagrees hdecode
    obtain ⟨found, hf, rfl⟩ := hagrees.lookup key rfl
    rw [Json.Codec.decode?_encode_optionalText] at hdecode
    cases hdecode
    exact hf
  · exact fun template hf => hf
  · exact fun t template hres hp hr => ⟨hp, hres.resident key template hr⟩
  · intro t template hres hp hr hf
    have htemplate : materials.shelf.template? key = .ok template := by
      rw [hres.template?_of_get?_eq_none hp hr]
      exact hf
    exact ⟨hres.remember htemplate, hp, htemplate⟩

end Source

section Cached

variable {client : Client} {backend : Backend} {keys : Set Text} {contentKey : Text}
variable {ds : List Directive} {inv : World → Prop}

theorem expand_standsFor (ht : Enduring inv) (hds : ∀ d ∈ ds, Directive.parse d.raw = d)
    (h : KeptApart contentKey ds)
    (hcache : backend.cache.Sound keys (Agrees client.toMaterials contentKey ds) inv)
    {d : Directive} (hd : d ∈ ds) (hlookup : lookupKey d.key ∈ keys)
    (hrender : Compiler.renderKey d.key contentKey ∈ keys) (dependency : Dependency) :
    Compile.Leads (Faithful client.shelf) inv (fun t => t.preloaded = true)
      ((client.compiler backend).expand d contentKey dependency) fun text t =>
        t.preloaded = true ∧ client.standsFor d = .ok text := by
  refine Compiler.expand_leads (fun found => client.shelf.template? d.key = .ok found)
    hcache hrender ?_
    (fun _ => TemplateSource.fetch_faithful h hcache (Shelf.find_keeps ht d.key) hlookup) ?_ ?_ ?_ ?_
  · exact fun text hagrees => hagrees.rendered d hd rfl
  · intro hk hnone
    simp only [Materials.standsFor, hk, hnone]
  · intro hk text hsome
    refine Agrees.of_standsFor hds h hd ?_
    simp only [Materials.standsFor, hk, hsome]
    rfl
  · intro hk
    simp only [Materials.standsFor, hk]
    rfl
  · intro hk
    simp only [Materials.standsFor, hk]

end Cached

/-- The events that change nothing but what is cached: compilations with the same materials under
one content key, and invalidations. -/
def Event.CompilesWith (materials : Materials) (contentKey : Text) : Event → Prop
  | .compile client _ key _ => client.toMaterials = materials ∧ key = contentKey
  | .invalidate _ => True
  | _ => False

structure Session.Agrees (backend : Backend) (keys : Set Text) (materials : Materials)
    (contentKey : Text) (ds : List Directive) (s : Session) : Prop where
  residents : ∀ who, Faithful materials.shelf (s.residents who)
  entries : backend.Holds keys (ContentWeave.Agrees materials contentKey ds) s.world

section Session

variable {backend : Backend} {events : List Event} {materials : Materials} {contentKey : Text}

theorem parse_of_mem_directives {d : Directive} (hd : d ∈ events.flatMap Event.directives) :
    Directive.parse d.raw = d := by
  obtain ⟨e, -, he⟩ := List.mem_flatMap.1 hd
  cases e with
  | compile client content key dependency => exact Directive.parse_of_mem_scan he
  | fetch client key => cases he
  | preload client => cases he
  | invalidate tags => cases he

/-- A compilation keeps what agrees, and splices in what the directives stand for. -/
theorem compile_agrees (hnames : backend.Separates (keysOf events))
    (h : KeptApart contentKey (events.flatMap Event.directives)) {client : Client} {content : Text}
    {dependency : Dependency} (he : .compile client content contentKey dependency ∈ events) :
    Compile.Leads (Faithful client.shelf)
      (backend.Holds (keysOf events)
        (Agrees client.toMaterials contentKey (events.flatMap Event.directives))) (fun _ => True)
      ((client.compiler backend).compile content contentKey dependency) fun text t =>
        t.preloaded = true ∧ ∃ texts,
          List.Forall₂ (fun d text => client.standsFor d = .ok text) (Directive.scan content) texts ∧
          text = Replacements.apply ⟨((Directive.scan content).map (·.raw)).zip texts⟩ content := by
  have ht : Enduring (backend.Holds (keysOf events)
      (Agrees client.toMaterials contentKey (events.flatMap Event.directives))) :=
    backend.enduring_holds
  have hcache := backend.sound hnames
    (Agrees client.toMaterials contentKey (events.flatMap Event.directives))
  have hpreload : preloadKey ∈ keysOf events := mem_keysOf he Event.preloadKey_mem_keys
  refine Compiler.compile_leads (TemplateSource.preload_faithful h hcache
    (client.shelf.preloadedTable_keeps ht) hpreload) fun d hd => ?_
  have hmem : d ∈ events.flatMap Event.directives := List.mem_flatMap.2 ⟨_, he, hd⟩
  have hlookup : lookupKey d.key ∈ keysOf events := mem_keysOf he (Event.lookupKey_mem_keys hd)
  have hrender : Compiler.renderKey d.key contentKey ∈ keysOf events :=
    mem_keysOf he (Event.renderKey_mem_keys hd)
  exact expand_standsFor ht (fun e he => parse_of_mem_directives he) h hcache hmem hlookup hrender
    dependency

theorem step_agrees (hnames : backend.Separates (keysOf events))
    (h : KeptApart contentKey (events.flatMap Event.directives)) {s : Session} {e : Event}
    (he : e ∈ events) (hcompiles : e.CompilesWith materials contentKey)
    (hs : s.Agrees backend (keysOf events) materials contentKey (events.flatMap Event.directives)) :
    (s.step backend e).Agrees backend (keysOf events) materials contentKey
      (events.flatMap Event.directives) := by
  cases e with
  | fetch client key => exact hcompiles.elim
  | preload client => exact hcompiles.elim
  | compile client content key dependency =>
    obtain ⟨rfl, rfl⟩ := hcompiles
    obtain ⟨hresidents, hentries, -⟩ := compile_agrees hnames h he (s.residents client.who) s.world
      (hs.residents client.who) hs.entries trivial
    refine ⟨fun who => ?_, hentries⟩
    -- a call leaves the templates of the other clients as they are
    by_cases hwho : who = client.who
    · subst hwho
      simpa [Session.step, Session.settle, Session.run] using hresidents
    · simpa [Session.step, Session.settle, hwho] using hs.residents who
  | invalidate tags =>
    have hcache := backend.sound hnames (Agrees materials contentKey (events.flatMap Event.directives))
    exact ⟨hs.residents, (hcache.invalidate tags s.world hs.entries).1⟩

theorem after_agrees (hnames : backend.Separates (keysOf events))
    (h : KeptApart contentKey (events.flatMap Event.directives)) {s : Session} {done : List Event}
    (hdone : ∀ e ∈ done, e ∈ events ∧ e.CompilesWith materials contentKey)
    (hs : s.Agrees backend (keysOf events) materials contentKey (events.flatMap Event.directives)) :
    (s.after backend done).Agrees backend (keysOf events) materials contentKey
      (events.flatMap Event.directives) := by
  induction done generalizing s with
  | nil => exact hs
  | cons e done ih =>
    obtain ⟨he, hcompiles⟩ := hdone e (by simp)
    exact ih (fun f hf => hdone f (by simp [hf])) (step_agrees hnames h he hcompiles hs)

end Session

section Uncached

variable {materials : Materials} {t : TemplateCache} {contentKey : Text} {dependency : Dependency}

theorem uncached_preload {templates : List (Text × Text)}
    (hp : materials.shelf.preloaded = .ok templates) :
    materials.uncached.templates.preload.runFrom {} () =
      (.ok (), ({} : TemplateCache).rememberAll (Table.ofList templates), ()) := by
  have hstore : materials.uncached.templates.store.findPreloaded =
      ExceptT.mk (return .ok templates) := by rw [← hp]; rfl
  unfold TemplateSource.preload
  rw [hstore]
  rfl

theorem uncached_fetch (ht : Faithful materials.shelf t) (hp : t.preloaded = true) {key : Text}
    {template : Option Text} (h : materials.shelf.template? key = .ok template) :
    ∃ t', (materials.uncached.templates.fetch key).runFrom t () = (.ok template, t', ()) ∧
      Faithful materials.shelf t' ∧ t'.preloaded = true := by
  unfold TemplateSource.fetch
  rw [Compile.runFrom_bind, Compile.runFrom_get]
  cases hr : t.resident.get? key with
  | some found =>
    have hsame := ht.resident key found hr
    rw [h] at hsame
    cases hsame
    simp only [hr]
    exact ⟨t, rfl, ht, hp⟩
  | none =>
    have hfind : materials.uncached.templates.store.find key = ExceptT.mk (return .ok template) := by
      rw [← h, ht.template?_of_get?_eq_none hp hr]
      rfl
    simp only [hr, hfind]
    exact ⟨t.remember key template, rfl, ht.remember h, hp⟩

theorem uncached_expand (ht : Faithful materials.shelf t) (hp : t.preloaded = true) {d : Directive}
    {text : Text} (h : materials.standsFor d = .ok text) :
    ∃ t', (materials.uncached.expand d contentKey dependency).runFrom t () = (.ok text, t', ()) ∧
      Faithful materials.shelf t' ∧ t'.preloaded = true := by
  have hget : materials.uncached.cache.get (Compiler.renderKey d.key contentKey) =
      (pure none : ExceptT CacheError (StateM Unit) (Option Text)) := rfl
  unfold Compiler.expand
  rw [hget]
  unfold Materials.standsFor at h
  cases hk : d.kind with
  | form =>
    rw [hk] at h
    cases h
    exact ⟨t, rfl, ht, hp⟩
  | unknown =>
    rw [hk] at h
    cases h
    exact ⟨t, rfl, ht, hp⟩
  | chunk =>
    rw [hk] at h
    cases htemplate : materials.shelf.template? d.key with
    | error e =>
      rw [htemplate] at h
      cases h
    | ok template =>
      obtain ⟨t', hfetch, ht', hp'⟩ := uncached_fetch ht hp htemplate
      have hrun : ((do
          match ← Compile.ofCache (pure none) with
          | some rendered => return rendered
          | none => materials.uncached.renderChunk d contentKey dependency :
          Compile (StateM Unit) Text)).runFrom t () =
          (materials.uncached.renderChunk d contentKey dependency).runFrom t () := rfl
      refine ⟨t', ?_, ht', hp'⟩
      refine hrun.trans ?_
      unfold Compiler.renderChunk
      rw [Compile.runFrom_bind, hfetch]
      rw [htemplate] at h
      cases template <;> cases h <;> rfl

theorem uncached_expandAll {ds : List Directive} {texts : List Text}
    (ht : Faithful materials.shelf t) (hp : t.preloaded = true)
    (h : List.Forall₂ (fun d text => materials.standsFor d = .ok text) ds texts) :
    ((materials.uncached.expandAll contentKey dependency ds).runFrom t ()).1 = .ok texts := by
  induction h generalizing t with
  | nil => rfl
  | cons hd _ ih =>
    obtain ⟨t', hexpand, ht', hp'⟩ := uncached_expand ht hp hd
    have hrest := ih ht' hp'
    rw [Compiler.expandAll, Compile.runFrom_bind, hexpand]
    dsimp only
    rw [Compile.runFrom_bind]
    rcases hrun : (materials.uncached.expandAll contentKey dependency _).runFrom t' () with ⟨r, rest⟩
    rw [hrun] at hrest
    cases hrest
    rfl

theorem uncached_compile {content : Text} {templates : List (Text × Text)} {texts : List Text}
    (hp : materials.shelf.preloaded = .ok templates)
    (h : List.Forall₂ (fun d text => materials.standsFor d = .ok text) (Directive.scan content) texts) :
    ((materials.uncached.compile content contentKey dependency).runFrom {} ()).1 =
      .ok (Replacements.apply ⟨((Directive.scan content).map (·.raw)).zip texts⟩ content) := by
  have hfaithful := (Faithful.empty materials.shelf).rememberAll hp fun _ => rfl
  have hexpand : ((materials.uncached.expandAll contentKey dependency (Directive.scan content)).runFrom
      (({} : TemplateCache).rememberAll (Table.ofList templates)) ()).1 = .ok texts :=
    uncached_expandAll hfaithful rfl h
  unfold Compiler.compile
  rw [Compile.runFrom_bind, uncached_preload hp]
  dsimp only
  rw [Compile.runFrom_bind]
  rcases hrun : (materials.uncached.expandAll contentKey dependency (Directive.scan content)).runFrom
    _ () with ⟨r, rest⟩
  rw [hrun] at hexpand
  cases hexpand
  rfl

end Uncached

/-- Clients that share an empty cache compile contents with the same materials under one content
key. Calls and invalidations come in any order, time passes, and every operation of the cache, of its
files and of the store can fail at any time. Then a call that succeeds returns what a compiler
without a cache returns. -/
theorem compile_eq_uncached {backend : Backend} {materials : Materials} {contentKey : Text}
    {w : World} {events before rest : List Event} {client : Client} {content text : Text}
    {dependency dependency' : Dependency} (hempty : backend.IsEmpty w)
    (hsplit : events = before ++ .compile client content contentKey dependency :: rest)
    (hevents : ∀ e ∈ events, e.CompilesWith materials contentKey)
    (hkeys : KeptApart contentKey (events.flatMap Event.directives))
    (hnames : backend.Separates (keysOf events))
    (h : ((({ world := w } : Session).after backend before).run client
      ((client.compiler backend).compile content contentKey dependency)).1 = .ok text) :
    ((materials.uncached.compile content contentKey dependency').runFrom {} ()).1 = .ok text := by
  have hcall : .compile client content contentKey dependency ∈ events := by simp [hsplit]
  have hstart : ({ world := w } : Session).Agrees backend (keysOf events) materials contentKey
      (events.flatMap Event.directives) :=
    ⟨fun _ => Faithful.empty materials.shelf, hempty.holds⟩
  have hbefore : ∀ e ∈ before, e ∈ events ∧ e.CompilesWith materials contentKey := by
    intro e he
    have hmem : e ∈ events := by simp [hsplit, he]
    exact ⟨hmem, hevents e hmem⟩
  have hreached := after_agrees hnames hkeys hbefore hstart
  obtain ⟨rfl, -⟩ := hevents _ hcall
  obtain ⟨hresidents, -, hanswer⟩ := compile_agrees hnames hkeys hcall _ _
    (hreached.residents client.who) hreached.entries trivial
  obtain ⟨hloaded, texts, htexts, rfl⟩ := hanswer text h
  obtain ⟨templates, hp, -⟩ := hresidents.preloaded hloaded
  exact uncached_compile hp htexts

def tea : Materials where
  shelf :=
    { find := fun key => .ok (if key = "tea".toList then some "Tea for [[+who]]".toList else none)
      preloaded := .ok [("cup".toList, "Cup".toList)] }
  forms := .html

def teaClient (who : ℕ) : Client := { tea with who }

def order : Text := "[[$tea who='two']][[%7]]".toList

def teaEvents : List Event := [
  .compile (teaClient 0) order ":menu".toList {},
  .invalidate ["chunks".toList],
  .compile (teaClient 1) order ":menu".toList ⟨["menu".toList]⟩,
  .compile (teaClient 2) order ":menu".toList {}]

def teaWorld : World :=
  { turns := List.replicate 16 { now := 5 } ++ [{ now := 7000, fate := .failsLate "lost".toList }] }

def served : Text := "Tea for two<div class=\"cb-form\" data-form-id=\"7\"></div>".toList

theorem compile_eq_uncached_order :
    ((({ world := teaWorld } : Session).after (.directory [] "/cache".toList) (teaEvents.take 3)).run
      (teaClient 2) (((teaClient 2).compiler (.directory [] "/cache".toList)).compile order
        ":menu".toList {})).1 = .ok served ∧
    ((tea.uncached.compile order ":menu".toList {}).runFrom {} ()).1 = .ok served := by
  have hempty : (Backend.directory [] "/cache".toList).IsEmpty teaWorld := by
    intro key
    simp [Backend.kept?, FileTree.node?, Backend.entryNames, teaWorld, Table.get?]
  have hsplit : teaEvents =
      teaEvents.take 3 ++ .compile (teaClient 2) order ":menu".toList {} :: [] := rfl
  have hevents : ∀ e ∈ teaEvents, e.CompilesWith tea ":menu".toList := by
    simp [teaEvents, Event.CompilesWith, teaClient]
  have hkeys : KeptApart ":menu".toList (teaEvents.flatMap Event.directives) :=
    ⟨by decide +kernel, by decide +kernel⟩
  have hnames : (Backend.directory [] "/cache".toList).Separates (keysOf teaEvents) := by
    have hmem : ∀ key ∈ teaEvents.flatMap Event.keys,
        key ∈ (Event.compile (teaClient 0) order ":menu".toList {}).keys := by decide +kernel
    have hdiffer : ((Event.compile (teaClient 0) order ":menu".toList {}).keys.map
        Digest.nameOf).Nodup := by decide +kernel
    exact fun key hkey key' hkey' =>
      List.inj_on_of_nodup_map hdiffer (hmem key hkey) (hmem key' hkey')
  have hserved : ((({ world := teaWorld } : Session).after (.directory [] "/cache".toList)
      (teaEvents.take 3)).run (teaClient 2) (((teaClient 2).compiler
        (.directory [] "/cache".toList)).compile order ":menu".toList {})).1 = .ok served := by
    decide +kernel
  exact ⟨hserved, compile_eq_uncached hempty hsplit hevents hkeys hnames hserved⟩

end ContentWeave
