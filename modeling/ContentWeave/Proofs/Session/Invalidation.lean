import ContentWeave.Proofs.Cache.Eviction
import ContentWeave.Proofs.Session.Ledger

/-!
# No rendered result outlives its tag

Every compilation of a session depends on one tag. Once that tag has been invalidated, a rendered
result that the cache answers with has been stored since, and the next compilation comes out as if
all results that were rendered before had been taken out of the cache.
-/

namespace ContentWeave

namespace Act

/-- A compilation has this content key and depends on the tag, and nobody else stores anything. -/
def Binds (contentKey tag : Text) : Act → Prop
  | client (.compile _ _ used dependency) => used = contentKey ∧ tag ∈ dependency.tags
  | leave _ _ _ _ => False
  | _ => True

def rendered : Act → List Text
  | client (.compile _ content contentKey _) =>
    (Directive.scan content).map fun d => Compiler.renderKey d.key contentKey
  | _ => []

def Idle : Act → Prop
  | client (.compile _ _ _ _) | leave _ _ _ _ => False
  | _ => True

variable {a : Act} {key contentKey tag : Text} {dependency : Dependency}

theorem rendered_subset_keys (h : key ∈ a.rendered) : key ∈ a.keys := by
  match a with
  | client (.compile user content used dependency) =>
    obtain ⟨d, hd, rfl⟩ := List.mem_map.1 h
    change _ ∈ (Event.compile user content used dependency).keys
    exact Event.renderKey_mem_keys hd

/-- Whatever is not stored under the key of a chunk is a rendered result, and depends on the tag. -/
theorem Binds.mem_tags (h : a.Binds contentKey tag) (hset : a.Sets key dependency)
    (hkey : ¬ "chunks:".toList <+: key) : tag ∈ dependency.tags := by
  match a with
  | client (.compile _ _ _ _) =>
    rcases hset with ⟨rfl, -⟩ | ⟨d, -, ⟨rfl, -⟩ | ⟨-, rfl⟩⟩
    · exact absurd TemplateSource.chunks_prefix_preloadKey hkey
    · exact absurd (TemplateSource.chunks_prefix_lookupKey d.key) hkey
    · exact h.2
  | client (.fetch _ _) =>
    obtain ⟨rfl, -⟩ := hset
    exact absurd (TemplateSource.chunks_prefix_lookupKey _) hkey
  | client (.preload _) =>
    obtain ⟨rfl, -⟩ := hset
    exact absurd TemplateSource.chunks_prefix_preloadKey hkey

theorem Idle.stores_chunks (h : a.Idle) (hset : a.Sets key dependency) :
    "chunks:".toList <+: key := by
  match a with
  | client (.fetch _ _) =>
    obtain ⟨rfl, -⟩ := hset
    exact TemplateSource.chunks_prefix_lookupKey _
  | client (.preload _) =>
    obtain ⟨rfl, -⟩ := hset
    exact TemplateSource.chunks_prefix_preloadKey

end Act

namespace Ledger

def Leaner (backend : Backend) (l l' : Ledger) : Prop :=
  l'.notes = l.notes ∧ backend.Leaner l.world l'.world

variable {ε α : Type} {backend : Backend}

theorem noting_uniform {x : ExceptT ε (StateM World) α} (notes : Except ε α → List Note)
    (hx : Uniform backend.Leaner x) : Uniform (Leaner backend) (noting notes x) := by
  rintro l l' ⟨hnotes, hworld⟩
  obtain ⟨hsame, hnext⟩ := hx l.world l'.world hworld
  rw [runOn_noting, runOn_noting, hnotes, hsame]
  exact ⟨rfl, rfl, hnext⟩

end Ledger

namespace Client

variable (client : Client) (backend : Backend)

theorem compile_uniform (content contentKey : Text) (dependency : Dependency) :
    Compile.Uniform (Ledger.Leaner backend)
      ((client.noted backend).compile content contentKey dependency) := by
  have hturn : ∀ w w', backend.Leaner w w' → (World.nextTurn.run w).1 = (World.nextTurn.run w').1 ∧
      backend.Leaner (World.nextTurn.run w).2 (World.nextTurn.run w').2 := fun _ _ h => h.nextTurn
  have hget : ∀ key, Uniform (Ledger.Leaner backend) (backend.steady.noted.get key) :=
    fun key => Ledger.noting_uniform _ (Backend.steady_get_uniform key)
  have hset : ∀ key value ttl dependency,
      Uniform (Ledger.Leaner backend) (backend.steady.noted.set key value ttl dependency) :=
    fun key value ttl dependency =>
      Ledger.noting_uniform _ (Backend.steady_set_uniform key value ttl dependency)
  have hfind : ∀ key, Uniform (Ledger.Leaner backend) (client.shelf.noted.find key) := by
    intro key
    have hask : Uniform backend.Leaner (client.shelf.asStore.find key) := fun _ _ h => ⟨rfl, h⟩
    exact Ledger.noting_uniform _ (hask.exposed hturn)
  have hlist : Uniform (Ledger.Leaner backend) client.shelf.noted.findPreloaded := by
    have hask : Uniform backend.Leaner client.shelf.asStore.findPreloaded := fun _ _ h => ⟨rfl, h⟩
    exact Ledger.noting_uniform _ (hask.exposed hturn)
  refine Compiler.compile_uniform (TemplateSource.preload_uniform hget hset hlist) (fun d => ?_)
    content
  exact Compiler.expand_uniform hget hset (TemplateSource.fetch_uniform hget hset (hfind d.key))

end Client

def Act.pageKeys (acts : List Act) : Set Text :=
  { key | key ∈ Act.keysOf acts ∧ ¬ "chunks:".toList <+: key }

namespace Journal

def evict (backend : Backend) (keys : List Text) (j : Journal) : Journal :=
  { j with ledger := { j.ledger with world := backend.evict keys j.ledger.world } }

variable {backend : Backend} {w : World} {before later : List Act} {tags : List Text}
variable {contentKey tag : Text} {room : ℕ}

theorem renewed_of_binds
    (hnew : backend.IsNew (Act.raisedBy before + tags.length + room) w)
    (hkeys : backend.Separates (Act.keysOf (before ++ later)))
    (hbinds : ∀ a ∈ before, a.Binds contentKey tag) (htag : tag ∈ tags)
    (hdone : (((start w).after backend before).invalidation backend tags).1 = .ok ()) :
    ∃ limit, ∀ fits, backend.Renewed room (Act.pageKeys (before ++ later)) tag limit fits
      (((start w).after backend before).step backend (.client (.invalidate tags))).ledger.world := by
  have hpages : Act.pageKeys (before ++ later) ⊆ Act.keysOf (before ++ later) :=
    fun key hkey => hkey.1
  have hin : ∀ a ∈ before, ∀ key ∈ a.keys, key ∈ Act.keysOf (before ++ later) :=
    fun a ha key hkey => ⟨a, List.mem_append_left _ ha, hkey⟩
  have hsets : ∀ a ∈ before, ∀ key dependency, a.Sets key dependency →
      key ∈ Act.pageKeys (before ++ later) → tag ∈ dependency.tags :=
    fun a ha key dependency hset hkey => (hbinds a ha).mem_tags hset hkey.2
  have hstart : backend.Dated (room + tags.length + Act.raisedBy before)
      (Act.pageKeys (before ++ later)) tag (start w).ledger.world :=
    .of_isNew (hnew.mono (by omega))
  have hdated := after_dated hkeys hpages hin hsets hstart
  exact ⟨_, fun fits => hdated.renewed htag hdone fits⟩

theorem leaner_evict {j : Journal} {limit : ℕ}
    (hkeys : backend.Separates (Act.keysOf (before ++ later)))
    (hapart : ∀ a ∈ before, ∀ key ∈ a.rendered, ¬ "chunks:".toList <+: key)
    (hidle : ∀ a ∈ later, a.Idle)
    (hrenewed : backend.Renewed (room + Act.raisedBy later) (Act.pageKeys (before ++ later)) tag limit
      (fun _ _ => False) j.ledger.world) :
    Ledger.Leaner backend (j.after backend later).ledger
      ((j.after backend later).evict backend (before.flatMap Act.rendered)).ledger := by
  have hguarded : Act.pageKeys (before ++ later) ⊆ Act.keysOf (before ++ later) :=
    fun key hkey => hkey.1
  have hlater : ∀ a ∈ later, ∀ key ∈ a.keys, key ∈ Act.keysOf (before ++ later) :=
    fun a ha key hkey => ⟨a, List.mem_append_right _ ha, hkey⟩
  have hsets : ∀ a ∈ later, ∀ key dependency, a.Sets key dependency →
      key ∉ Act.pageKeys (before ++ later) :=
    fun a ha key dependency hset hkey => hkey.2 ((hidle a ha).stores_chunks hset)
  have hstale := after_renewed hkeys hguarded hlater hsets hrenewed
  have hevicted : ∀ key ∈ before.flatMap Act.rendered, key ∈ Act.pageKeys (before ++ later) := by
    intro key hkey
    obtain ⟨a, ha, hkey⟩ := List.mem_flatMap.1 hkey
    exact ⟨⟨a, List.mem_append_left _ ha, Act.rendered_subset_keys hkey⟩, hapart a ha key hkey⟩
  exact ⟨rfl, hstale.leaner_evict hevicted⟩

end Journal

variable {backend : Backend} {w : World} {before later : List Act} {tags : List Text}
variable {contentKey tag : Text}

/-- No rendered result outlives its tag: what is answered after an invalidation has been stored after
it, and the first compilation comes out as if all results rendered before had been evicted. -/
theorem rendered_since_invalidation
    (hnew : backend.IsNew (Act.raisedBy before + tags.length + Act.raisedBy later) w)
    (hkeys : backend.Separates (Act.keysOf (before ++ later)))
    (hbinds : ∀ a ∈ before ++ later, a.Binds contentKey tag)
    (hapart : ∀ a ∈ before ++ later, ∀ key ∈ a.rendered, ¬ "chunks:".toList <+: key)
    (htag : tag ∈ tags)
    (hdone : (((Journal.start w).after backend before).invalidation backend tags).1 = .ok ()) :
    let invalid := ((Journal.start w).after backend before).step backend (.client (.invalidate tags))
    let j := invalid.after backend later
    (∃ since, j.ledger.notes = invalid.ledger.notes ++ since ∧
      ∀ front key value rest, since = front ++ .answered key value :: rest →
        (∃ a ∈ before ++ later, key ∈ a.rendered) → .stored key value ∈ front) ∧
    ((∀ a ∈ later, a.Idle) → ∀ client content dependency,
      let bare := j.evict backend (before.flatMap Act.rendered)
      let call (j : Journal) :=
        j.run client ((client.noted backend).compile content contentKey dependency)
      (call j).1 = (call bare).1 ∧ (call j).2.1 = (call bare).2.1) := by
  dsimp only
  obtain ⟨limit, hrenewed⟩ := Journal.renewed_of_binds hnew hkeys
    (fun a ha => hbinds a (List.mem_append_left _ ha)) htag hdone
  generalize ((Journal.start w).after backend before).step backend (.client (.invalidate tags)) =
    invalid at hrenewed ⊢
  have hguarded : Act.pageKeys (before ++ later) ⊆ Act.keysOf (before ++ later) :=
    fun key hkey => hkey.1
  have hlater : ∀ a ∈ later, ∀ key ∈ a.keys, key ∈ Act.keysOf (before ++ later) :=
    fun a ha key hkey => ⟨a, List.mem_append_right _ ha, hkey⟩
  have hpages : ∀ a ∈ before ++ later, ∀ key ∈ a.rendered,
      key ∈ Act.pageKeys (before ++ later) := fun a ha key hkey =>
    ⟨⟨a, ha, Act.rendered_subset_keys hkey⟩, hapart a ha key hkey⟩
  rw [← Nat.zero_add (Act.raisedBy later)] at hrenewed
  constructor
  · have hstart : Ledger.Grown invalid.ledger.notes
        (Since backend (0 + Act.raisedBy later) (Act.pageKeys (before ++ later)) tag limit)
        invalid.ledger := by
      refine ⟨[], (List.append_nil _).symm, hrenewed _, fun front key value rest heq => ?_⟩
      cases front <;> cases heq
    obtain ⟨since, hnotes, hsince⟩ := Journal.after_since hkeys hguarded hlater hstart
    refine ⟨since, hnotes, fun front key value rest heq hkey => ?_⟩
    obtain ⟨a, ha, hkey⟩ := hkey
    exact hsince.founded front key value rest heq (hpages a ha key hkey)
  · intro hidle client content dependency
    have hleaner := Journal.leaner_evict hkeys
      (fun a ha => hapart a (List.mem_append_left _ ha)) hidle (hrenewed fun _ _ => False)
    obtain ⟨hsame, hresidents, -⟩ :=
      client.compile_uniform backend content contentKey dependency _ _ _ hleaner
    exact ⟨hsame, hresidents⟩

def teaSeller (who : ℕ) (tea : Text) : Client where
  shelf := { find := fun key => .ok (if key = "tea".toList then some tea else none)
             preloaded := .ok [] }
  who := who

def teaPage : Text := "We have [[$tea]]".toList

theorem rendered_since_invalidation_tea : ∃ tree,
    ((DirectoryCache.unfailing [] "/cache".toList 0).prepare "1".toList).run {} = ((), tree) ∧
    let backend := Backend.directory [] "/cache".toList
    let before := [Act.client (.compile (teaSeller 0 "green".toList) teaPage ":menu".toList
      ⟨["site".toList]⟩)]
    let made := (Journal.start { tree }).after backend before
    let j := made.step backend (.client (.invalidate ["chunks".toList, "site".toList]))
    let bare := j.evict backend (before.flatMap Act.rendered)
    let client := teaSeller 1 "black".toList
    let call (j : Journal) := j.run client ((client.noted backend).compile teaPage ":menu".toList {})
    (call made).1 = .ok "We have green".toList ∧ (call j).1 = .ok "We have black".toList ∧
      (call bare).1 = .ok "We have black".toList := by
  have hversion : DirectoryCache.storedVersion {} [] "/cache".toList ≠ some "1".toList := by
    decide +kernel
  obtain ⟨tree, hrun, hnew⟩ := Backend.exists_isNew_prepare (w := {}) 2 0 emptyTree_site
    emptyTree_nothing hversion (by decide)
  refine ⟨tree, hrun, ?_⟩
  obtain rfl : (((DirectoryCache.unfailing [] "/cache".toList 0).prepare "1".toList).run {}).2 =
    tree := congrArg Prod.snd hrun
  intro backend before made j bare client call
  have hkeys : backend.Separates (Act.keysOf (before ++ [])) := by
    refine Digest.injOn_nameOf ?_ (by decide +kernel :
      (["chunks:preload".toList, "chunks:key:tea".toList, "tea:menu".toList].map
        Digest.nameOf).Nodup)
    rintro key ⟨a, ha, hkey⟩
    have hasked : ∀ a ∈ before, ∀ key ∈ a.keys, key ∈
        ["chunks:preload".toList, "chunks:key:tea".toList, "tea:menu".toList] := by decide +kernel
    exact hasked a (by simpa using ha) key hkey
  have hbinds : ∀ a ∈ before ++ [], a.Binds ":menu".toList "site".toList := by
    simp [before, Act.Binds]
  have hapart : ∀ a ∈ before ++ [], ∀ key ∈ a.rendered, ¬ "chunks:".toList <+: key := by
    decide +kernel
  have hdone : (made.invalidation backend ["chunks".toList, "site".toList]).1 = .ok () := by
    decide +kernel
  have hcall : (call j).1 = .ok "We have black".toList := by decide +kernel
  obtain ⟨-, hbare⟩ := rendered_since_invalidation hnew hkeys hbinds hapart (by simp) hdone
  obtain ⟨hsame, -⟩ := hbare (by simp) client teaPage {}
  exact ⟨by decide +kernel, hcall, hsame.symm.trans hcall⟩

end ContentWeave
