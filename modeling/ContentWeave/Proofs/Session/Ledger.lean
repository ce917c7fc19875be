import ContentWeave.Proofs.Cache.Versions

/-!
# Sessions with notes

Clients work over one cache as in any session, and others may use the cache beside them. A ledger
notes, in this order, which texts the cache answers with and is given to keep, and what the stores
say. What every call of the cache and of the stores keeps, a step of the session keeps.
-/

namespace ContentWeave

inductive Note
  | answered (key value : Text)
  /-- A text was handed to the cache, whether that worked or not. -/
  | stored (key value : Text)
  | found (key : Text) (template : Option Text)
  | listed (templates : List (Text × Text))

namespace Note

def answers (key : Text) : Except CacheError (Option Text) → List Note
  | .ok (some value) => [answered key value]
  | _ => []

def finds (key : Text) : Except StorageError (Option Text) → List Note
  | .ok template => [found key template]
  | .error _ => []

def lists : Except StorageError (List (Text × Text)) → List Note
  | .ok templates => [listed templates]
  | .error _ => []

end Note

structure Ledger where
  world : World := {}
  notes : List Note := []

variable {ε α : Type}

/-- Work in the world of a ledger, with notes on how it came out. -/
def Ledger.noting (notes : Except ε α → List Note) (x : ExceptT ε (StateM World) α) :
    ExceptT ε (StateM Ledger) α :=
  ExceptT.mk <| StateT.modifyGet fun l =>
    ((runOn x l.world).1, ⟨(runOn x l.world).2, l.notes ++ notes (runOn x l.world).1⟩)

theorem Ledger.runOn_noting (notes : Except ε α → List Note) (x : ExceptT ε (StateM World) α)
    (l : Ledger) : runOn (noting notes x) l =
      ((runOn x l.world).1, ⟨(runOn x l.world).2, l.notes ++ notes (runOn x l.world).1⟩) := rfl

def Cache.noted (cache : Cache (StateM World)) : Cache (StateM Ledger) where
  get key := Ledger.noting (Note.answers key) (cache.get key)
  set key value ttl dependency :=
    Ledger.noting (fun _ => [.stored key value]) (cache.set key value ttl dependency)
  invalidate tags := Ledger.noting (fun _ => []) (cache.invalidate tags)

def Shelf.noted (shelf : Shelf) : ChunkStore (StateM Ledger) where
  find key := Ledger.noting (Note.finds key) (shelf.exposed.find key)
  findPreloaded := Ledger.noting Note.lists shelf.exposed.findPreloaded

def Client.noted (client : Client) (backend : Backend) : Compiler (StateM Ledger) where
  templates :=
    { store := client.shelf.noted, cache := backend.steady.noted, ttl := client.lookupTtl }
  cache := backend.steady.noted
  formats := client.formats
  forms := client.forms
  renderTtl := client.renderTtl

/-- What a client does, or what others do with the cache. -/
inductive Act
  | client (event : Event)
  | peek (key : Text)
  | leave (key value : Text) (ttl : ℕ) (dependency : Dependency)

namespace Act

def keys : Act → List Text
  | client event => event.keys
  | peek key => [key]
  | leave key _ _ _ => [key]

/-- The keys under which an act can store something, with the dependency it stores it with. -/
def Sets : Act → Text → Dependency → Prop
  | client (.compile _ content contentKey dependency), key, used =>
    (key = TemplateSource.preloadKey ∧ used = TemplateSource.dependency) ∨
      ∃ d ∈ Directive.scan content,
        (key = TemplateSource.lookupKey d.key ∧ used = TemplateSource.dependency) ∨
          (key = Compiler.renderKey d.key contentKey ∧ used = dependency)
  | client (.fetch _ asked), key, used =>
    key = TemplateSource.lookupKey asked ∧ used = TemplateSource.dependency
  | client (.preload _), key, used =>
    key = TemplateSource.preloadKey ∧ used = TemplateSource.dependency
  | leave left _ _ dependency, key, used => key = left ∧ used = dependency
  | client (.invalidate _), _, _ | peek _, _, _ => False

def raised : Act → ℕ
  | client (.invalidate tags) => tags.length
  | _ => 0

theorem Sets.mem_keys {a : Act} {key : Text} {used : Dependency} (h : a.Sets key used) :
    key ∈ a.keys := by
  match a with
  | client (.compile user content contentKey dependency) =>
    change key ∈ (Event.compile user content contentKey dependency).keys
    rcases h with ⟨rfl, -⟩ | ⟨d, hd, ⟨rfl, -⟩ | ⟨rfl, -⟩⟩
    · exact Event.preloadKey_mem_keys
    · exact Event.lookupKey_mem_keys hd
    · exact Event.renderKey_mem_keys hd
  | client (.fetch user asked) => exact List.mem_singleton.2 h.1
  | client (.preload user) => exact List.mem_singleton.2 h.1
  | leave left value ttl dependency => exact List.mem_singleton.2 h.1

def keysOf (acts : List Act) : Set Text := { key | ∃ a ∈ acts, key ∈ a.keys }

def raisedBy (acts : List Act) : ℕ := (acts.map raised).sum

end Act

structure Journal where
  residents : ℕ → TemplateCache := fun _ => {}
  ledger : Ledger := {}

namespace Journal

def start (w : World) : Journal where
  residents _ := { resident := .empty }
  ledger := { world := w }

def settle (j : Journal) (who : ℕ) (outcome : Except ε α × TemplateCache × Ledger) : Journal :=
  ⟨Function.update j.residents who outcome.2.1, outcome.2.2⟩

def run (j : Journal) (client : Client) (x : Compile (StateM Ledger) α) :
    Except CompileError α × TemplateCache × Ledger :=
  x.runFrom (j.residents client.who) j.ledger

def invalidation (backend : Backend) (j : Journal) (tags : List Text) :
    Except CacheError Unit × Ledger :=
  runOn (backend.steady.noted.invalidate tags) j.ledger

def step (backend : Backend) (j : Journal) : Act → Journal
  | .client (.compile client content contentKey dependency) =>
    j.settle client.who
      (j.run client ((client.noted backend).compile content contentKey dependency))
  | .client (.fetch client key) =>
    j.settle client.who (j.run client ((client.noted backend).templates.fetch key))
  | .client (.preload client) =>
    j.settle client.who (j.run client (client.noted backend).templates.preload)
  | .client (.invalidate tags) => { j with ledger := (j.invalidation backend tags).2 }
  | .peek key => { j with ledger := (runOn (backend.steady.noted.get key) j.ledger).2 }
  | .leave key value ttl dependency =>
    { j with ledger := (runOn (backend.steady.noted.set key value ttl dependency) j.ledger).2 }

def after (backend : Backend) (j : Journal) (acts : List Act) : Journal :=
  acts.foldl (step backend) j

variable {backend : Backend} {j : Journal} {a : Act}

/-- A step of a session keeps what its calls keep; `inv'` is what an invalidation leaves of `inv`. -/
theorem step_ledger (inv inv' : Ledger → Prop)
    (hget : ∀ key ∈ a.keys, Keeps inv (backend.steady.noted.get key) fun _ => True)
    (hset : ∀ key dependency, a.Sets key dependency → ∀ value ttl,
      Keeps inv (backend.steady.noted.set key value ttl dependency) fun _ => True)
    (hfind : ∀ (shelf : Shelf) key, Keeps inv (shelf.noted.find key) fun _ => True)
    (hlist : ∀ shelf : Shelf, Keeps inv shelf.noted.findPreloaded fun _ => True)
    (hinvalidate : ∀ tags, a = .client (.invalidate tags) → ∀ l, inv l →
      inv' (runOn (backend.steady.noted.invalidate tags) l).2)
    (hweaken : ∀ l, inv l → inv' l) (hj : inv j.ledger) : inv' (j.step backend a).ledger := by
  match a with
  | .client (.invalidate tags) => exact hinvalidate tags rfl _ hj
  | .peek key => exact hweaken _ (hget key (by simp [Act.keys]) _ hj).1
  | .leave key value ttl dependency =>
    exact hweaken _ (hset key dependency ⟨rfl, rfl⟩ value ttl _ hj).1
  | .client (.fetch client key) =>
    have hfetch : Compile.Retains inv ((client.noted backend).templates.fetch key) :=
      TemplateSource.fetch_retains (hget _ (by simp [Act.keys, Event.keys]))
        (fun value => hset _ _ ⟨rfl, rfl⟩ value _) (hfind client.shelf key)
    exact hweaken _ (hfetch.run _ hj)
  | .client (.preload client) =>
    have hpreload : Compile.Retains inv (client.noted backend).templates.preload :=
      TemplateSource.preload_retains (hget _ (by simp [Act.keys, Event.keys]))
        (fun value => hset _ _ ⟨rfl, rfl⟩ value _) (hlist client.shelf)
    exact hweaken _ (hpreload.run _ hj)
  | .client (.compile client content contentKey dependency) =>
    change ∀ key ∈ (Event.compile client content contentKey dependency).keys, _ at hget
    have hpreload : Compile.Retains inv (client.noted backend).templates.preload :=
      TemplateSource.preload_retains (hget _ Event.preloadKey_mem_keys)
        (fun value => hset _ _ (.inl ⟨rfl, rfl⟩) value _) (hlist client.shelf)
    have hexpand : ∀ d ∈ Directive.scan content,
        Compile.Retains inv ((client.noted backend).expand d contentKey dependency) := by
      intro d hd
      refine Compiler.expand_retains (hget _ (Event.renderKey_mem_keys hd))
        (fun value => hset _ _ (.inr ⟨d, hd, .inr ⟨rfl, rfl⟩⟩) value _) fun _ => ?_
      exact TemplateSource.fetch_retains (hget _ (Event.lookupKey_mem_keys hd))
        (fun value => hset _ _ (.inr ⟨d, hd, .inl ⟨rfl, rfl⟩⟩) value _) (hfind client.shelf d.key)
    exact hweaken _ ((Compiler.compile_retains hpreload hexpand).run _ hj)

/-- A run keeps what every step keeps, as long as there is room for the tags that it invalidates. -/
theorem after_of_step {acts : List Act} (kept : ℕ → Journal → Prop)
    (hstep : ∀ a ∈ acts, ∀ room j, kept (room + a.raised) j → kept room (j.step backend a))
    {room : ℕ} (hj : kept (room + Act.raisedBy acts) j) : kept room (j.after backend acts) := by
  induction acts generalizing j with
  | nil => exact hj
  | cons a acts ih =>
    refine ih (fun b hb => hstep b (List.mem_cons_of_mem _ hb)) ?_
    refine hstep a List.mem_cons_self _ _ ?_
    rw [Nat.add_assoc, Nat.add_comm (Act.raisedBy acts)]
    simpa [Act.raisedBy] using hj

end Journal

namespace Ledger

variable {x : ExceptT ε (StateM World) α} {notes : Except ε α → List Note} {old : List Note}
variable {good : List Note → World → Prop}

theorem keeps_noting {inv : World → Prop} {post : α → Prop} (hx : Keeps inv x post) :
    Keeps (fun l => inv l.world) (noting notes x) post :=
  fun l hl => hx l.world hl

/-- The notes of a ledger go on from `old`, and what has been noted since is `good`. -/
def Grown (old : List Note) (good : List Note → World → Prop) (l : Ledger) : Prop :=
  ∃ since, l.notes = old ++ since ∧ good since l.world

theorem Grown.noting (h : ∀ since w, good since w →
    good (since ++ notes (runOn x w).1) (runOn x w).2) :
    Keeps (Grown old good) (noting notes x) fun _ => True := by
  rintro l ⟨since, hnotes, hgood⟩
  refine ⟨⟨since ++ notes (runOn x l.world).1, ?_, h since l.world hgood⟩, fun _ _ => trivial⟩
  rw [runOn_noting, hnotes, List.append_assoc]

end Ledger

/-- Every answer under a guarded key has been stored under it before. -/
def Founded (guarded : Set Text) (since : List Note) : Prop :=
  ∀ front key value rest, since = front ++ .answered key value :: rest → key ∈ guarded →
    .stored key value ∈ front

theorem Founded.append {guarded : Set Text} {since notes : List Note} (h : Founded guarded since)
    (hnotes : ∀ key value, .answered key value ∈ notes → key ∈ guarded →
      .stored key value ∈ since) : Founded guarded (since ++ notes) := by
  intro front key value rest heq hkey
  rcases List.append_eq_append_iff.1 heq with ⟨more, rfl, hmore⟩ | ⟨more, rfl, hmore⟩
  · exact List.mem_append_left _ (hnotes key value (by simp [hmore]) hkey)
  · cases more with
    | nil =>
      obtain rfl : _ = notes := hmore
      have hstored := hnotes key value List.mem_cons_self hkey
      rwa [List.append_nil] at hstored
    | cons first more =>
      cases hmore
      exact h front key value more rfl hkey

/-- Since a tag has been invalidated: what is under a guarded key has been stored since or is
outdated, and what has been answered under one has been stored since. -/
structure Since (backend : Backend) (room : ℕ) (guarded : Set Text) (tag : Text) (limit : ℕ)
    (since : List Note) (w : World) : Prop where
  renewed : backend.Renewed room guarded tag limit (fun key value => .stored key value ∈ since) w
  founded : Founded guarded since

namespace Since

variable {backend : Backend} {room limit : ℕ} {guarded keys : Set Text} {tag key : Text}
variable {since : List Note} {w : World}

theorem noting {x : ExceptT ε (StateM World) α} {notes : List Note}
    (h : Since backend room guarded tag limit since w)
    (hx : Keeps (backend.Renewed room guarded tag limit
      fun key value => .stored key value ∈ since ++ notes) x fun _ => True)
    (hnotes : ∀ key value, .answered key value ∉ notes) :
    Since backend room guarded tag limit (since ++ notes) (runOn x w).2 where
  renewed := (hx w (h.renewed.mono fun _ _ => List.mem_append_left _)).1
  founded := h.founded.append fun key value hmem => absurd hmem (hnotes key value)

theorem get (h : Since backend room guarded tag limit since w) (key : Text) :
    Since backend room guarded tag limit
      (since ++ Note.answers key (runOn (backend.steady.get key) w).1)
      (runOn (backend.steady.get key) w).2 := by
  obtain ⟨hrenewed, hanswer⟩ := Backend.Renewed.get key w h.renewed
  refine ⟨hrenewed.mono fun _ _ => List.mem_append_left _, h.founded.append fun j value hmem hj => ?_⟩
  have hanswers : ∀ r, .answered j value ∈ Note.answers key r → j = key ∧ r = .ok (some value) := by
    intro r hr
    match r, hr with
    | .ok (some value'), hr =>
      cases List.mem_singleton.1 hr
      exact ⟨rfl, rfl⟩
  obtain ⟨rfl, hfound⟩ := hanswers _ hmem
  exact hanswer _ hfound value rfl hj

theorem set (h : Since backend room guarded tag limit since w) (hkeys : backend.Separates keys)
    (hguarded : guarded ⊆ keys) (hkey : key ∈ keys) (value : Text) (ttl : ℕ)
    (dependency : Dependency) :
    Since backend room guarded tag limit (since ++ [.stored key value])
      (runOn (backend.steady.set key value ttl dependency) w).2 :=
  h.noting (Backend.Renewed.set hkeys hguarded hkey (fun _ => by simp) ttl dependency) (by simp)

theorem find (h : Since backend room guarded tag limit since w) (shelf : Shelf) (key : Text) :
    Since backend room guarded tag limit
      (since ++ Note.finds key (runOn (shelf.exposed.find key) w).1)
      (runOn (shelf.exposed.find key) w).2 := by
  refine h.noting ((shelf.find_keeps Backend.Renewed.enduring key).mono fun _ _ => trivial) ?_
  intro j value hmem
  cases hr : (runOn (shelf.exposed.find key) w).1 <;> simp [hr, Note.finds] at hmem

theorem list (h : Since backend room guarded tag limit since w) (shelf : Shelf) :
    Since backend room guarded tag limit
      (since ++ Note.lists (runOn shelf.exposed.findPreloaded w).1)
      (runOn shelf.exposed.findPreloaded w).2 := by
  have hlisted : Keeps (backend.Renewed room guarded tag limit fun key value =>
      .stored key value ∈ since ++ Note.lists (runOn shelf.exposed.findPreloaded w).1)
      shelf.exposed.findPreloaded fun _ => True :=
    Keeps.exposed Backend.Renewed.enduring fun w hw => ⟨hw, fun _ _ => trivial⟩
  refine h.noting hlisted ?_
  intro j value hmem
  cases hr : (runOn shelf.exposed.findPreloaded w).1 <;> simp [hr, Note.lists] at hmem

theorem invalidate {tags : List Text}
    (h : Since backend (room + tags.length) guarded tag limit since w) :
    Since backend room guarded tag limit (since ++ [])
      (runOn (backend.steady.invalidate tags) w).2 := by
  rw [List.append_nil]
  exact ⟨h.renewed.invalidate, h.founded⟩

theorem weaken {room' : ℕ} (h : Since backend room guarded tag limit since w) (hle : room' ≤ room) :
    Since backend room' guarded tag limit since w :=
  ⟨⟨h.renewed.usable.mono hle, h.renewed.limit_le, h.renewed.fits_or⟩, h.founded⟩

end Since

namespace Journal

variable {backend : Backend} {j : Journal} {acts : List Act} {keys guarded : Set Text} {tag : Text}
variable {room limit : ℕ} {old : List Note} {fits : Text → Text → Prop}
variable (hkeys : backend.Separates keys) (hguarded : guarded ⊆ keys)
variable (hacts : ∀ a ∈ acts, ∀ key ∈ a.keys, key ∈ keys)

include hkeys hguarded hacts

theorem after_dated
    (hsets : ∀ a ∈ acts, ∀ key dependency, a.Sets key dependency → key ∈ guarded →
      tag ∈ dependency.tags)
    (h : backend.Dated (room + Act.raisedBy acts) guarded tag j.ledger.world) :
    backend.Dated room guarded tag (j.after backend acts).ledger.world := by
  refine after_of_step (fun room j => backend.Dated room guarded tag j.ledger.world) ?_ h
  intro a ha room j hj
  refine step_ledger (fun l => backend.Dated (room + a.raised) guarded tag l.world)
    (fun l => backend.Dated room guarded tag l.world)
    (fun key _ => Ledger.keeps_noting (Backend.Dated.get key)) ?_ ?_ ?_ ?_ ?_ hj
  · intro key dependency hset value ttl
    have hkey := hacts a ha key hset.mem_keys
    exact Ledger.keeps_noting (Backend.Dated.set hkeys hguarded hkey
      (hsets a ha key dependency hset) value ttl)
  · intro shelf key
    exact Ledger.keeps_noting
      ((shelf.find_keeps Backend.Dated.enduring key).mono fun _ _ => trivial)
  · intro shelf
    exact Ledger.keeps_noting
      (Keeps.exposed Backend.Dated.enduring fun w hw => ⟨hw, fun _ _ => trivial⟩)
  · rintro tags rfl l hl
    exact Backend.Dated.invalidate hl
  · exact fun l hl => ⟨hl.usable.mono (Nat.le_add_right _ _), hl.dated⟩

/-- Whatever is done after an invalidation, guarded keys are answered with what has been stored
since. -/
theorem after_since
    (h : Ledger.Grown old (Since backend (room + Act.raisedBy acts) guarded tag limit) j.ledger) :
    Ledger.Grown old (Since backend room guarded tag limit) (j.after backend acts).ledger := by
  refine after_of_step
    (fun room j => Ledger.Grown old (Since backend room guarded tag limit) j.ledger) ?_ h
  intro a ha room j hj
  refine step_ledger (Ledger.Grown old (Since backend (room + a.raised) guarded tag limit))
    (Ledger.Grown old (Since backend room guarded tag limit))
    (fun key _ => Ledger.Grown.noting fun since w hw => hw.get key) ?_ ?_ ?_ ?_ ?_ hj
  · intro key dependency hset value ttl
    have hkey := hacts a ha key hset.mem_keys
    exact Ledger.Grown.noting fun since w hw => hw.set hkeys hguarded hkey value ttl dependency
  · exact fun shelf key => Ledger.Grown.noting fun since w hw => hw.find shelf key
  · exact fun shelf => Ledger.Grown.noting fun since w hw => hw.list shelf
  · rintro tags rfl l ⟨since, hnotes, hl⟩
    refine ⟨since ++ [], ?_, hl.invalidate⟩
    rw [List.append_nil, ← hnotes]
    exact List.append_nil l.notes
  · rintro l ⟨since, hnotes, hl⟩
    exact ⟨since, hnotes, hl.weaken (Nat.le_add_right _ _)⟩

theorem after_renewed
    (hsets : ∀ a ∈ acts, ∀ key dependency, a.Sets key dependency → key ∉ guarded)
    (h : backend.Renewed (room + Act.raisedBy acts) guarded tag limit fits j.ledger.world) :
    backend.Renewed room guarded tag limit fits (j.after backend acts).ledger.world := by
  refine after_of_step
    (fun room j => backend.Renewed room guarded tag limit fits j.ledger.world) ?_ h
  intro a ha room j hj
  refine step_ledger
    (fun l => backend.Renewed (room + a.raised) guarded tag limit fits l.world)
    (fun l => backend.Renewed room guarded tag limit fits l.world) ?_ ?_ ?_ ?_ ?_ ?_ hj
  · exact fun key _ =>
      Ledger.keeps_noting ((Backend.Renewed.get key).mono fun _ _ => trivial)
  · intro key dependency hset value ttl
    have hkey := hacts a ha key hset.mem_keys
    have hfree := hsets a ha key dependency hset
    exact Ledger.keeps_noting (Backend.Renewed.set hkeys hguarded hkey
      (fun hmem => absurd hmem hfree) ttl dependency)
  · intro shelf key
    exact Ledger.keeps_noting
      ((shelf.find_keeps Backend.Renewed.enduring key).mono fun _ _ => trivial)
  · intro shelf
    exact Ledger.keeps_noting
      (Keeps.exposed Backend.Renewed.enduring fun w hw => ⟨hw, fun _ _ => trivial⟩)
  · rintro tags rfl l hl
    exact Backend.Renewed.invalidate hl
  · exact fun l hl => ⟨hl.usable.mono (Nat.le_add_right _ _), hl.limit_le, hl.fits_or⟩

end Journal
end ContentWeave
