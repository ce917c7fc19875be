import ContentWeave.ChunkStore.Memory
import ContentWeave.Proofs.Cache.OnDisk
import ContentWeave.Proofs.ChunkStore.Answers

/-!
# Stores whose chunks do not change

A depot is the world of a cache together with the chunks of a store: files on a disk of their own,
or a store in memory. Reading a chunk file takes a turn of the world and can fail in it; a store in
memory fails while it is told to. As long as nobody changes a chunk, a store that answers at all
answers a key always alike, whichever chunks are marked to be loaded first.
-/

namespace ContentWeave

structure Depot where
  world : World := {}
  files : FileTree := {}
  shelf : MemoryStore := {}

namespace Depot

instance : MonadStateOf FileTree (StateM Depot) where
  get := StateT.modifyGet fun d => (d.files, d)
  set files := StateT.modifyGet fun d => ((), { d with files })
  modifyGet f := StateT.modifyGet fun d => ((f d.files).1, { d with files := (f d.files).2 })

instance : MonadStateOf MemoryStore (StateM Depot) where
  get := StateT.modifyGet fun d => (d.shelf, d)
  set shelf := StateT.modifyGet fun d => ((), { d with shelf })
  modifyGet f := StateT.modifyGet fun d => ((f d.shelf).1, { d with shelf := (f d.shelf).2 })

def inWorld {α : Type} (x : StateM World α) : StateM Depot α :=
  StateT.modifyGet fun d => ((x.run d.world).1, { d with world := (x.run d.world).2 })

def exposed {ε α : Type} (lost : Text → ε) (x : ExceptT ε (StateM Depot) α) :
    ExceptT ε (StateM Depot) α := do
  match ← (inWorld World.nextTurn : StateM Depot Fate) with
  | .works => x
  | .fails reason => throw (lost reason)
  | .failsLate reason => do
    let _ ← x
    throw (lost reason)

/-- The disk with the chunk files, which are only read. -/
def disk (here : List Text) : Host (StateM Depot) :=
  let host := FileTree.host here (inWorld World.clock)
  { host with read := fun path => exposed .other (host.read path) }

def calm (d : Depot) : Depot :=
  { d with world := { d.world with turns := [] }, shelf := { d.shelf with failing := false } }

def chunk? (d : Depot) (key : Text) : Option Text := (d.shelf.chunks.get? key).map Prod.fst

/-- Puts a chunk into the store in memory once more, to be loaded first or not. -/
def mark (d : Depot) (key : Text) (first : Bool) : Depot :=
  match d.chunk? key with
  | none => d
  | some template => { d with shelf := d.shelf.insert key template first }

def withOutage (d : Depot) (failing : Bool) : Depot :=
  { d with shelf := { d.shelf with failing } }

structure SameChunks (d d' : Depot) : Prop where
  files : d'.files = d.files
  shelf : ∀ key, d'.chunk? key = d.chunk? key

end Depot

def Cache.inDepot (cache : Cache (StateM World)) : Cache (StateM Depot) where
  get key := ExceptT.mk (Depot.inWorld (cache.get key).run)
  set key value ttl dependency := ExceptT.mk (Depot.inWorld (cache.set key value ttl dependency).run)
  invalidate tags := ExceptT.mk (Depot.inWorld (cache.invalidate tags).run)

inductive Place
  | files (here : List Text) (directory : Path) (extension : Text)
  | memory

namespace Place

/-- The store at a place. What a store in memory loads first is marked in its chunks. -/
def store : Place → (preload : List Text) → ChunkStore (StateM Depot)
  | files here directory extension, preload =>
    ChunkDirectory.asStore { directory, extension, preload } (Depot.disk here)
  | memory, _ => MemoryStore.asStore

def answer (place : Place) (preload : List Text) (d : Depot) (key : Text) :
    Except StorageError (Option Text) :=
  (runOn ((place.store preload).find key) d.calm).1

/-- The store at a place answers a key with this template, whatever it loads first. -/
def Has (place : Place) (d₀ : Depot) (key : Text) (template : Option Text) : Prop :=
  ∀ preload d, d₀.SameChunks d → place.answer preload d key = .ok template

end Place

namespace Depot

variable {ε α : Type} {d₀ : Depot} {inv : World → Prop} {post : α → Prop}

protected theorem SameChunks.refl (d : Depot) : d.SameChunks d := ⟨rfl, fun _ => rfl⟩

theorem SameChunks.withWorld {d : Depot} (h : d₀.SameChunks d) (world : World) :
    d₀.SameChunks { d with world } := ⟨h.files, h.shelf⟩

theorem chunk?_mark (d : Depot) (key : Text) (first : Bool) (j : Text) :
    (d.mark key first).chunk? j = d.chunk? j := by
  unfold mark
  cases hkey : d.chunk? key with
  | none => rfl
  | some template =>
    simp only [chunk?, MemoryStore.insert, Table.get?_insert]
    split_ifs with hj
    · subst hj
      exact hkey.symm
    · rfl

structure Stocked (d₀ : Depot) (inv : World → Prop) (d : Depot) : Prop where
  chunks : d₀.SameChunks d
  world : inv d.world

theorem Stocked.mark {d : Depot} (h : d₀.Stocked inv d) (key : Text) (first : Bool) :
    d₀.Stocked inv (d.mark key first) := by
  have hrest : (d.mark key first).files = d.files ∧ (d.mark key first).world = d.world := by
    unfold Depot.mark
    split <;> exact ⟨rfl, rfl⟩
  refine ⟨⟨hrest.1.trans h.chunks.files, fun j => ?_⟩, hrest.2 ▸ h.world⟩
  rw [chunk?_mark, h.chunks.shelf]

theorem Stocked.withOutage {d : Depot} (h : d₀.Stocked inv d) (failing : Bool) :
    d₀.Stocked inv (d.withOutage failing) :=
  ⟨⟨h.chunks.files, h.chunks.shelf⟩, h.world⟩

/-- `inv` implies the chunks of `d₀`, and neither a turn of the world nor a question to the store ends
it. -/
structure Undisturbed (d₀ : Depot) (inv : Depot → Prop) : Prop where
  chunks : ∀ d, inv d → d₀.SameChunks d
  turn : ∀ d, inv d → inv { d with world := (World.nextTurn.run d.world).2 }
  asked : ∀ d lookups preloads, inv d →
    inv { d with shelf := { d.shelf with lookups, preloads } }

theorem Stocked.undisturbed (ht : Enduring inv) : Undisturbed d₀ (Stocked d₀ inv) where
  chunks _ hd := hd.chunks
  turn _ hd := ⟨hd.chunks.withWorld _, ht _ hd.world⟩
  asked _ _ _ hd := ⟨⟨hd.chunks.files, hd.chunks.shelf⟩, hd.world⟩

theorem Stocked.inWorld {x : ExceptT ε (StateM World) α} (hx : Keeps inv x post) :
    Keeps (Stocked d₀ inv) (ExceptT.mk (Depot.inWorld x.run)) post := by
  intro d hd
  obtain ⟨hinv, hpost⟩ := hx d.world hd.world
  exact ⟨⟨hd.chunks.withWorld _, hinv⟩, hpost⟩

end Depot

theorem Cache.Sound.inDepot {cache : Cache (StateM World)} {keys : Set Text}
    {fits : Text → Text → Prop} {inv : World → Prop} (h : cache.Sound keys fits inv) (d₀ : Depot) :
    cache.inDepot.Sound keys fits (Depot.Stocked d₀ inv) where
  get key hkey := Depot.Stocked.inWorld (h.get key hkey)
  set key hkey value ttl _ hfits := Depot.Stocked.inWorld (h.set key hkey value ttl _ hfits)
  invalidate tags := Depot.Stocked.inWorld (h.invalidate tags)

namespace Depot

theorem runOn_read (here : List Text) (path : Path) (d : Depot) :
    (runOn ((disk here).read path) d).2 =
        { d with world := (World.nextTurn.run d.world).2 } ∧
      ((runOn ((disk here).read path) d).1 = d.files.read here path ∨
        ∃ reason, (runOn ((disk here).read path) d).1 = .error (.other reason)) := by
  rcases d with ⟨⟨memory, tree, now, turns⟩, files, shelf⟩
  cases turns with
  | nil => exact ⟨rfl, .inl rfl⟩
  | cons turn turns =>
    obtain ⟨now', fate⟩ := turn
    cases fate with
    | works => exact ⟨rfl, .inl rfl⟩
    | fails reason => exact ⟨rfl, .inr ⟨reason, rfl⟩⟩
    | failsLate reason =>
      have hrun : runOn ((disk here).read path)
          ⟨⟨memory, tree, now, ⟨now', .failsLate reason⟩ :: turns⟩, files, shelf⟩ =
          runOn (do
            let _ ← (ExceptT.mk fun d => (files.read here path, d) :
              ExceptT FileError (StateM Depot) Bytes)
            throw (.other reason)) ⟨⟨memory, tree, now', turns⟩, files, shelf⟩ := rfl
      rw [hrun]
      dsimp only
      cases files.read here path with
      | error e => exact ⟨rfl, .inl rfl⟩
      | ok bytes => exact ⟨rfl, .inr ⟨reason, rfl⟩⟩

end Depot

namespace ChunkDirectory

variable {inv : Depot → Prop} {d₀ : Depot} {here : List Text}

theorem answer_files {directory : Path} {extension : Text} (preload : List Text) (d : Depot)
    (key : Text) : (Place.files here directory extension).answer preload d key =
      answerIn { directory, extension } d.files here key := by
  have hstore : (Place.files here directory extension).answer preload d key =
      (runOn (find { directory, extension } (Depot.disk here) key) d.calm).1 := rfl
  rw [hstore, answerIn]
  cases hpath : path? { directory, extension } key with
  | none =>
    simp only [find, hpath]
    rfl
  | some path =>
    rw [runOn_find hpath, Host.runOn_readText]
    rfl

theorem find_keeps (hi : Depot.Undisturbed d₀ inv) (c : ChunkDirectory) (key : Text) :
    Keeps inv (c.find (Depot.disk here) key) fun template =>
      c.answerIn d₀.files here key = .ok template := by
  intro d hd
  rw [answerIn]
  cases hpath : c.path? key with
  | none =>
    simp only [find, hpath]
    refine ⟨hd, fun template h => ?_⟩
    cases h
    rfl
  | some path =>
    rw [runOn_find hpath, Host.runOn_readText]
    obtain ⟨hafter, hread⟩ := Depot.runOn_read here path d
    rw [hafter]
    refine ⟨hi.turn d hd, fun template h => ?_⟩
    rcases hread with hread | ⟨reason, hread⟩
    · rw [hread, (hi.chunks d hd).files] at h
      exact h
    · rw [hread] at h
      cases h

theorem findAll_keeps (hi : Depot.Undisturbed d₀ inv) (c : ChunkDirectory) (keys : List Text) :
    Keeps inv (c.findAll (Depot.disk here) keys) fun found =>
      ∀ p ∈ found, c.answerIn d₀.files here p.1 = .ok (some p.2) := by
  induction keys with
  | nil => exact Keeps.pure (by simp)
  | cons key keys ih =>
    rw [findAll]
    refine Keeps.bind (find_keeps hi c key) fun template htemplate => ?_
    cases template with
    | none => exact ih
    | some t =>
      refine Keeps.bind ih fun found hfound => Keeps.pure ?_
      intro p hp
      rcases List.mem_cons.1 hp with rfl | hp
      · exact htemplate
      · exact hfound p hp

end ChunkDirectory

namespace MemoryStore

variable {inv : Depot → Prop} {d₀ : Depot}

theorem answer_memory (preload : List Text) (d : Depot) (key : Text) :
    Place.memory.answer preload d key = .ok (d.chunk? key) := rfl

theorem find_keeps (hi : Depot.Undisturbed d₀ inv) (key : Text) :
    Keeps inv ((asStore : ChunkStore (StateM Depot)).find key) fun template =>
      d₀.chunk? key = template := by
  intro d hd
  have hrun : runOn ((asStore : ChunkStore (StateM Depot)).find key) d =
      ((d.shelf.find key).1, { d with shelf := (d.shelf.find key).2 }) := rfl
  rw [hrun]
  refine ⟨hi.asked d _ d.shelf.preloads hd, fun template h => ?_⟩
  have hfound : (if d.shelf.failing then .error outage else .ok (d.chunk? key)) =
      Except.ok template := h
  split_ifs at hfound
  cases hfound
  exact ((hi.chunks d hd).shelf key).symm

theorem mem_preloaded {s : MemoryStore} {key template : Text} (h : (key, template) ∈ s.preloaded) :
    s.chunks.get? key = some (template, true) := by
  obtain ⟨⟨k, t, first⟩, hmem, hfirst⟩ := List.mem_filterMap.1 h
  rw [Table.get?_eq_some_iff]
  have hentry : (k, t, first) ∈ s.chunks.entries := (List.mergeSort_perm _ _).mem_iff.1 hmem
  cases first with
  | false => simp at hfirst
  | true =>
    obtain ⟨rfl, rfl⟩ : k = key ∧ t = template := by simpa using hfirst
    exact hentry

theorem findPreloaded_keeps (hi : Depot.Undisturbed d₀ inv) :
    Keeps inv (asStore : ChunkStore (StateM Depot)).findPreloaded fun found =>
      ∀ p ∈ found, d₀.chunk? p.1 = some p.2 := by
  intro d hd
  have hrun : runOn (asStore : ChunkStore (StateM Depot)).findPreloaded d =
      (d.shelf.findPreloaded.1, { d with shelf := d.shelf.findPreloaded.2 }) := rfl
  rw [hrun]
  refine ⟨hi.asked d d.shelf.lookups _ hd, fun found h => ?_⟩
  have hfound : (if d.shelf.failing then .error outage else .ok d.shelf.preloaded) =
      Except.ok found := h
  split_ifs at hfound
  cases hfound
  intro p hp
  rw [← (hi.chunks d hd).shelf, Depot.chunk?, mem_preloaded hp]
  rfl

end MemoryStore

namespace Place

variable {inv : Depot → Prop} {d₀ : Depot}

theorem has_iff (place : Place) {key : Text} {template : Option Text} :
    place.Has d₀ key template ↔ place.answer [] d₀ key = .ok template := by
  constructor
  · exact fun h => h [] d₀ (.refl d₀)
  · intro h preload d hd
    cases place with
    | files here directory extension =>
      rw [ChunkDirectory.answer_files] at h ⊢
      rw [hd.files, h]
    | memory =>
      rw [MemoryStore.answer_memory] at h ⊢
      rw [hd.shelf, h]

theorem find_keeps (place : Place) (hi : Depot.Undisturbed d₀ inv) (preload : List Text)
    (key : Text) : Keeps inv ((place.store preload).find key) (place.Has d₀ key) := by
  cases place with
  | files here directory extension =>
    refine Keeps.mono (ChunkDirectory.find_keeps hi _ key) fun template h => ?_
    rw [has_iff, ChunkDirectory.answer_files]
    exact h
  | memory =>
    refine Keeps.mono (MemoryStore.find_keeps hi key) fun template h => ?_
    rw [has_iff, MemoryStore.answer_memory, h]

theorem findPreloaded_keeps (place : Place) (hi : Depot.Undisturbed d₀ inv) (preload : List Text) :
    Keeps inv (place.store preload).findPreloaded fun found =>
      ∀ p ∈ found, place.Has d₀ p.1 (some p.2) := by
  cases place with
  | files here directory extension =>
    refine Keeps.mono (ChunkDirectory.findAll_keeps hi _ preload) fun found h p hp => ?_
    rw [has_iff, ChunkDirectory.answer_files]
    exact h p hp
  | memory =>
    refine Keeps.mono (MemoryStore.findPreloaded_keeps hi) fun found h p hp => ?_
    rw [has_iff, MemoryStore.answer_memory, h p hp]

def HasAll (place : Place) (d₀ : Depot) (table : Table Text Text) : Prop :=
  ∀ key template, table.get? key = some template → place.Has d₀ key (some template)

theorem preloadedTable_keeps (place : Place) (hi : Depot.Undisturbed d₀ inv) (preload : List Text) :
    Keeps inv (Table.ofList <$> (place.store preload).findPreloaded)
      (place.HasAll d₀) := by
  refine Keeps.map (place.findPreloaded_keeps hi preload) fun found h key template hkey => ?_
  rw [Table.get?_ofList] at hkey
  exact h (key, template) (List.mem_reverse.1 (Table.mem_of_lookup hkey))

end Place
end ContentWeave
