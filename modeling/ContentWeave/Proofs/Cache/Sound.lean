import ContentWeave.Proofs.Files.Names
import ContentWeave.Proofs.Session.Basic
import ContentWeave.Proofs.Table
import Mathlib.Data.Set.Function

/-!
# Caches answer with what was stored

What a backend holds under a key is the text of its entry there, whether the entry still counts or
not. A cache is sound for a relation between keys and texts if it answers only with texts that fit
their keys as long as only such texts are stored. Both backends are, whatever fails and whenever
entries end or are invalidated, provided that keys that differ have files that differ.
-/

namespace ContentWeave

section Files

variable {σ α : Type}

theorem Host.runOn_readText (host : Host (StateM σ)) (path : Path) (s : σ) :
    runOn (host.readText path) s =
      ((runOn (host.read path) s).1 >>= Host.decode, (runOn (host.read path) s).2) := by
  rw [Host.readText, runOn_bind]
  rcases runOn (host.read path) s with ⟨r, s'⟩
  cases r <;> rfl

namespace DirectoryCache

def foundOf : Except FileError α → Except CacheError (Option α)
  | .ok a => .ok (some a)
  | .error .notFound => .ok none
  | .error e => .error (.io e)

theorem runOn_attempt (x : ExceptT FileError (StateM σ) α) (s : σ) :
    runOn (attempt x) s = ((runOn x s).1.mapError CacheError.io, (runOn x s).2) := rfl

theorem runOn_ifFound (x : ExceptT FileError (StateM σ) α) (s : σ) :
    runOn (ifFound x) s = (foundOf (runOn x s).1, (runOn x s).2) := by
  have hrun : runOn (ifFound x) s = runOn (ifFound (ExceptT.mk fun _ => runOn x s)) s := rfl
  rw [hrun]
  rcases runOn x s with ⟨r, s'⟩
  cases r with
  | ok a => rfl
  | error e => cases e <;> rfl

theorem eq_ok_of_foundOf {r : Except FileError α} {a : α} (h : foundOf r = .ok (some a)) :
    r = .ok a := by
  cases r with
  | ok b =>
    cases h
    rfl
  | error e => cases e <;> cases h

end DirectoryCache

end Files

namespace Keeps

variable {σ ε α β : Type} {inv : σ → Prop} {post : α → Prop}

theorem mapM {f : β → ExceptT ε (StateM σ) α} (hf : ∀ b, Keeps inv (f b) fun _ => True)
    (bs : List β) : Keeps inv (bs.mapM f) fun _ => True := by
  induction bs with
  | nil =>
    rw [List.mapM_nil]
    exact Keeps.pure trivial
  | cons b bs ih =>
    rw [List.mapM_cons]
    refine Keeps.bind (hf b) fun a _ => Keeps.bind ih fun as _ => ?_
    exact Keeps.pure trivial

theorem lift {x : StateM σ α} (hx : ∀ s, (x.run s).2 = s) :
    Keeps inv (liftM x : ExceptT ε (StateM σ) α) fun _ => True := by
  intro s hs
  have hstate : (runOn (liftM x : ExceptT ε (StateM σ) α) s).2 = s := hx s
  rw [hstate]
  exact ⟨hs, fun _ _ => trivial⟩

theorem attempt {x : ExceptT FileError (StateM σ) α} (hx : Keeps inv x post) :
    Keeps inv (DirectoryCache.attempt x) post := by
  intro s hs
  obtain ⟨hi, hp⟩ := hx s hs
  rw [DirectoryCache.runOn_attempt]
  refine ⟨hi, fun a ha => hp a ?_⟩
  cases hr : (runOn x s).1 with
  | error e => simp [hr, Except.mapError] at ha
  | ok b => simpa [hr, Except.mapError] using ha

theorem ifFound {x : ExceptT FileError (StateM σ) α} (hx : Keeps inv x post) :
    Keeps inv (DirectoryCache.ifFound x) fun found => ∀ a ∈ found, post a := by
  intro s hs
  obtain ⟨hi, hp⟩ := hx s hs
  rw [DirectoryCache.runOn_ifFound]
  refine ⟨hi, fun found hfound a ha => ?_⟩
  obtain rfl : found = some a := ha
  exact hp a (DirectoryCache.eq_ok_of_foundOf hfound)

end Keeps

section Exposed

variable {ε α : Type} {lost : Text → ε} {inv : World → Prop} {post : α → Prop}

/-- An invariant that no turn of the world ends. -/
def Enduring (inv : World → Prop) : Prop := ∀ w, inv w → inv (World.nextTurn.run w).2

theorem World.exists_of_nextTurn (w : World) :
    ∃ now turns, (World.nextTurn.run w).2 = { w with now, turns } := by
  rcases w with ⟨memory, tree, now, turns⟩
  cases turns with
  | nil => exact ⟨now, [], rfl⟩
  | cons turn turns => exact ⟨turn.now, turns, rfl⟩

theorem Keeps.exposed {x : ExceptT ε (StateM World) α} (ht : Enduring inv) (hx : Keeps inv x post) :
    Keeps inv (exposed lost x) post := by
  intro w hw
  have hturn : Keeps inv (liftM World.nextTurn : ExceptT ε (StateM World) Fate) fun _ => True :=
    fun v hv => ⟨ht v hv, fun _ _ => trivial⟩
  refine Keeps.bind hturn (fun fate _ => ?_) w hw
  cases fate with
  | works => exact hx
  | fails reason => exact Keeps.throw _
  | failsLate reason => exact Keeps.bind hx fun _ _ => Keeps.throw _

end Exposed

namespace Shelf

variable {inv : World → Prop} {shelf : Shelf}

theorem find_keeps (ht : Enduring inv) (key : Text) :
    Keeps inv (shelf.exposed.find key) fun template => shelf.find key = .ok template := by
  refine Keeps.exposed ht fun w hw => ⟨hw, fun template h => ?_⟩
  exact h

theorem preloadedTable_keeps (shelf : Shelf) (ht : Enduring inv) :
    Keeps inv (Table.ofList <$> shelf.exposed.findPreloaded) fun table =>
      ∃ templates, shelf.preloaded = .ok templates ∧ table = Table.ofList templates := by
  have hasked : Keeps inv shelf.exposed.findPreloaded fun templates =>
      shelf.preloaded = .ok templates := by
    refine Keeps.exposed ht fun w hw => ⟨hw, fun templates h => ?_⟩
    exact h
  exact Keeps.map hasked fun templates hp => ⟨templates, hp, rfl⟩

end Shelf

/-- `cache` answers to `keys` with texts that fit, and keeps `inv`, as long as what is stored
fits. -/
structure Cache.Sound {σ : Type} (cache : Cache (StateM σ)) (keys : Set Text)
    (fits : Text → Text → Prop) (inv : σ → Prop) : Prop where
  get : ∀ key ∈ keys, Keeps inv (cache.get key) fun found => ∀ value ∈ found, fits key value
  set : ∀ key ∈ keys, ∀ value ttl dependency, fits key value →
    Keeps inv (cache.set key value ttl dependency) fun _ => True
  invalidate : ∀ tags, Keeps inv (cache.invalidate tags) fun _ => True

theorem Cache.Sound.never {σ : Type} {keys : Set Text} {fits : Text → Text → Prop}
    {inv : σ → Prop} : (Cache.never : Cache (StateM σ)).Sound keys fits inv where
  get _ _ := Keeps.pure (by simp)
  set _ _ _ _ _ _ := Keeps.pure trivial
  invalidate _ := Keeps.pure trivial

theorem Cache.Sound.exposed {cache : Cache (StateM World)} {keys : Set Text}
    {fits : Text → Text → Prop} {inv : World → Prop} (ht : Enduring inv)
    (h : cache.Sound keys fits inv) : cache.exposed.Sound keys fits inv where
  get key hkey := Keeps.exposed ht (h.get key hkey)
  set key hkey value ttl _ hfits := Keeps.exposed ht (h.set key hkey value ttl _ hfits)
  invalidate tags := Keeps.exposed ht (h.invalidate tags)

namespace Backend

def entryNames (here : List Text) (root : Path) (key : Text) : List Text :=
  Path.namesFrom here root ++ ["entries".toList, Digest.nameOf key]

def textOf? : FileNode → Option Text
  | .directory => none
  | .file content => (CacheEntry.decode? content).bind fun e => Text.ofUtf8? e.value

/-- The text that a backend holds under a key, whether it still counts or not. -/
def kept? (backend : Backend) (w : World) (key : Text) : Option Text :=
  match backend with
  | memory => (w.memory.entries.get? key).map (·.value)
  | directory here root => (w.tree.node? (entryNames here root key)).bind textOf?

def Holds (backend : Backend) (keys : Set Text) (fits : Text → Text → Prop) (w : World) : Prop :=
  ∀ key ∈ keys, ∀ value, backend.kept? w key = some value → fits key value

def IsEmpty (backend : Backend) (w : World) : Prop := ∀ key, backend.kept? w key = none

def Separates (backend : Backend) (keys : Set Text) : Prop :=
  match backend with
  | memory => True
  | directory _ _ => Set.InjOn Digest.nameOf keys

variable {keys : Set Text} {fits : Text → Text → Prop}

theorem IsEmpty.holds {backend : Backend} {w : World} (h : backend.IsEmpty w) :
    backend.Holds keys fits w := by
  intro key _ value hv
  rw [h key] at hv
  cases hv

theorem Holds.mono {backend : Backend} {w : World} {fits' : Text → Text → Prop}
    (h : backend.Holds keys fits w) (hf : ∀ key ∈ keys, ∀ value, fits key value → fits' key value) :
    backend.Holds keys fits' w :=
  fun key hkey value hv => hf key hkey value (h key hkey value hv)

theorem enduring_holds (backend : Backend) : Enduring (backend.Holds keys fits) := by
  intro w h
  obtain ⟨now, turns, hnext⟩ := w.exists_of_nextTurn
  rw [hnext]
  cases backend with
  | memory => exact h
  | directory here root => exact h

end Backend

namespace MemoryCache

variable {c : MemoryCache} {now : ℕ} {key j : Text} {e : MemoryEntry}

theorem entry_of_get_entry (h : (c.get now key).2.entries.get? j = some e) :
    c.entries.get? j = some e := by
  unfold get at h
  split at h
  · exact h
  · split_ifs at h
    · exact h
    · rw [Table.get?_erase] at h
      split_ifs at h
      exact h

theorem entry_of_get {value : Text} (h : (c.get now key).1 = some value) :
    ∃ e, c.entries.get? key = some e ∧ e.value = value := by
  unfold get at h
  split at h
  · cases h
  · rename_i e he
    split_ifs at h
    cases h
    exact ⟨e, he, rfl⟩

theorem entry_of_set_entry {value : Text} {ttl : ℕ} {dependency : Dependency}
    (h : (c.set now key value ttl dependency).entries.get? j = some e) :
    j = key ∧ e.value = value ∨ c.entries.get? j = some e := by
  simp only [set, Table.get?_insert] at h
  by_cases hj : j = key
  · rw [if_pos hj] at h
    cases h
    exact .inl ⟨hj, rfl⟩
  · rw [if_neg hj] at h
    exact .inr ((Table.get?_filter_eq_some_iff _ _ _ _).1 h).1

@[simp] theorem entries_invalidate (c : MemoryCache) (tags : List Text) :
    (c.invalidate tags).entries = c.entries := by
  induction tags generalizing c with
  | nil => rfl
  | cons tag tags ih => exact ih _

theorem sound (keys : Set Text) (fits : Text → Text → Prop) :
    (asCache World.clock : Cache (StateM World)).Sound keys fits
      (Backend.memory.Holds keys fits) where
  get key hkey := by
    intro w hw
    have hrun : runOn ((asCache World.clock : Cache (StateM World)).get key) w =
        (.ok (w.memory.get w.now key).1, { w with memory := (w.memory.get w.now key).2 }) := rfl
    rw [hrun]
    constructor
    · intro j hj value hv
      obtain ⟨e, he, rfl⟩ := Option.map_eq_some_iff.1 hv
      exact hw j hj _ (Option.map_eq_some_iff.2 ⟨e, entry_of_get_entry he, rfl⟩)
    · intro found hfound value hv
      cases hfound
      obtain ⟨e, he, rfl⟩ := entry_of_get hv
      exact hw key hkey _ (Option.map_eq_some_iff.2 ⟨e, he, rfl⟩)
  set key hkey value ttl dependency hfits := by
    intro w hw
    have hrun : runOn ((asCache World.clock : Cache (StateM World)).set key value ttl dependency) w =
        (.ok (), { w with memory := w.memory.set w.now key value ttl dependency }) := rfl
    rw [hrun]
    refine ⟨fun j hj v hv => ?_, fun _ _ => trivial⟩
    obtain ⟨e, he, rfl⟩ := Option.map_eq_some_iff.1 hv
    rcases entry_of_set_entry he with ⟨rfl, hvalue⟩ | he
    · rw [hvalue]
      exact hfits
    · exact hw j hj _ (Option.map_eq_some_iff.2 ⟨e, he, rfl⟩)
  invalidate tags := by
    intro w hw
    have hrun : runOn ((asCache World.clock : Cache (StateM World)).invalidate tags) w =
        (.ok (), { w with memory := w.memory.invalidate tags }) := rfl
    rw [hrun]
    refine ⟨fun j hj v hv => hw j hj v ?_, fun _ _ => trivial⟩
    simpa [Backend.kept?] using hv

end MemoryCache
end ContentWeave
