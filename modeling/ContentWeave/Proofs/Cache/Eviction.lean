import ContentWeave.Proofs.Cache.Versions

/-!
# Outdated entries might as well be gone

Taking entries away leaves a cache that can be used. Two caches of which one lacks entries that are
outdated in the other answer every question alike, and stay so when something is stored in both.
-/

namespace ContentWeave

namespace MemoryCache

variable {c c' : MemoryCache} {tag : Text}

def Stale (c : MemoryCache) (e : MemoryEntry) : Prop :=
  ∃ tag version, (tag, version) ∈ e.tags ∧ c.version tag ≠ version

/-- `c'` lacks nothing that `c` has, but stale entries. -/
structure Sheds (c c' : MemoryCache) : Prop where
  versions : c'.versions = c.versions
  entries : ∀ key, c'.entries.get? key = c.entries.get? key ∨
    c'.entries.get? key = none ∧ ∀ e, c.entries.get? key = some e → c.Stale e

theorem Stale.not_isFresh {e : MemoryEntry} (h : c.Stale e) (now : ℕ) : c.isFresh now e = false := by
  obtain ⟨tag, version, hmem, hne⟩ := h
  rw [Bool.eq_false_iff]
  exact fun hfresh => hne ((isFresh_iff.1 hfresh).2 tag version hmem)

theorem Sheds.version (h : Sheds c c') (tag : Text) : c'.version tag = c.version tag := by
  rw [MemoryCache.version, h.versions]
  rfl

theorem Sheds.isFresh (h : Sheds c c') (now : ℕ) (e : MemoryEntry) :
    c'.isFresh now e = c.isFresh now e := by
  simp only [MemoryCache.isFresh, h.version]

theorem Sheds.filter_isFresh (h : Sheds c c') (now : ℕ) (key : Text) :
    (c'.entries.get? key).filter (c'.isFresh now) = (c.entries.get? key).filter (c.isFresh now) := by
  have hfresh : c'.isFresh now = c.isFresh now := funext (h.isFresh now)
  rcases h.entries key with heq | ⟨hnone, hstale⟩
  · rw [heq, hfresh]
  · rw [hnone, Option.filter_none]
    cases he : c.entries.get? key with
    | none => rfl
    | some e => rw [Option.filter_some, (hstale e he).not_isFresh now, if_neg Bool.false_ne_true]

theorem Sheds.get_fst (h : Sheds c c') (now : ℕ) (key : Text) :
    (c'.get now key).1 = (c.get now key).1 := by
  rw [get_eq_holds?, get_eq_holds?, holds?, holds?, h.filter_isFresh]

theorem entries_get (c : MemoryCache) (now : ℕ) (key j : Text) :
    (c.get now key).2.entries.get? j =
      if j = key then (c.entries.get? j).filter (c.isFresh now) else c.entries.get? j := by
  unfold MemoryCache.get
  split
  · rename_i hnone
    split_ifs with hj
    · rw [hj, hnone]
      rfl
    · rfl
  · rename_i e he
    split_ifs with hfresh hj hj
    · rw [hj, he, Option.filter_some, if_pos hfresh]
    · rfl
    · rw [Table.get?_erase, if_pos hj, hj, he, Option.filter_some, if_neg hfresh]
    · rw [Table.get?_erase, if_neg hj]

theorem Sheds.get_snd (h : Sheds c c') (now : ℕ) (key : Text) :
    Sheds (c.get now key).2 (c'.get now key).2 where
  versions := by
    have hkept : ∀ c : MemoryCache, (c.get now key).2.versions = c.versions := by
      intro c
      unfold MemoryCache.get
      split
      · rfl
      · split_ifs <;> rfl
    rw [hkept, hkept, h.versions]
  entries j := by
    rw [entries_get, entries_get]
    split_ifs with hj
    · exact .inl (h.filter_isFresh now j)
    · refine (h.entries j).imp_right (And.imp_right fun hstale e he => ?_)
      obtain ⟨tag, version, hmem, hne⟩ := hstale e he
      exact ⟨tag, version, hmem, version_get c now key tag ▸ hne⟩

theorem Sheds.set (h : Sheds c c') (now : ℕ) (key value : Text) (ttl : ℕ)
    (dependency : Dependency) :
    Sheds (c.set now key value ttl dependency) (c'.set now key value ttl dependency) where
  versions := h.versions
  entries j := by
    have hmade : c'.made now value ttl dependency = c.made now value ttl dependency := by
      simp only [made, h.version]
    rw [get?_set, get?_set, hmade, h.filter_isFresh]
    exact .inl rfl

end MemoryCache

namespace DirectoryCache

variable {t t' : FileTree} {here : List Text} {root : Path} {key tag : Text}

structure Sheds (here : List Text) (root : Path) (t t' : FileTree) : Prop where
  installed : Installed t here root
  installed' : Installed t' here root
  numbered : Numbered t here root
  tags : ∀ tag, fileIn t' here root .tags tag = fileIn t here root .tags tag
  entries : ∀ key, fileIn t' here root .entries key = fileIn t here root .entries key ∨
    fileIn t' here root .entries key = none ∧ held? t here root key = none

namespace Sheds

variable (h : Sheds here root t t')

include h

theorem versionIn (tag : Text) :
    DirectoryCache.versionIn t' here root tag = DirectoryCache.versionIn t here root tag := by
  rw [DirectoryCache.versionIn, h.tags]
  rfl

theorem numbered' : Numbered t' here root := by
  intro tag content hcontent
  rw [h.tags] at hcontent
  exact h.numbered tag content hcontent

theorem held? (key : Text) :
    DirectoryCache.held? t' here root key = DirectoryCache.held? t here root key := by
  have hcurrent : ∀ recorded, isCurrent t' here root recorded = isCurrent t here root recorded := by
    intro recorded
    simp only [isCurrent, h.versionIn]
  rcases h.entries key with heq | ⟨hmissing, hnone⟩
  · simp only [DirectoryCache.held?, hcurrent, entryIn?, heq]
  · rw [hnone, DirectoryCache.held?, entryIn?, hmissing]
    rfl

theorem get (now : ℕ) (key : Text) : ∃ found,
    runOn ((unfailing here root now).get key) t = (.ok found, t) ∧
      runOn ((unfailing here root now).get key) t' = (.ok found, t') := by
  obtain ⟨found, hrun, hfound⟩ := runOn_get now h.installed h.numbered key
  obtain ⟨found', hrun', hfound'⟩ := runOn_get now h.installed' h.numbered' key
  have hsame : found' = found := by
    refine Option.ext fun value => ?_
    rw [hfound, hfound', h.held?]
  exact ⟨found, hrun, hsame ▸ hrun'⟩

theorem putIn (key : Text) (content : Bytes) :
    Sheds here root (putIn t here root .entries key content)
      (DirectoryCache.putIn t' here root .entries key content) where
  installed := h.installed.putIn .entries key content
  installed' := h.installed'.putIn .entries key content
  numbered := h.numbered.put_entry key content
  tags tag := by
    rw [fileIn_putIn, fileIn_putIn, if_neg (by simp), if_neg (by simp), h.tags]
  entries j := by
    rw [fileIn_putIn, fileIn_putIn]
    by_cases hname : Digest.nameOf j = Digest.nameOf key
    · rw [if_pos ⟨rfl, hname⟩, if_pos ⟨rfl, hname⟩]
      exact .inl rfl
    · rw [if_neg (by simp [hname]), if_neg (by simp [hname])]
      rw [held?_put_entry_of_ne hname]
      exact h.entries j

theorem set (now : ℕ) (key value : Text) (ttl : ℕ) (dependency : Dependency) :
    ∃ r t₁ t₁', runOn ((unfailing here root now).set key value ttl dependency) t = (r, t₁) ∧
      runOn ((unfailing here root now).set key value ttl dependency) t' = (r, t₁') ∧
      Sheds here root t₁ t₁' := by
  have hentry : ∀ s, entryFor t' here root s = entryFor t here root s := by
    intro s
    simp only [entryFor, h.versionIn]
  rw [runOn_set h.installed h.numbered, runOn_set h.installed' h.numbered', hentry]
  dsimp only
  split_ifs with hlong
  · exact ⟨_, t, t', rfl, rfl, h⟩
  · exact ⟨_, _, _, rfl, rfl, h.putIn key _⟩

end Sheds

def without (t : FileTree) (files : List (List Text)) : FileTree :=
  ⟨t.nodes.filter fun names _ => !files.contains names⟩

theorem node?_without {files : List (List Text)} (hnil : [] ∉ files) (names : List Text) :
    (without t files).node? names = if names ∈ files then none else t.node? names := by
  by_cases hn : names = []
  · subst hn
    rw [if_neg hnil]
    rfl
  · have hlookup := Table.lookup_filter_key t.nodes.entries (fun names => !files.contains names) names
    simp only [FileTree.node?, hn, if_false, without, Table.get?, Table.filter, hlookup]
    by_cases hf : names ∈ files <;> simp [hf]

def evict (t : FileTree) (here : List Text) (root : Path) (keys : List Text) : FileTree :=
  without t (keys.map fun key => Drawer.entries.names here root ++ [Digest.nameOf key])

theorem node?_evict (keys names : List Text) : (evict t here root keys).node? names =
    if ∃ key ∈ keys, names = Drawer.entries.names here root ++ [Digest.nameOf key] then none
    else t.node? names := by
  rw [evict, node?_without (by simp)]
  simp only [List.mem_map, eq_comm]

theorem fileIn_evict (t : FileTree) (here : List Text) (root : Path) (keys : List Text)
    (drawer : Drawer) (s : Text) :
    fileIn (evict t here root keys) here root drawer s =
      if drawer = .entries ∧ ∃ key ∈ keys, Digest.nameOf s = Digest.nameOf key then none
      else fileIn t here root drawer s := by
  have hfile : (∃ key ∈ keys, drawer.names here root ++ [Digest.nameOf s] =
      Drawer.entries.names here root ++ [Digest.nameOf key]) ↔
        drawer = .entries ∧ ∃ key ∈ keys, Digest.nameOf s = Digest.nameOf key := by
    constructor
    · rintro ⟨key, hkey, heq⟩
      obtain ⟨hdrawer, hname⟩ := Drawer.file_injective heq
      exact ⟨hdrawer, key, hkey, hname⟩
    · rintro ⟨rfl, key, hkey, hname⟩
      exact ⟨key, hkey, by rw [hname]⟩
  rw [fileIn, FileTree.content?, node?_evict]
  simp only [hfile]
  split_ifs with h
  · rfl
  · rfl

theorem Installed.evict (h : Installed t here root) (keys : List Text) :
    Installed (evict t here root keys) here root where
  length := h.length
  stands := h.stands.more fun names hn => by
    rw [node?_evict, if_neg]
    · exact hn
    · rintro ⟨key, -, rfl⟩
      exact (h.tidy .entries).files _ hn
  tidy drawer := by
    have hdrawer : (DirectoryCache.evict t here root keys).node? (drawer.names here root) =
        t.node? (drawer.names here root) := by
      rw [node?_evict, if_neg]
      rintro ⟨key, -, heq⟩
      have hlength := congrArg List.length heq
      simp [Drawer.names] at hlength
    have hfile : ∀ name, (DirectoryCache.evict t here root keys).node?
        (drawer.names here root ++ [name]) = none ∨
          (DirectoryCache.evict t here root keys).node? (drawer.names here root ++ [name]) =
            t.node? (drawer.names here root ++ [name]) := by
      intro name
      rw [node?_evict]
      split_ifs
      · exact .inl rfl
      · exact .inr rfl
    refine ⟨fun content => hdrawer ▸ (h.tidy drawer).not_file content, fun name hn => ?_,
      fun hnone name => ?_⟩
    · rcases hfile name with hgone | hsame
      · rw [hgone] at hn
        cases hn
      · exact (h.tidy drawer).files name (hsame ▸ hn)
    · rcases hfile name with hgone | hsame
      · exact hgone
      · exact hsame.trans ((h.tidy drawer).nothing (hdrawer ▸ hnone) name)

end DirectoryCache

namespace Backend

def evict (backend : Backend) (keys : List Text) (w : World) : World :=
  match backend with
  | memory =>
    { w with memory := { w.memory with
        entries := w.memory.entries.filter fun key _ => !keys.contains key } }
  | directory here root => { w with tree := DirectoryCache.evict w.tree here root keys }

def Sheds (backend : Backend) (w w' : World) : Prop :=
  match backend with
  | memory => MemoryCache.Sheds w.memory w'.memory
  | directory here root => DirectoryCache.Sheds here root w.tree w'.tree

/-- Worlds with the same turns to come, and caches of which one may lack outdated entries. -/
structure Leaner (backend : Backend) (w w' : World) : Prop where
  now : w'.now = w.now
  turns : w'.turns = w.turns
  sheds : backend.Sheds w w'

variable {backend : Backend} {w w' : World} {room : ℕ}

theorem Leaner.nextTurn (h : backend.Leaner w w') :
    (World.nextTurn.run w).1 = (World.nextTurn.run w').1 ∧
      backend.Leaner (World.nextTurn.run w).2 (World.nextTurn.run w').2 := by
  rcases w with ⟨memory, tree, now, turns⟩
  rcases w' with ⟨memory', tree', now', turns'⟩
  obtain ⟨rfl, rfl, hsheds⟩ := h
  cases turns' with
  | nil => cases backend <;> exact ⟨rfl, rfl, rfl, hsheds⟩
  | cons turn later => cases backend <;> exact ⟨rfl, rfl, rfl, hsheds⟩

theorem operations_get_uniform (key : Text) :
    Uniform backend.Leaner (backend.operations.get key) := by
  intro w w' h
  cases backend with
  | memory =>
    have hrun : ∀ w : World, runOn (memory.operations.get key) w =
        (.ok (w.memory.get w.now key).1, { w with memory := (w.memory.get w.now key).2 }) :=
      fun _ => rfl
    rw [hrun, hrun, h.now]
    have hsheds : MemoryCache.Sheds w.memory w'.memory := h.sheds
    exact ⟨congrArg Except.ok (hsheds.get_fst w.now key).symm, rfl, h.turns, hsheds.get_snd w.now key⟩
  | directory here root =>
    have hsheds : DirectoryCache.Sheds here root w.tree w'.tree := h.sheds
    obtain ⟨found, hrun, hrun'⟩ := hsheds.get w.now key
    rw [directory_get, directory_get, h.now, hrun, hrun']
    exact ⟨rfl, rfl, h.turns, hsheds⟩

theorem operations_set_uniform (key value : Text) (ttl : ℕ) (dependency : Dependency) :
    Uniform backend.Leaner (backend.operations.set key value ttl dependency) := by
  intro w w' h
  cases backend with
  | memory =>
    have hrun : ∀ w : World, runOn (memory.operations.set key value ttl dependency) w =
        (.ok (), { w with memory := w.memory.set w.now key value ttl dependency }) := fun _ => rfl
    rw [hrun, hrun, h.now]
    have hsheds : MemoryCache.Sheds w.memory w'.memory := h.sheds
    exact ⟨rfl, rfl, h.turns, hsheds.set w.now key value ttl dependency⟩
  | directory here root =>
    have hsheds : DirectoryCache.Sheds here root w.tree w'.tree := h.sheds
    obtain ⟨r, t, t', hrun, hrun', hnext⟩ := hsheds.set w.now key value ttl dependency
    rw [directory_set, directory_set, h.now, hrun, hrun']
    exact ⟨rfl, rfl, h.turns, hnext⟩

theorem steady_get_uniform (key : Text) : Uniform backend.Leaner (backend.steady.get key) :=
  .exposed (fun _ _ h => h.nextTurn) (operations_get_uniform key)

theorem steady_set_uniform (key value : Text) (ttl : ℕ) (dependency : Dependency) :
    Uniform backend.Leaner (backend.steady.set key value ttl dependency) :=
  .exposed (fun _ _ h => h.nextTurn) (operations_set_uniform key value ttl dependency)

theorem Renewed.leaner_evict {guarded : Set Text} {tag : Text} {limit : ℕ} {keys : List Text}
    (h : backend.Renewed room guarded tag limit (fun _ _ => False) w)
    (hkeys : ∀ key ∈ keys, key ∈ guarded) : backend.Leaner w (backend.evict keys w) := by
  have houtdated : ∀ key ∈ keys, ∀ r, backend.record? w key = some r →
      ∃ n < backend.version w tag, (tag, n) ∈ r.tags := by
    intro key hkey r hr
    obtain ⟨n, hn, hmem⟩ := (h.fits_or key (hkeys key hkey) r hr).resolve_left id
    exact ⟨n, Nat.lt_of_lt_of_le hn h.limit_le, hmem⟩
  cases backend with
  | memory =>
    refine ⟨rfl, rfl, rfl, fun key => ?_⟩
    have hlookup := Table.lookup_filter_key w.memory.entries.entries (fun key => !keys.contains key) key
    by_cases hkey : key ∈ keys
    · refine .inr ⟨hlookup.trans (by simp [hkey]), fun e he => ?_⟩
      obtain ⟨n, hn, hmem⟩ := houtdated key hkey ⟨e.value, e.tags⟩ (by simp [record?, he])
      exact ⟨tag, n, hmem, Nat.ne_of_gt hn⟩
    · exact .inl (hlookup.trans (by simp [hkey, Table.get?]))
  | directory here root =>
    have husable : DirectoryCache.Roomy w.tree here root room := h.usable
    refine ⟨rfl, rfl, husable.installed, husable.installed.evict keys, husable.numbered,
      fun s => ?_, fun key => ?_⟩
    · exact (DirectoryCache.fileIn_evict w.tree here root keys .tags s).trans (if_neg (by simp))
    · have hevicted := DirectoryCache.fileIn_evict w.tree here root keys .entries key
      by_cases hgone : ∃ j ∈ keys, Digest.nameOf key = Digest.nameOf j
      · refine .inr ⟨hevicted.trans (if_pos ⟨rfl, hgone⟩), ?_⟩
        obtain ⟨j, hj, hname⟩ := hgone
        cases hheld : DirectoryCache.held? w.tree here root key with
        | none => rfl
        | some holding =>
          obtain ⟨r, hr, -, hcurrent⟩ := DirectoryCache.recordIn?_of_held? hheld
          have hj' := (DirectoryCache.recordIn?_congr hname).symm.trans hr
          obtain ⟨n, hn, hmem⟩ := houtdated j hj r hj'
          exact absurd (hcurrent tag n hmem) (Nat.ne_of_gt hn)
      · exact .inl (hevicted.trans (if_neg fun h => hgone h.2))

end Backend
end ContentWeave
