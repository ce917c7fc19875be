import ContentWeave.Proofs.Cache.Faults
import ContentWeave.Proofs.Cache.Reopening

/-!
# The versions that entries record

An entry records the versions its tags had when it was stored, and an answer comes from an entry
whose records are all current. Said so, both backends have the same law for each operation. Two
invariants follow: all entries of some keys record a tag, and, once that tag has been invalidated,
entries of these keys that do not fit are outdated and answer nobody.
-/

namespace ContentWeave

structure Record where
  value : Text
  tags : List (Text × ℕ)

namespace DirectoryCache

variable {t : FileTree} {here : List Text} {root : Path} {room : ℕ} {key j tag : Text}

def recordIn? (t : FileTree) (here : List Text) (root : Path) (key : Text) : Option Record :=
  (entryIn? t here root key).bind fun e =>
    (Text.ofUtf8? e.value).map fun value => ⟨value, e.tags⟩

/-- An installed cache whose versions can be raised `room` times more. -/
structure Roomy (t : FileTree) (here : List Text) (root : Path) (room : ℕ) : Prop where
  installed : Installed t here root
  numbered : Numbered t here root
  room : ∀ tag, versionIn t here root tag + room ≤ CacheEntry.maxNumber

theorem recordIn?_of_held? {h : Holding} (hheld : held? t here root key = some h) :
    ∃ r, recordIn? t here root key = some r ∧ r.value = h.value ∧
      ∀ tag version, (tag, version) ∈ r.tags → versionIn t here root tag = version := by
  obtain ⟨e, he, hcurrent, hh⟩ := held?_eq_some_iff.1 hheld
  obtain ⟨value, hvalue, rfl⟩ := Option.map_eq_some_iff.1 hh
  exact ⟨⟨value, e.tags⟩, by simp [recordIn?, he, hvalue], rfl, hcurrent⟩

theorem recordIn?_congr (h : Digest.nameOf j = Digest.nameOf key) :
    recordIn? t here root j = recordIn? t here root key := by
  unfold recordIn? entryIn? fileIn
  rw [h]

theorem recordIn?_put_entry_self {s : Deposit} (hn : Numbered t here root) (key : Text)
    (hshort : (CacheEntry.tagBytes (entryFor t here root s).tags).length ≤
      CacheEntry.maxTagsLength) :
    recordIn? (putIn t here root .entries key (entryFor t here root s).encode) here root key =
      some ⟨s.value, s.dependency.tags.map fun tag => (tag, versionIn t here root tag)⟩ := by
  rw [recordIn?, entryIn?_put_entry_self hn key hshort, Option.bind_some, entryFor,
    Text.ofUtf8?_toUtf8]
  rfl

theorem recordIn?_put_entry_of_ne {content : Bytes} (h : Digest.nameOf j ≠ Digest.nameOf key) :
    recordIn? (putIn t here root .entries key content) here root j = recordIn? t here root j := by
  rw [recordIn?, entryIn?_put_entry_of_ne h, recordIn?]

theorem recordIn?_bumpAll (t : FileTree) (here : List Text) (root : Path) (tags : List Text)
    (key : Text) : recordIn? (bumpAll t here root tags) here root key = recordIn? t here root key := by
  rw [recordIn?, entryIn?_bumpAll, recordIn?]

theorem Roomy.put_entry (h : Roomy t here root room) (key : Text) (content : Bytes) :
    Roomy (putIn t here root .entries key content) here root room where
  installed := h.installed.putIn .entries key content
  numbered := h.numbered.put_entry key content
  room := by simpa only [versionIn_put_entry] using h.room

theorem versionIn_congr {tag' : Text} (h : Digest.nameOf tag' = Digest.nameOf tag) :
    versionIn t here root tag' = versionIn t here root tag := by
  unfold versionIn fileIn
  rw [h]

theorem Roomy.versionIn_bump (h : Roomy t here root (room + 1)) (first tag : Text) :
    versionIn (bump t here root first) here root tag = versionIn t here root tag +
      if Digest.nameOf tag = Digest.nameOf first then 1 else 0 := by
  have hroom := h.room first
  rw [DirectoryCache.versionIn_bump]
  by_cases hname : Digest.nameOf tag = Digest.nameOf first
  · rw [if_pos hname, if_pos hname, versionIn_congr hname]
    exact Nat.mod_eq_of_lt (by omega)
  · rw [if_neg hname, if_neg hname, Nat.add_zero]

theorem Roomy.bump (h : Roomy t here root (room + 1)) (first : Text) :
    Roomy (bump t here root first) here root room where
  installed := h.installed.bump first
  numbered := h.numbered.bump first
  room tag := by
    have hroom := h.room tag
    rw [h.versionIn_bump]
    split_ifs <;> omega

theorem Roomy.bumpAll {tags : List Text} (h : Roomy t here root (room + tags.length)) :
    Roomy (bumpAll t here root tags) here root room ∧
      (∀ tag, versionIn t here root tag ≤ versionIn (bumpAll t here root tags) here root tag) ∧
      ∀ tag ∈ tags,
        versionIn t here root tag < versionIn (bumpAll t here root tags) here root tag := by
  induction tags generalizing t with
  | nil => exact ⟨h, fun tag => Nat.le_refl _, by simp⟩
  | cons first tags ih =>
    rw [List.length_cons, ← Nat.add_assoc] at h
    obtain ⟨hroomy, hle, hlt⟩ := ih (h.bump first)
    have hbump := h.versionIn_bump first
    refine ⟨hroomy, fun tag => ?_, fun tag htag => ?_⟩
    · have hrest := hle tag
      rw [hbump] at hrest
      exact Nat.le_trans (Nat.le_add_right _ _) hrest
    · rcases List.mem_cons.1 htag with rfl | htag
      · have hrest := hle tag
        rw [hbump, if_pos rfl] at hrest
        exact hrest
      · have hrest := hlt tag htag
        rw [hbump] at hrest
        exact Nat.lt_of_le_of_lt (Nat.le_add_right _ _) hrest

end DirectoryCache

def World.onTree {ε α : Type} (x : ℕ → ExceptT ε (StateM FileTree) α) :
    ExceptT ε (StateM World) α :=
  ExceptT.mk <| StateT.modifyGet fun w =>
    ((runOn (x w.now) w.tree).1, { w with tree := (runOn (x w.now) w.tree).2 })

namespace Backend

def operations : Backend → Cache (StateM World)
  | memory => MemoryCache.asCache World.clock
  | directory here root =>
    { get := fun key => World.onTree fun now => (DirectoryCache.unfailing here root now).get key
      set := fun key value ttl dependency => World.onTree fun now =>
        (DirectoryCache.unfailing here root now).set key value ttl dependency
      invalidate := fun tags => World.onTree fun now =>
        (DirectoryCache.unfailing here root now).invalidate tags }

/-- A cache whose operations fail as a whole, before they begin or after they are done. -/
def steady (backend : Backend) : Cache (StateM World) := backend.operations.exposed

def record? (backend : Backend) (w : World) (key : Text) : Option Record :=
  match backend with
  | memory => (w.memory.entries.get? key).map fun e => ⟨e.value, e.tags⟩
  | directory here root => DirectoryCache.recordIn? w.tree here root key

def version (backend : Backend) (w : World) (tag : Text) : ℕ :=
  match backend with
  | memory => w.memory.version tag
  | directory here root => DirectoryCache.versionIn w.tree here root tag

/-- A cache that can be used, and in which as many as `room` tags more can be invalidated. -/
def Usable (backend : Backend) (room : ℕ) (w : World) : Prop :=
  match backend with
  | memory => True
  | directory here root => DirectoryCache.Roomy w.tree here root room

def SameEntry (backend : Backend) (j key : Text) : Prop :=
  match backend with
  | memory => j = key
  | directory _ _ => Digest.nameOf j = Digest.nameOf key

variable {backend : Backend} {room : ℕ} {w w' : World} {key j value tag : Text} {ttl : ℕ}
variable {dependency : Dependency} {tags : List Text} {keys guarded : Set Text}

theorem Separates.eq_of_sameEntry (h : backend.Separates keys) (hj : j ∈ keys) (hkey : key ∈ keys)
    (hsame : backend.SameEntry j key) : j = key := by
  cases backend with
  | memory => exact hsame
  | directory here root => exact h hj hkey hsame

/-- From `w` to `w'` no version has changed, and no entry has come but `new` ones. -/
structure Settles (backend : Backend) (room : ℕ) (new : Text → Record → Prop) (w w' : World) :
    Prop where
  usable : backend.Usable room w'
  version : ∀ tag, backend.version w' tag = backend.version w tag
  record : ∀ j r, backend.record? w' j = some r → backend.record? w j = some r ∨ new j r

def Stored (backend : Backend) (w : World) (key value : Text) (dependency : Dependency)
    (j : Text) (r : Record) : Prop :=
  backend.SameEntry j key ∧
    r = ⟨value, dependency.tags.map fun tag => (tag, backend.version w tag)⟩

section Directory

variable (here : List Text) (root : Path) (w : World) (key value : Text) (ttl : ℕ)
variable (dependency : Dependency) (tags : List Text)

theorem directory_get : runOn ((directory here root).operations.get key) w =
    let r := runOn ((DirectoryCache.unfailing here root w.now).get key) w.tree
    (r.1, { w with tree := r.2 }) := rfl

theorem directory_set : runOn ((directory here root).operations.set key value ttl dependency) w =
    let r := runOn ((DirectoryCache.unfailing here root w.now).set key value ttl dependency) w.tree
    (r.1, { w with tree := r.2 }) := rfl

theorem directory_invalidate : runOn ((directory here root).operations.invalidate tags) w =
    let r := runOn ((DirectoryCache.unfailing here root w.now).invalidate tags) w.tree
    (r.1, { w with tree := r.2 }) := rfl

end Directory

theorem operations_get (h : backend.Usable room w) (key : Text) :
    backend.Settles room (fun _ _ => False) w (runOn (backend.operations.get key) w).2 ∧
      ∀ value, (runOn (backend.operations.get key) w).1 = .ok (some value) →
        ∃ r, backend.record? w key = some r ∧ r.value = value ∧
          ∀ tag version, (tag, version) ∈ r.tags → backend.version w tag = version := by
  cases backend with
  | memory =>
    have hrun : runOn (memory.operations.get key) w =
        (.ok (w.memory.get w.now key).1, { w with memory := (w.memory.get w.now key).2 }) := rfl
    rw [hrun]
    refine ⟨⟨trivial, MemoryCache.version_get w.memory w.now key, fun j r hr => .inl ?_⟩,
      fun value hvalue => ?_⟩
    · obtain ⟨e, he, rfl⟩ := Option.map_eq_some_iff.1 hr
      exact Option.map_eq_some_iff.2 ⟨e, MemoryCache.entry_of_get_entry he, rfl⟩
    · have hfound : (w.memory.get w.now key).1 = some value := Except.ok.inj hvalue
      rw [MemoryCache.get_eq_holds?, Option.map_eq_some_iff] at hfound
      obtain ⟨holding, hholds, rfl⟩ := hfound
      obtain ⟨e, he, hfresh, rfl⟩ := MemoryCache.holds?_eq_some_iff.1 hholds
      exact ⟨⟨e.value, e.tags⟩, Option.map_eq_some_iff.2 ⟨e, he, rfl⟩, rfl,
        (MemoryCache.isFresh_iff.1 hfresh).2⟩
  | directory here root =>
    obtain ⟨found, hget, hfound⟩ := DirectoryCache.runOn_get w.now h.installed h.numbered key
    rw [directory_get, hget]
    refine ⟨⟨h, fun _ => rfl, fun _ _ hr => .inl hr⟩, fun value hvalue => ?_⟩
    obtain ⟨holding, hheld, -, rfl⟩ := (hfound value).1 (Except.ok.inj hvalue)
    exact DirectoryCache.recordIn?_of_held? hheld

theorem operations_set (h : backend.Usable room w) (key value : Text) (ttl : ℕ)
    (dependency : Dependency) :
    backend.Settles room (backend.Stored w key value dependency) w
      (runOn (backend.operations.set key value ttl dependency) w).2 := by
  cases backend with
  | memory =>
    have hrun : runOn (memory.operations.set key value ttl dependency) w =
        (.ok (), { w with memory := w.memory.set w.now key value ttl dependency }) := rfl
    rw [hrun]
    refine ⟨trivial, fun _ => rfl, fun j r hr => ?_⟩
    obtain ⟨e, he, rfl⟩ := Option.map_eq_some_iff.1 hr
    rw [MemoryCache.get?_set] at he
    split_ifs at he with hj
    · cases he
      exact .inr ⟨hj, rfl⟩
    · have hold := (Option.filter_eq_some_iff.1 he).1
      exact .inl (Option.map_eq_some_iff.2 ⟨e, hold, rfl⟩)
  | directory here root =>
    rw [directory_set, DirectoryCache.runOn_set h.installed h.numbered]
    dsimp only
    split_ifs with hlong
    · exact ⟨h, fun _ => rfl, fun _ _ hr => .inl hr⟩
    · refine ⟨h.put_entry key _, DirectoryCache.versionIn_put_entry _ _ _ _ _, fun j r hr => ?_⟩
      by_cases hname : Digest.nameOf j = Digest.nameOf key
      · have hself := DirectoryCache.recordIn?_put_entry_self h.numbered key
          (Nat.le_of_not_lt hlong)
        rw [← DirectoryCache.recordIn?_congr hname] at hself
        exact .inr ⟨hname, Option.some.inj (hr.symm.trans hself)⟩
      · exact .inl ((DirectoryCache.recordIn?_put_entry_of_ne hname).symm.trans hr)

theorem operations_invalidate (h : backend.Usable (room + tags.length) w) :
    ∃ w', runOn (backend.operations.invalidate tags) w = (.ok (), w') ∧ backend.Usable room w' ∧
      (∀ key, backend.record? w' key = backend.record? w key) ∧
      (∀ tag, backend.version w tag ≤ backend.version w' tag) ∧
      ∀ tag ∈ tags, backend.version w tag < backend.version w' tag := by
  cases backend with
  | memory =>
    have hversion := MemoryCache.version_invalidate w.memory tags
    refine ⟨{ w with memory := w.memory.invalidate tags }, rfl, trivial, fun key => ?_,
      fun tag => ?_, fun tag htag => ?_⟩
    · simp only [record?, MemoryCache.entries_invalidate]
    · simp only [version, hversion, Nat.le_add_right]
    · have hcount := List.count_pos_iff.2 htag
      simp only [version, hversion, Nat.lt_add_right_iff_pos, hcount]
  | directory here root =>
    obtain ⟨hroomy, hle, hlt⟩ := h.bumpAll
    refine ⟨{ w with tree := DirectoryCache.bumpAll w.tree here root tags }, ?_, hroomy,
      DirectoryCache.recordIn?_bumpAll w.tree here root tags, hle, hlt⟩
    rw [directory_invalidate, DirectoryCache.runOn_invalidate h.installed h.numbered]

theorem Usable.mono {room' : ℕ} (h : backend.Usable room w) (hle : room' ≤ room) :
    backend.Usable room' w := by
  cases backend with
  | memory => trivial
  | directory here root =>
    exact ⟨h.installed, h.numbered, fun tag => Nat.le_trans (Nat.add_le_add_left hle _) (h.room tag)⟩

theorem steady_invalidate (h : backend.Usable (room + tags.length) w) :
    let outcome := runOn (backend.steady.invalidate tags) w
    backend.Usable room outcome.2 ∧
      (∀ key, backend.record? outcome.2 key = backend.record? w key) ∧
      (∀ tag, backend.version w tag ≤ backend.version outcome.2 tag) ∧
      (outcome.1 = .ok () → ∀ tag ∈ tags, backend.version w tag < backend.version outcome.2 tag) := by
  obtain ⟨now, turns, hnext⟩ := w.exists_of_nextTurn
  have hsame : backend.Usable (room + tags.length) (World.nextTurn.run w).2 ∧
      (∀ key, backend.record? (World.nextTurn.run w).2 key = backend.record? w key) ∧
      ∀ tag, backend.version (World.nextTurn.run w).2 tag = backend.version w tag := by
    rw [hnext]
    cases backend <;> exact ⟨h, fun _ => rfl, fun _ => rfl⟩
  obtain ⟨husable, hrecord, hversion⟩ := hsame
  obtain ⟨w', hrun, hroom, hrecord', hle, hlt⟩ := operations_invalidate husable
  simp only [hrecord, hversion] at hrecord' hle hlt
  dsimp only
  rw [steady, Cache.exposed, runOn_exposed]
  cases (World.nextTurn.run w).1 with
  | works =>
    rw [hrun]
    exact ⟨hroom, hrecord', hle, fun _ => hlt⟩
  | fails reason =>
    exact ⟨husable.mono (Nat.le_add_right _ _), hrecord, fun tag => (hversion tag).ge,
      fun hok => by cases hok⟩
  | failsLate reason =>
    rw [hrun]
    exact ⟨hroom, hrecord', hle, fun hok => by cases hok⟩

/-- Entries under guarded keys record a tag, with a version that it has had. -/
structure Dated (backend : Backend) (room : ℕ) (guarded : Set Text) (tag : Text) (w : World) :
    Prop where
  usable : backend.Usable room w
  dated : ∀ key ∈ guarded, ∀ r, backend.record? w key = some r →
    ∃ n ≤ backend.version w tag, (tag, n) ∈ r.tags

/-- The version of a tag has reached `limit`, and an entry under a guarded key fits it or records
that the version of the tag was lower. -/
structure Renewed (backend : Backend) (room : ℕ) (guarded : Set Text) (tag : Text) (limit : ℕ)
    (fits : Text → Text → Prop) (w : World) : Prop where
  usable : backend.Usable room w
  limit_le : limit ≤ backend.version w tag
  fits_or : ∀ key ∈ guarded, ∀ r, backend.record? w key = some r →
    fits key r.value ∨ ∃ n < limit, (tag, n) ∈ r.tags

structure IsNew (backend : Backend) (room : ℕ) (w : World) : Prop where
  usable : backend.Usable room w
  empty : ∀ key, backend.record? w key = none

theorem isNew_memory (room now : ℕ) (turns : List Turn) : memory.IsNew room { now, turns } :=
  ⟨trivial, fun _ => rfl⟩

/-- A cache in a directory is new when it has been made, or when another version made it before. -/
theorem exists_isNew_prepare {here : List Text} {root : Path} {version : Text} (room now : ℕ)
    (hsite : w.tree.Site here root DirectoryCache.room)
    (hclear : w.tree.exists? here root = false →
      ∀ names, Path.namesFrom here root <+: names → w.tree.node? names = none)
    (hversion : DirectoryCache.storedVersion w.tree here root ≠ some version)
    (hroom : room ≤ CacheEntry.maxNumber) :
    ∃ tree, ((DirectoryCache.unfailing here root now).prepare version).run w.tree = ((), tree) ∧
      (directory here root).IsNew room { w with tree } := by
  obtain ⟨tree, hrun, hready, -, hnothing⟩ :=
    DirectoryCache.run_renew_of_site now hsite hclear version
  refine ⟨tree, ?_, ⟨hready.installed, hready.numbered, fun tag => ?_⟩, fun key => ?_⟩
  · rw [DirectoryCache.run_prepare, if_neg hversion, hrun]
  · simpa [DirectoryCache.versionIn, hnothing] using hroom
  · simp [record?, DirectoryCache.recordIn?, DirectoryCache.entryIn?, hnothing]

theorem IsNew.mono {room' : ℕ} (h : backend.IsNew room w) (hle : room' ≤ room) :
    backend.IsNew room' w := ⟨h.usable.mono hle, h.empty⟩

namespace Dated

theorem of_isNew (h : backend.IsNew room w) : backend.Dated room guarded tag w where
  usable := h.usable
  dated key _ r hr := by
    rw [h.empty key] at hr
    cases hr

theorem enduring : Enduring (backend.Dated room guarded tag) := by
  intro w h
  obtain ⟨now, turns, hnext⟩ := w.exists_of_nextTurn
  rw [hnext]
  cases backend <;> exact ⟨h.usable, h.dated⟩

theorem settles {new : Text → Record → Prop} (h : backend.Dated room guarded tag w)
    (hs : backend.Settles room new w w')
    (hnew : ∀ key ∈ guarded, ∀ r, new key r → (tag, backend.version w tag) ∈ r.tags) :
    backend.Dated room guarded tag w' where
  usable := hs.usable
  dated key hkey r hr := by
    rw [hs.version]
    rcases hs.record key r hr with hold | hn
    · exact h.dated key hkey r hold
    · exact ⟨_, Nat.le_refl _, hnew key hkey r hn⟩

theorem get (key : Text) :
    Keeps (backend.Dated room guarded tag) (backend.steady.get key) fun _ => True := by
  refine Keeps.exposed enduring fun w hw => ⟨?_, fun _ _ => trivial⟩
  exact hw.settles (operations_get hw.usable key).1 fun _ _ _ hn => hn.elim

theorem set (hkeys : backend.Separates keys) (hguarded : guarded ⊆ keys) (hkey : key ∈ keys)
    (hdependency : key ∈ guarded → tag ∈ dependency.tags) (value : Text) (ttl : ℕ) :
    Keeps (backend.Dated room guarded tag) (backend.steady.set key value ttl dependency)
      fun _ => True := by
  refine Keeps.exposed enduring fun w hw => ⟨?_, fun _ _ => trivial⟩
  refine hw.settles (operations_set hw.usable key value ttl dependency) ?_
  rintro j hj r ⟨hsame, rfl⟩
  obtain rfl := hkeys.eq_of_sameEntry (hguarded hj) hkey hsame
  exact List.mem_map.2 ⟨tag, hdependency hj, rfl⟩

theorem invalidate (h : backend.Dated (room + tags.length) guarded tag w) :
    backend.Dated room guarded tag (runOn (backend.steady.invalidate tags) w).2 := by
  obtain ⟨husable, hrecord, hle, -⟩ := steady_invalidate h.usable
  refine ⟨husable, fun key hkey r hr => ?_⟩
  rw [hrecord] at hr
  obtain ⟨n, hn, hmem⟩ := h.dated key hkey r hr
  exact ⟨n, Nat.le_trans hn (hle tag), hmem⟩

/-- Once the tag has been invalidated, all that was stored before is outdated. -/
theorem renewed (h : backend.Dated (room + tags.length) guarded tag w) (htag : tag ∈ tags)
    (hdone : (runOn (backend.steady.invalidate tags) w).1 = .ok ()) (fits : Text → Text → Prop) :
    backend.Renewed room guarded tag (backend.version w tag + 1) fits
      (runOn (backend.steady.invalidate tags) w).2 := by
  obtain ⟨husable, hrecord, -, hlt⟩ := steady_invalidate h.usable
  refine ⟨husable, hlt hdone tag htag, fun key hkey r hr => .inr ?_⟩
  rw [hrecord] at hr
  obtain ⟨n, hn, hmem⟩ := h.dated key hkey r hr
  exact ⟨n, Nat.lt_succ_of_le hn, hmem⟩

end Dated

namespace Renewed

variable {limit : ℕ} {fits fits' : Text → Text → Prop}

theorem mono (h : backend.Renewed room guarded tag limit fits w)
    (hfits : ∀ key value, fits key value → fits' key value) :
    backend.Renewed room guarded tag limit fits' w where
  usable := h.usable
  limit_le := h.limit_le
  fits_or key hkey r hr := (h.fits_or key hkey r hr).imp_left (hfits key r.value)

theorem enduring : Enduring (backend.Renewed room guarded tag limit fits) := by
  intro w h
  obtain ⟨now, turns, hnext⟩ := w.exists_of_nextTurn
  rw [hnext]
  cases backend <;> exact ⟨h.usable, h.limit_le, h.fits_or⟩

theorem settles {new : Text → Record → Prop} (h : backend.Renewed room guarded tag limit fits w)
    (hs : backend.Settles room new w w')
    (hnew : ∀ key ∈ guarded, ∀ r, new key r → fits key r.value) :
    backend.Renewed room guarded tag limit fits w' where
  usable := hs.usable
  limit_le := (hs.version tag).symm ▸ h.limit_le
  fits_or key hkey r hr := by
    rcases hs.record key r hr with hold | hn
    · exact h.fits_or key hkey r hold
    · exact .inl (hnew key hkey r hn)

theorem get (key : Text) : Keeps (backend.Renewed room guarded tag limit fits)
    (backend.steady.get key) fun found => ∀ value ∈ found, key ∈ guarded → fits key value := by
  refine Keeps.exposed enduring fun w hw => ?_
  obtain ⟨hsettles, hanswer⟩ := operations_get hw.usable key
  refine ⟨hw.settles hsettles fun _ _ _ hn => hn.elim, fun found hfound value hvalue hkey => ?_⟩
  obtain rfl : found = some value := hvalue
  obtain ⟨r, hr, rfl, hcurrent⟩ := hanswer value hfound
  rcases hw.fits_or key hkey r hr with hfits | ⟨n, hn, hmem⟩
  · exact hfits
  · have hlimit := hw.limit_le
    rw [hcurrent tag n hmem] at hlimit
    omega

theorem set (hkeys : backend.Separates keys) (hguarded : guarded ⊆ keys) (hkey : key ∈ keys)
    (hfits : key ∈ guarded → fits key value) (ttl : ℕ) (dependency : Dependency) :
    Keeps (backend.Renewed room guarded tag limit fits)
      (backend.steady.set key value ttl dependency) fun _ => True := by
  refine Keeps.exposed enduring fun w hw => ⟨?_, fun _ _ => trivial⟩
  refine hw.settles (operations_set hw.usable key value ttl dependency) ?_
  rintro j hj r ⟨hsame, rfl⟩
  obtain rfl := hkeys.eq_of_sameEntry (hguarded hj) hkey hsame
  exact hfits hj

theorem invalidate (h : backend.Renewed (room + tags.length) guarded tag limit fits w) :
    backend.Renewed room guarded tag limit fits (runOn (backend.steady.invalidate tags) w).2 := by
  obtain ⟨husable, hrecord, hle, -⟩ := steady_invalidate h.usable
  refine ⟨husable, Nat.le_trans h.limit_le (hle tag), fun key hkey r hr => ?_⟩
  rw [hrecord] at hr
  exact h.fits_or key hkey r hr

end Renewed

end Backend
end ContentWeave
