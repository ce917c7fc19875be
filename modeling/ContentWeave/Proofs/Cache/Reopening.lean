import ContentWeave.Proofs.Cache.InDirectory
import ContentWeave.Proofs.Files.Site
import Mathlib.Data.List.Nodup

/-!
# Caches in directories keep what they are asked to keep when they are opened again

Constructing a cache for the version that it was made for changes nothing; for another version it
empties the directory. So what the cache keeps is what its history since then asks it to keep.
-/

namespace ContentWeave

theorem Digest.injOn_nameOf {texts : Set Text} {list : List Text} (hmem : ∀ s ∈ texts, s ∈ list)
    (h : (list.map nameOf).Nodup) : Set.InjOn nameOf texts :=
  fun _ hs _ hs' => List.inj_on_of_nodup_map h (hmem _ hs) (hmem _ hs')

namespace DirectoryCache

def renew {m : Type → Type} [Monad m] (c : DirectoryCache m) (version : Text) : m Unit := do
  if ← c.host.exists? c.root then
    let _ ← (c.host.removeTree c.root).run
  match ← (c.host.makeDirectories c.root).run with
  | .ok _ => let _ ← (c.host.write c.versionFile version.toUtf8).run
  | .error _ => return

theorem prepare_eq {m : Type → Type} [Monad m] (c : DirectoryCache m) (version : Text) :
    c.prepare version = (do
      match ← (c.host.readText c.versionFile).run with
      | .ok stored => if stored = version then pure () else c.renew version
      | .error _ => c.renew version) := by
  rw [prepare]
  refine congrArg _ (funext fun read => ?_)
  cases read <;> rfl

variable {t t' : FileTree} {here : List Text} {root : Path} {now : ℕ} {version : Text}

def storedVersion (t : FileTree) (here : List Text) (root : Path) : Option Text :=
  (t.read here (Path.join root "VERSION".toList) >>= Host.decode).toOption

section Running

theorem run_bind {σ α β : Type} (x : StateM σ α) (f : α → StateM σ β) (s : σ) :
    (x >>= f).run s = (f (x.run s).1).run (x.run s).2 := rfl

theorem run_prepare (here : List Text) (root : Path) (now : ℕ) (version : Text) (t : FileTree) :
    ((unfailing here root now).prepare version).run t =
      if storedVersion t here root = some version then ((), t)
      else ((unfailing here root now).renew version).run t := by
  have hread : ((unfailing here root now).host.readText
      (versionFile (unfailing here root now))).run.run t =
        (t.read here (Path.join root "VERSION".toList) >>= Host.decode, t) :=
    Host.runOn_readText ..
  rw [prepare_eq, run_bind, hread, storedVersion]
  cases t.read here (Path.join root "VERSION".toList) >>= Host.decode with
  | error e => simp [Except.toOption]
  | ok stored =>
    by_cases h : stored = version
    · simp [Except.toOption, h]
      rfl
    · simp [Except.toOption, h]

theorem run_renew {cleared made written : FileTree}
    (hclear : (if t.exists? here root = true then t.removeTree here root else .ok t) = .ok cleared)
    (hmake : cleared.makeDirectories here root = .ok made)
    (hwrite : made.write here (Path.join root "VERSION".toList) version.toUtf8 = .ok written) :
    ((unfailing here root now).renew version).run t = ((), written) := by
  have hexists : ((unfailing here root now).host.exists? (unfailing here root now).root).run t =
      (t.exists? here root, t) := rfl
  have hmade : ((unfailing here root now).host.makeDirectories
      (unfailing here root now).root).run.run cleared = (.ok (), made) :=
    (runOn_change _ cleared).trans (by rw [unfailing, hmake])
  have hwritten : ((unfailing here root now).host.write (versionFile (unfailing here root now))
      version.toUtf8).run.run made = (.ok (), written) :=
    (runOn_change _ made).trans (by rw [versionFile, unfailing, hwrite])
  rw [renew, run_bind, hexists]
  cases he : t.exists? here root with
  | true =>
    rw [if_pos he] at hclear
    have hremoved : ((unfailing here root now).host.removeTree
        (unfailing here root now).root).run.run t = (.ok (), cleared) :=
      (runOn_change _ t).trans (by rw [unfailing, hclear])
    simp only [run_bind, hremoved, hmade, hwritten, if_true]
    rfl
  | false =>
    obtain rfl : t = cleared := by
      rw [if_neg (by simp [he])] at hclear
      exact Except.ok.inj hclear
    simp only [run_bind, hmade, hwritten, Bool.false_eq_true, if_false]
    rfl

end Running

theorem fileName_version : Path.FileName "VERSION".toList 7 :=
  ⟨.of_all (by decide) (by decide), by decide, by decide, by decide⟩

def versionNames (here : List Text) (root : Path) : List Text :=
  Path.namesFrom here root ++ ["VERSION".toList]

/-- A cache that can be opened again wherever its root is. -/
structure Ready (t : FileTree) (here : List Text) (root : Path) : Prop where
  site : t.Site here root room
  installed : Installed t here root
  numbered : Numbered t here root

theorem Installed.storedVersion_eq (hc : Installed t here root) :
    storedVersion t here root = (t.content? (versionNames here root)).bind Text.ofUtf8? := by
  have hlength := hc.length
  unfold room at hlength
  have hresolve := hc.stands.resolve_join fileName_version (by omega)
  rw [storedVersion, FileTree.read_of_resolve hresolve, versionNames, FileTree.content?]
  cases t.node? (Path.namesFrom here root ++ ["VERSION".toList]) with
  | none => rfl
  | some node =>
    cases node with
    | directory => rfl
    | file content =>
      simp only [bind, Except.bind, Host.decode, Option.bind_some]
      cases Text.ofUtf8? content <;> rfl

theorem Installed.storedVersion_putIn (hc : Installed t here root) (drawer : Drawer) (s : Text)
    (content : Bytes) :
    storedVersion (DirectoryCache.putIn t here root drawer s content) here root =
      storedVersion t here root := by
  have hne : versionNames here root ≠ drawer.names here root ++ [Digest.nameOf s] := by
    intro heq
    have hlength := congrArg List.length heq
    simp [versionNames, Drawer.names] at hlength
  rw [(hc.putIn drawer s content).storedVersion_eq, hc.storedVersion_eq, DirectoryCache.putIn,
    FileTree.content?_put, if_neg hne]

theorem Ready.site_putIn (hr : Ready t here root) (drawer : Drawer) (s : Text) (content : Bytes) :
    (DirectoryCache.putIn t here root drawer s content).Site here root room := by
  refine hr.site.of_outside (fun names hnames => ?_) fun bytes => ?_
  · have hfile : names ≠ drawer.names here root ++ [Digest.nameOf s] := by
      rintro rfl
      exact hnames (by simp [Drawer.names])
    have hdrawer : names ≠ drawer.names here root := by
      rintro rfl
      exact hnames (List.prefix_append _ _)
    rw [DirectoryCache.putIn, FileTree.node?_put, if_neg hfile, FileTree.node?_make,
      if_neg (by simp [hdrawer])]
  · rw [((hr.installed.putIn drawer s content).stands).node]
    simp

theorem Ready.put_entry (hr : Ready t here root) (key : Text) (content : Bytes) :
    Ready (DirectoryCache.putIn t here root .entries key content) here root :=
  ⟨hr.site_putIn .entries key content, hr.installed.putIn .entries key content,
    hr.numbered.put_entry key content⟩

theorem Ready.bump (hr : Ready t here root) (tag : Text) :
    Ready (DirectoryCache.bump t here root tag) here root :=
  ⟨hr.site_putIn .tags tag _, hr.installed.bump tag, hr.numbered.bump tag⟩

theorem Ready.bumpAll (hr : Ready t here root) (tags : List Text) :
    Ready (bumpAll t here root tags) here root ∧
      storedVersion (DirectoryCache.bumpAll t here root tags) here root =
        storedVersion t here root := by
  induction tags generalizing t with
  | nil => exact ⟨hr, rfl⟩
  | cons tag tags ih =>
    obtain ⟨hready, hstored⟩ := ih (hr.bump tag)
    exact ⟨hready, hstored.trans (hr.installed.storedVersion_putIn .tags tag _)⟩

structure Bare (t : FileTree) (here : List Text) (root : Path) : Prop where
  stands : t.Stands here root (Path.namesFrom here root)
  nothing : ∀ names, Path.namesFrom here root <+: names → names ≠ Path.namesFrom here root →
    t.node? names = none

def inscribe (t : FileTree) (here : List Text) (root : Path) (version : Text) : FileTree :=
  ⟨t.nodes.insert (versionNames here root) (.file version.toUtf8)⟩

theorem node?_inscribe (t : FileTree) (here : List Text) (root : Path) (version : Text)
    {names : List Text} (h : names ≠ []) : (inscribe t here root version).node? names =
      if names = versionNames here root then some (.file version.toUtf8) else t.node? names :=
  FileTree.node?_insert t _ names _ h

namespace Bare

variable (h : Bare t here root)

include h

theorem node?_version : t.node? (versionNames here root) = none :=
  h.nothing _ (List.prefix_append _ _) (by simp [versionNames])

theorem write_version (hroom : Text.byteLength root + room < FileTree.maxPath) (version : Text) :
    t.write here (Path.join root "VERSION".toList) version.toUtf8 =
      .ok (inscribe t here root version) := by
  unfold room at hroom
  refine FileTree.write_of_resolve (h.stands.resolve_join fileName_version (by omega)) ?_ _
  rw [← versionNames, h.node?_version]
  simp

theorem directory_inscribe (version : Text) {names : List Text}
    (hn : t.node? names = some .directory) :
    (inscribe t here root version).node? names = some .directory := by
  by_cases hnil : names = []
  · simp [hnil, FileTree.node?]
  · rw [node?_inscribe _ _ _ _ hnil, if_neg, hn]
    rintro rfl
    rw [h.node?_version] at hn
    cases hn

theorem node?_drawer (version : Text) (drawer : Drawer) :
    (inscribe t here root version).node? (drawer.names here root) = none := by
  have hlabel : drawer.label ≠ "VERSION".toList := by cases drawer <;> decide
  rw [node?_inscribe _ _ _ _ Drawer.names_ne_nil,
    if_neg (by simpa [Drawer.names, versionNames] using hlabel)]
  exact h.nothing _ (List.prefix_append _ _) (by simp [Drawer.names])

theorem node?_file (version : Text) (drawer : Drawer) (name : Text) :
    (inscribe t here root version).node? (drawer.names here root ++ [name]) = none := by
  rw [node?_inscribe _ _ _ _ (by simp), if_neg (by simp [Drawer.names, versionNames])]
  exact h.nothing _ (by simp [Drawer.names]) (by simp [Drawer.names])

theorem fileIn_eq_none (version : Text) (drawer : Drawer) (s : Text) :
    fileIn (inscribe t here root version) here root drawer s = none := by
  rw [fileIn, FileTree.content?, h.node?_file]

theorem installed (hroom : Text.byteLength root + room < FileTree.maxPath) (version : Text) :
    Installed (inscribe t here root version) here root :=
  ⟨hroom, h.stands.more fun _ hn => h.directory_inscribe version hn,
    fun drawer => .of_missing (h.node?_drawer version drawer) (h.node?_file version drawer)⟩

theorem numbered (version : Text) : Numbered (inscribe t here root version) here root := by
  intro tag content hcontent
  rw [h.fileIn_eq_none] at hcontent
  cases hcontent

theorem ready (hsite : t.Site here root room) (version : Text) :
    Ready (inscribe t here root version) here root where
  site := by
    refine hsite.of_outside (fun names hp => ?_) fun bytes => ?_
    · by_cases hnil : names = []
      · simp [hnil, FileTree.node?]
      · rw [node?_inscribe _ _ _ _ hnil, if_neg]
        rintro rfl
        exact hp (List.prefix_append _ _)
    · simp [h.directory_inscribe version h.stands.node]
  installed := h.installed hsite.length version
  numbered := h.numbered version

theorem storedVersion_inscribe (hroom : Text.byteLength root + room < FileTree.maxPath)
    (version : Text) : storedVersion (inscribe t here root version) here root = some version := by
  have hne : versionNames here root ≠ [] := by simp [versionNames]
  rw [(h.installed hroom version).storedVersion_eq, FileTree.content?,
    node?_inscribe _ _ _ _ hne, if_pos rfl]
  exact Text.ofUtf8?_toUtf8 version

end Bare

theorem exists_bare (hsite : t.Site here root room)
    (hclear : t.exists? here root = false →
      ∀ names, Path.namesFrom here root <+: names → t.node? names = none) :
    ∃ cleared made,
      (if t.exists? here root = true then t.removeTree here root else .ok t) = .ok cleared ∧
        cleared.makeDirectories here root = .ok made ∧ made.Site here root room ∧
          Bare made here root := by
  obtain ⟨cleared, hcleared, hbelow, hout⟩ := hsite.clear hclear
  have hcleared_site : cleared.Site here root room :=
    hsite.of_outside hout fun bytes => by simp [hbelow _ (List.prefix_refl _)]
  obtain ⟨made, hmake, hstands, hmade⟩ := hcleared_site.makeDirectories
  refine ⟨cleared, made, hcleared, hmake, hcleared_site.of_made hmade, hstands, ?_⟩
  intro names hp hne
  rw [hmade.elsewhere names fun hplace => hne (hsite.straight names hplace hp)]
  exact hbelow names hp

theorem run_renew_of_site (now : ℕ) (hsite : t.Site here root room)
    (hclear : t.exists? here root = false →
      ∀ names, Path.namesFrom here root <+: names → t.node? names = none) (version : Text) :
    ∃ t', ((unfailing here root now).renew version).run t = ((), t') ∧ Ready t' here root ∧
      storedVersion t' here root = some version ∧ ∀ drawer s, fileIn t' here root drawer s = none := by
  obtain ⟨cleared, made, hcleared, hmake, hsite', hbare⟩ := exists_bare hsite hclear
  exact ⟨inscribe made here root version,
    run_renew hcleared hmake (hbare.write_version hsite.length version), hbare.ready hsite' version,
    hbare.storedVersion_inscribe hsite'.length version, hbare.fileIn_eq_none version⟩

end DirectoryCache

namespace Reopening

open DirectoryCache

inductive Event
  | call (e : TimedCall)
  | construct (version : Text)

namespace Event

def keys : Event → List Text
  | call e => e.call.keys
  | construct _ => []

def tags : Event → List Text
  | call e => e.call.tags
  | construct _ => []

def invalidated : Event → List Text
  | call e => e.call.invalidated
  | construct _ => []

end Event

def perform (here : List Text) (root : Path) (t : FileTree) (e : TimedCall) : FileTree :=
  match e.call with
  | .get key => (runOn ((unfailing here root e.now).get key) t).2
  | .set key value ttl dependency =>
    (runOn ((unfailing here root e.now).set key value ttl dependency) t).2
  | .invalidate tags => (runOn ((unfailing here root e.now).invalidate tags) t).2

def step (here : List Text) (root : Path) (t : FileTree) : Event → FileTree
  | .call e => perform here root t e
  | .construct version => (((unfailing here root 0).prepare version).run t).2

def after (here : List Text) (root : Path) (t : FileTree) (events : List Event) : FileTree :=
  events.foldl (step here root) t

/-- The version that a cache was made for, and its history since it was made for it. -/
structure Account where
  stored : Option Text := none
  history : List TimedCall := []

namespace Account

def Accepts (a : Account) : CacheCall → Prop
  | .set _ _ _ dependency =>
    (CacheEntry.tagBytes (dependency.tags.map fun tag => (tag, invalidations a.history tag))).length ≤
      CacheEntry.maxTagsLength
  | _ => True

instance (a : Account) (call : CacheCall) : Decidable (a.Accepts call) := by
  cases call <;> unfold Accepts <;> infer_instance

def step (a : Account) : Event → Account
  | .call e => if a.Accepts e.call then { a with history := a.history ++ [e] } else a
  | .construct version => if a.stored = some version then a else ⟨some version, []⟩

def after (a : Account) (events : List Event) : Account := events.foldl step a

end Account

variable {here : List Text} {root : Path} {keys tags : Set Text} {a : Account} {t : FileTree}

/-- A cache holds what its account asks it to keep. -/
structure Accords (here : List Text) (root : Path) (keys tags : Set Text) (a : Account)
    (t : FileTree) : Prop where
  ready : Ready t here root
  stored : storedVersion t here root = a.stored
  versions : ∀ tag ∈ tags, versionIn t here root tag = invalidations a.history tag
  behind : ∀ key ∈ keys, ∀ e, entryIn? t here root key = some e → ∀ tag version,
    (tag, version) ∈ e.tags → tag ∈ tags ∧ version ≤ versionIn t here root tag
  held : ∀ key ∈ keys, ∀ h, held? t here root key = some h ↔
    ∃ s, Keeping a.history key s ∧ h = s.inSeconds

theorem Accords.of_empty {version : Text} (hready : Ready t here root)
    (hstored : storedVersion t here root = some version)
    (hempty : ∀ drawer s, fileIn t here root drawer s = none) :
    Accords here root keys tags ⟨some version, []⟩ t where
  ready := hready
  stored := hstored
  versions tag _ := by simp [versionIn, hempty, invalidations]
  behind key _ e he := by simp [entryIn?, hempty] at he
  held key _ h := by
    have hnone : held? t here root key = none := by simp [held?, entryIn?, hempty]
    simp [hnone, Keeping.not_nil]

theorem Accords.construct (ha : Accords here root keys tags a t) (version : Text) :
    Accords here root keys tags (a.step (.construct version))
      (step here root t (.construct version)) := by
  rw [step, run_prepare, ha.stored, Account.step]
  by_cases hsame : a.stored = some version
  · rw [if_pos hsame, if_pos hsame]
    exact ha
  · rw [if_neg hsame, if_neg hsame]
    have hexists := ha.ready.installed.stands.exists?_eq_true
    obtain ⟨t', hrun, hready, hstored, hempty⟩ :=
      run_renew_of_site 0 ha.ready.site (fun hnot => by simp [hexists] at hnot) version
    rw [hrun]
    exact .of_empty hready hstored hempty

theorem Accords.set (hkeys : Set.InjOn Digest.nameOf keys) (ha : Accords here root keys tags a t)
    {key : Text} (hkey : key ∈ keys) (now : ℕ) (value : Text) (ttl : ℕ) {dependency : Dependency}
    (htags : ∀ tag ∈ dependency.tags, tag ∈ tags) :
    Accords here root keys tags (a.step (.call ⟨now, .set key value ttl dependency⟩))
      (step here root t (.call ⟨now, .set key value ttl dependency⟩)) := by
  have hentry : (entryFor t here root ⟨now, value, ttl, dependency⟩).tags =
      dependency.tags.map fun tag => (tag, invalidations a.history tag) :=
    List.map_congr_left fun tag htag => by rw [ha.versions tag (htags tag htag)]
  have hstep : step here root t (.call ⟨now, .set key value ttl dependency⟩) =
      (runOn ((unfailing here root now).set key value ttl dependency) t).2 := rfl
  rw [hstep, runOn_set ha.ready.installed ha.ready.numbered, Account.step]
  dsimp only
  rw [hentry]
  by_cases hshort : a.Accepts (.set key value ttl dependency)
  · rw [if_pos hshort, if_neg (Nat.not_lt.2 hshort)]
    have hlength : (CacheEntry.tagBytes
        (entryFor t here root ⟨now, value, ttl, dependency⟩).tags).length ≤
          CacheEntry.maxTagsLength := hentry ▸ hshort
    have hne : ∀ j ∈ keys, j ≠ key → Digest.nameOf j ≠ Digest.nameOf key :=
      fun j hj hjk hname => hjk (hkeys hj hkey hname)
    refine ⟨ha.ready.put_entry key _, ?_, fun tag htag => ?_, fun j hj e he => ?_, fun j hj h => ?_⟩
    · exact (ha.ready.installed.storedVersion_putIn .entries key _).trans ha.stored
    · rw [versionIn_put_entry, ha.versions tag htag, invalidations_concat]
      rfl
    · simp only [versionIn_put_entry]
      by_cases hjk : j = key
      · subst hjk
        rw [entryIn?_put_entry_self ha.ready.numbered j hlength] at he
        cases he
        intro tag version hmem
        obtain ⟨tag', htag', heq⟩ := List.mem_map.1 hmem
        cases heq
        exact ⟨htags tag htag', Nat.le_refl _⟩
      · rw [entryIn?_put_entry_of_ne (hne j hj hjk)] at he
        exact ha.behind j hj e he
    · by_cases hjk : j = key
      · subst hjk
        simp only [Keeping.concat_set_self, exists_eq_left]
        rw [held?_put_entry_self ha.ready.numbered j hlength, Option.some.injEq, eq_comm]
      · simp only [Keeping.concat_set_of_ne (Ne.symm hjk)]
        rw [held?_put_entry_of_ne (hne j hj hjk)]
        exact ha.held j hj h
  · rw [if_neg hshort, if_pos (Nat.not_le.1 hshort)]
    exact ha

theorem Accords.invalidate (htexts : Set.InjOn Digest.nameOf tags)
    (ha : Accords here root keys tags a t) (now : ℕ) {names : List Text}
    (hnames : ∀ tag ∈ names, tag ∈ tags)
    (hroom : ∀ tag, invalidations a.history tag + names.count tag ≤ CacheEntry.maxNumber) :
    Accords here root keys tags (a.step (.call ⟨now, .invalidate names⟩))
      (step here root t (.call ⟨now, .invalidate names⟩)) := by
  have hfits : ∀ tag ∈ tags, versionIn t here root tag + names.count tag ≤ CacheEntry.maxNumber :=
    fun tag htag => ha.versions tag htag ▸ hroom tag
  have hraised := fun tag htag => versionIn_bumpAll htexts hnames htag (hfits tag htag)
  obtain ⟨hready, hstored⟩ := ha.ready.bumpAll names
  have hstep : step here root t (.call ⟨now, .invalidate names⟩) =
      (runOn ((unfailing here root now).invalidate names) t).2 := rfl
  have haccepts : a.Accepts (TimedCall.mk now (.invalidate names)).call := trivial
  rw [hstep, runOn_invalidate ha.ready.installed ha.ready.numbered, Account.step, if_pos haccepts]
  refine ⟨hready, hstored.trans ha.stored, fun tag htag => ?_, fun key hkey e he => ?_,
    fun key hkey h => ?_⟩
  · rw [hraised tag htag, ha.versions tag htag, invalidations_concat]
    rfl
  · rw [entryIn?_bumpAll] at he
    intro tag version hmem
    obtain ⟨htag, hle⟩ := ha.behind key hkey e he tag version hmem
    exact ⟨htag, hraised tag htag ▸ Nat.le_add_right_of_le hle⟩
  · rw [held?_bumpAll htexts hnames (ha.behind key hkey) hfits, ha.held key hkey]
    simp only [Keeping.concat_invalidate]
    constructor
    · rintro ⟨⟨s, hs, rfl⟩, htagged⟩
      exact ⟨s, ⟨hs, htagged⟩, rfl⟩
    · rintro ⟨s, ⟨hs, htagged⟩, rfl⟩
      exact ⟨⟨s, hs, rfl⟩, htagged⟩

theorem Accords.get (ha : Accords here root keys tags a t) (now : ℕ) (key : Text) :
    Accords here root keys tags (a.step (.call ⟨now, .get key⟩))
      (step here root t (.call ⟨now, .get key⟩)) := by
  obtain ⟨found, hrun, -⟩ := runOn_get now ha.ready.installed ha.ready.numbered key
  have hstep : step here root t (.call ⟨now, .get key⟩) =
      (runOn ((unfailing here root now).get key) t).2 := rfl
  have haccepts : a.Accepts (TimedCall.mk now (.get key)).call := trivial
  rw [hstep, hrun, Account.step, if_pos haccepts]
  refine ⟨ha.ready, ha.stored, fun tag htag => ?_, ha.behind, fun j hj h => ?_⟩
  · rw [ha.versions tag htag, invalidations_concat]
    rfl
  · simp only [Keeping.concat_get]
    exact ha.held j hj h

theorem Accords.step (hkeys : Set.InjOn Digest.nameOf keys) (htags : Set.InjOn Digest.nameOf tags)
    (ha : Accords here root keys tags a t) {e : Event} (hk : ∀ key ∈ e.keys, key ∈ keys)
    (ht : ∀ tag ∈ e.tags, tag ∈ tags)
    (hroom : ∀ tag, invalidations a.history tag + e.invalidated.count tag ≤ CacheEntry.maxNumber) :
    Accords here root keys tags (a.step e) (step here root t e) := by
  rcases e with ⟨now, key | ⟨key, value, ttl, dependency⟩ | names⟩ | version
  · exact ha.get now key
  · exact ha.set hkeys (hk key (by simp [Event.keys, CacheCall.keys])) now value ttl ht
  · exact ha.invalidate htags now ht hroom
  · exact ha.construct version

theorem invalidations_step (a : Account) (e : Event) (tag : Text) :
    invalidations (a.step e).history tag ≤
      invalidations a.history tag + e.invalidated.count tag := by
  cases e with
  | call e =>
    rw [Account.step]
    split
    · exact Nat.le_of_eq (invalidations_concat a.history e tag)
    · exact Nat.le_add_right _ _
  | construct version =>
    rw [Account.step]
    split
    · exact Nat.le_add_right _ _
    · exact Nat.zero_le _

theorem Accords.after (hkeys : Set.InjOn Digest.nameOf keys) (htags : Set.InjOn Digest.nameOf tags)
    {events : List Event} (ha : Accords here root keys tags a t)
    (hk : ∀ key ∈ events.flatMap Event.keys, key ∈ keys)
    (ht : ∀ tag ∈ events.flatMap Event.tags, tag ∈ tags)
    (hroom : ∀ tag, invalidations a.history tag + (events.flatMap Event.invalidated).count tag ≤
      CacheEntry.maxNumber) :
    Accords here root keys tags (a.after events) (after here root t events) := by
  induction events generalizing a t with
  | nil => exact ha
  | cons e events ih =>
    simp only [List.flatMap_cons, List.mem_append, List.count_append] at hk ht hroom
    have hstep : Accords here root keys tags (a.step e) (Reopening.step here root t e) := by
      refine ha.step hkeys htags (fun key h => hk key (.inl h)) (fun tag h => ht tag (.inl h)) ?_
      intro tag
      have hsum := hroom tag
      omega
    refine ih hstep (fun key h => hk key (.inr h)) (fun tag h => ht tag (.inr h)) fun tag => ?_
    have hsum := hroom tag
    have hle := invalidations_step a e tag
    omega

theorem Accords.get_eq (ha : Accords here root keys tags a t) {key : Text} (hkey : key ∈ keys)
    {now : ℕ} (hnow : now / 1000 < CacheEntry.maxNumber) :
    ∃ found, runOn ((unfailing here root now).get key) t = (.ok found, t) ∧
      ∀ value, found = some value ↔ ∃ s, Keeping a.history key s ∧ s.value = value ∧
        (s.ttl = 0 ∨ now / 1000 < s.stored / 1000 + max 1 (s.ttl / 1000)) := by
  obtain ⟨found, hrun, hfound⟩ := runOn_get now ha.ready.installed ha.ready.numbered key
  refine ⟨found, hrun, fun value => (hfound value).trans ?_⟩
  simp only [ha.held key hkey, ← Deposit.lasts_inSeconds _ hnow]
  constructor
  · rintro ⟨h, ⟨s, hs, rfl⟩, hlasts, hvalue⟩
    exact ⟨s, hs, hvalue, hlasts⟩
  · rintro ⟨s, hs, hvalue, hlasts⟩
    exact ⟨_, ⟨s, hs, rfl⟩, hlasts, hvalue⟩

def keysOf (events : List Event) : Set Text := { key | key ∈ events.flatMap Event.keys }

def tagsOf (events : List Event) : Set Text := { tag | tag ∈ events.flatMap Event.tags }

end Reopening

/-- A cache is constructed in a directory, and then called and constructed in any order and at any
times, for any versions. It answers with what its history asks it to keep, and that history begins
where it was last constructed for a version that it was not made for. Constructing it for the version
that it was made for changes nothing, and for another version it forgets everything. -/
theorem get_iff_keeping_reopened {here : List Text} {root : Path} {t : FileTree} {version : Text}
    {events : List Reopening.Event} {key : Text}
    (hsite : t.Site here root DirectoryCache.room)
    (hnothing : t.exists? here root = false →
      ∀ names, Path.namesFrom here root <+: names → t.node? names = none)
    (hversion : DirectoryCache.storedVersion t here root ≠ some version)
    (hkeys : Set.InjOn Digest.nameOf (insert key (Reopening.keysOf events)))
    (htags : Set.InjOn Digest.nameOf (Reopening.tagsOf events))
    (hfew : ∀ tag,
      (events.flatMap Reopening.Event.invalidated).count tag ≤ CacheEntry.maxNumber) :
    let reached := Reopening.after here root t (.construct version :: events)
    let account := ({} : Reopening.Account).after (.construct version :: events)
    (∀ now, now / 1000 < CacheEntry.maxNumber →
      ∃ found, runOn ((DirectoryCache.unfailing here root now).get key) reached =
          (.ok found, reached) ∧
        ∀ value, found = some value ↔ ∃ s, Keeping account.history key s ∧ s.value = value ∧
          (s.ttl = 0 ∨ now / 1000 < s.stored / 1000 + max 1 (s.ttl / 1000))) ∧
    ∀ again, ∃ reopened,
      ((DirectoryCache.unfailing here root 0).prepare again).run reached = ((), reopened) ∧
      (account.stored = some again → reopened = reached) ∧
      (account.stored ≠ some again → ∀ now j,
        runOn ((DirectoryCache.unfailing here root now).get j) reopened = (.ok none, reopened)) := by
  intro reached account
  set keys := insert key (Reopening.keysOf events)
  set tags := Reopening.tagsOf events
  obtain ⟨t', hrun, hready, hstored, hempty⟩ :=
    DirectoryCache.run_renew_of_site 0 hsite hnothing version
  have hfirst : Reopening.step here root t (.construct version) = t' := by
    rw [Reopening.step, DirectoryCache.run_prepare, if_neg hversion, hrun]
  have hreached : reached = Reopening.after here root t' events := by
    simp only [reached, Reopening.after, List.foldl_cons, hfirst]
  have hbegin : Reopening.Accords here root keys tags ⟨some version, []⟩ t' :=
    .of_empty hready hstored hempty
  have haccords : Reopening.Accords here root keys tags account reached :=
    hreached ▸ hbegin.after hkeys htags (fun j hj => .inr hj) (fun tag htag => htag)
      (by simpa [invalidations] using hfew)
  refine ⟨fun now hnow => haccords.get_eq (Set.mem_insert _ _) hnow, fun again => ?_⟩
  rw [DirectoryCache.run_prepare, haccords.stored]
  by_cases hsame : account.stored = some again
  · exact ⟨reached, if_pos hsame, fun _ => rfl, fun hother => absurd hsame hother⟩
  · obtain ⟨t'', hrenew, hready', -, hempty'⟩ := DirectoryCache.run_renew_of_site 0
      haccords.ready.site (fun hnot => by
        rw [haccords.ready.installed.stands.exists?_eq_true] at hnot
        cases hnot) again
    refine ⟨t'', by rw [if_neg hsame, hrenew], fun hequal => absurd hequal hsame, fun _ now j => ?_⟩
    exact DirectoryCache.runOn_get_of_empty now hready'.installed hready'.numbered hempty' j

def teaTime : List Reopening.Event := [
  .call ⟨1500, .set "page".toList "tea".toList 2500 ⟨["chunks".toList]⟩⟩,
  .call ⟨1600, .set "menu".toList "milk".toList 0 ⟨["forms".toList]⟩⟩,
  .call ⟨1700, .invalidate ["forms".toList]⟩,
  .construct "1".toList]

theorem emptyTree_site : FileTree.Site {} [] "/cache".toList DirectoryCache.room := by
  have hplaces : Path.placesFrom [] "/cache".toList = [["cache".toList]] := by decide
  have hnames : Path.namesFrom [] "/cache".toList = ["cache".toList] := by decide
  have hbase : Path.base [] "/cache".toList = [] := by decide
  exact
    { nul_notMem := by decide
      length := by decide
      short := by decide
      founded := fun names h => by
        rw [hbase, List.prefix_nil] at h
        simp [h, FileTree.node?]
      free := by simp [FileTree.node?, Table.get?]
      straight := fun place hplace _ => by
        rw [hplaces] at hplace
        rw [hnames]
        exact List.mem_singleton.1 hplace
      apart := by decide }

theorem emptyTree_nothing : FileTree.exists? {} [] "/cache".toList = false →
    ∀ names, Path.namesFrom [] "/cache".toList <+: names → ({} : FileTree).node? names = none := by
  rintro - names h
  have hnil : names ≠ [] := by
    rintro rfl
    exact emptyTree_site.namesFrom_ne_nil (List.prefix_nil.1 h)
  simp [FileTree.node?, hnil, Table.get?]

theorem get_iff_keeping_reopened_tea :
    let events := .construct "1".toList :: teaTime
    let account := ({} : Reopening.Account).after events
    DirectoryCache.storedVersion {} [] "/cache".toList ≠ some "1".toList ∧
    (∃ s, Keeping account.history "page".toList s ∧ s.value = "tea".toList ∧
      (s.ttl = 0 ∨ 2999 / 1000 < s.stored / 1000 + max 1 (s.ttl / 1000))) ∧
    (¬ ∃ s, Keeping account.history "page".toList s ∧ s.value = "tea".toList ∧
      (s.ttl = 0 ∨ 3000 / 1000 < s.stored / 1000 + max 1 (s.ttl / 1000))) ∧
    ∃ reopened, ((DirectoryCache.unfailing [] "/cache".toList 0).prepare "2".toList).run
        (Reopening.after [] "/cache".toList {} events) = ((), reopened) ∧
      runOn ((DirectoryCache.unfailing [] "/cache".toList 2999).get "menu".toList) reopened =
        (.ok none, reopened) := by
  intro events account
  have hversion : DirectoryCache.storedVersion {} [] "/cache".toList ≠ some "1".toList := by
    decide +kernel
  have hkeys : Set.InjOn Digest.nameOf (insert "page".toList (Reopening.keysOf teaTime)) := by
    refine Digest.injOn_nameOf ?_ (by decide +kernel :
      (["page".toList, "menu".toList].map Digest.nameOf).Nodup)
    rintro key (rfl | hkey)
    · simp
    · have hasked : ∀ key ∈ teaTime.flatMap Reopening.Event.keys,
          key ∈ ["page".toList, "menu".toList] := by decide +kernel
      exact hasked key hkey
  have htags : Set.InjOn Digest.nameOf (Reopening.tagsOf teaTime) := by
    have hasked : ∀ tag ∈ teaTime.flatMap Reopening.Event.tags,
        tag ∈ ["chunks".toList, "forms".toList] := by decide +kernel
    exact Digest.injOn_nameOf hasked (by decide +kernel)
  have hfew : ∀ tag,
      (teaTime.flatMap Reopening.Event.invalidated).count tag ≤ CacheEntry.maxNumber :=
    fun tag => Nat.le_trans List.count_le_length (by decide)
  obtain ⟨hget, hreopen⟩ :=
    get_iff_keeping_reopened emptyTree_site emptyTree_nothing hversion hkeys htags hfew
  obtain ⟨found, hrun, hfound⟩ := hget 2999 (by decide)
  obtain ⟨found', hrun', hfound'⟩ := hget 3000 (by decide)
  obtain ⟨reopened, hagain, -, hother⟩ := hreopen "2".toList
  refine ⟨hversion, (hfound _).1 ?_, fun h => ?_, reopened, hagain, hother (by decide +kernel) _ _⟩
  · have hhit : (runOn ((DirectoryCache.unfailing [] "/cache".toList 2999).get "page".toList)
        (Reopening.after [] "/cache".toList {} events)).1 = .ok (some "tea".toList) := by
      decide +kernel
    rw [hrun] at hhit
    exact Except.ok.inj hhit
  · have hmiss : (runOn ((DirectoryCache.unfailing [] "/cache".toList 3000).get "page".toList)
        (Reopening.after [] "/cache".toList {} events)).1 = .ok none := by
      decide +kernel
    rw [hrun', (hfound' _).2 h] at hmiss
    cases hmiss

end ContentWeave
