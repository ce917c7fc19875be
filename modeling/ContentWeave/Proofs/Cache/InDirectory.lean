import ContentWeave.Proofs.Cache.Framing
import ContentWeave.Proofs.Cache.History
import ContentWeave.Proofs.Cache.Installed

/-!
# What a cache in a directory holds

As long as nothing fails, every call of an installed cache has one equation. What the cache holds is
read off its entries whose tags have the versions that the entries record; whether it lasts is not
looked at before it is read.
-/

namespace ContentWeave

def CacheEntry.holding? (e : CacheEntry) : Option Holding :=
  (Text.ofUtf8? e.value).map fun value =>
    ⟨value, if e.expires = 0 then none else some e.expires, e.tags.map Prod.fst⟩

theorem CacheEntry.holding?_lasts_iff (e : CacheEntry) (second : ℕ) (value : Text) :
    (∃ h, e.holding? = some h ∧ h.Lasts second ∧ h.value = value) ↔
      ¬ (e.expires ≠ 0 ∧ e.expires ≤ second) ∧ Text.ofUtf8? e.value = some value := by
  unfold holding?
  cases Text.ofUtf8? e.value with
  | none => simp
  | some text =>
    by_cases hzero : e.expires = 0
    · simp [hzero, Holding.Lasts]
    · simp [hzero, Holding.Lasts]

def Deposit.inSeconds (s : Deposit) : Holding where
  value := s.value
  expires := if s.ttl = 0 then none else some (DirectoryCache.expiry (s.stored / 1000) s.ttl)
  tags := s.dependency.tags

theorem Deposit.lasts_inSeconds (s : Deposit) {second : ℕ} (h : second < CacheEntry.maxNumber) :
    s.inSeconds.Lasts second ↔
      s.ttl = 0 ∨ second < s.stored / 1000 + max 1 (s.ttl / 1000) := by
  unfold inSeconds Holding.Lasts DirectoryCache.expiry
  by_cases httl : s.ttl = 0
  · simp [httl]
  · simp only [httl, if_false, Option.mem_some_iff, forall_eq', false_or]
    omega

namespace DirectoryCache

def unfailing (here : List Text) (root : Path) (now : ℕ) : DirectoryCache (StateM FileTree) :=
  { host := FileTree.host here (pure now), root }

variable {t : FileTree} {here : List Text} {root : Path} {now : ℕ} {key j tag value : Text}
variable {tags : List Text} {ttl : ℕ} {dependency : Dependency} {e : CacheEntry} {h : Holding}

def Numbered (t : FileTree) (here : List Text) (root : Path) : Prop :=
  ∀ tag content, fileIn t here root .tags tag = some content →
    ∃ n ≤ CacheEntry.maxNumber, content = (Text.ofNat n).toUtf8

def versionIn (t : FileTree) (here : List Text) (root : Path) (tag : Text) : ℕ :=
  ((fileIn t here root .tags tag).bind Text.ofUtf8?).elim 0 versionOf

def entryIn? (t : FileTree) (here : List Text) (root : Path) (key : Text) : Option CacheEntry :=
  (fileIn t here root .entries key).bind CacheEntry.decode?

def isCurrent (t : FileTree) (here : List Text) (root : Path) (recorded : List (Text × ℕ)) : Bool :=
  recorded.all fun (tag, version) => versionIn t here root tag = version

def held? (t : FileTree) (here : List Text) (root : Path) (key : Text) : Option Holding :=
  ((entryIn? t here root key).filter fun e => isCurrent t here root e.tags).bind
    CacheEntry.holding?

theorem isCurrent_iff {recorded : List (Text × ℕ)} : isCurrent t here root recorded = true ↔
    ∀ tag version, (tag, version) ∈ recorded → versionIn t here root tag = version := by
  simp [isCurrent]

theorem held?_eq_some_iff : held? t here root key = some h ↔
    ∃ e, entryIn? t here root key = some e ∧
      (∀ tag version, (tag, version) ∈ e.tags → versionIn t here root tag = version) ∧
      e.holding? = some h := by
  simp only [held?, Option.bind_eq_some_iff, Option.filter_eq_some_iff, isCurrent_iff, and_assoc]

theorem runOn_change (f : FileTree → Except FileError FileTree) (t : FileTree) :
    runOn (FileTree.change f : ExceptT FileError (StateM FileTree) Unit) t =
      match f t with
      | .ok t' => (.ok (), t')
      | .error e => (.error e, t) := by
  have hget : ∀ k : FileTree → ExceptT FileError (StateM FileTree) Unit,
      runOn (getThe FileTree >>= k) t = runOn (k t) t := fun _ => rfl
  rw [FileTree.change, hget]
  cases f t <;> rfl

section Calls

variable (hc : Installed t here root)

include hc

theorem runOn_store (drawer : Drawer) (s : Text) (content : Bytes) :
    runOn ((unfailing here root now).store (drawer.path root) (Digest.nameOf s) content) t =
      (.ok (), putIn t here root drawer s content) := by
  have hmade : runOn ((unfailing here root now).host.makeDirectories (drawer.path root)) t =
      (.ok (), t.make (drawer.names here root)) := by
    refine (runOn_change _ t).trans ?_
    rw [hc.makeDirectories_drawer drawer]
  have hwritten : runOn ((unfailing here root now).host.replace
      (Path.join (drawer.path root) (Digest.nameOf s)) content) (t.make (drawer.names here root)) =
        (.ok (), putIn t here root drawer s content) := by
    refine (runOn_change _ _).trans ?_
    rw [(hc.make drawer).write_file s content (hc.directory_make drawer), hc.putIn_make]
  rw [store, runOn_bind, runOn_attempt, hmade]
  simp only [Except.mapError]
  rw [runOn_attempt, hwritten]
  rfl

variable (hn : Numbered t here root)

include hn

theorem runOn_version (tag : Text) :
    runOn ((unfailing here root now).version tag) t = (.ok (versionIn t here root tag), t) := by
  have hread := hc.read_file .tags tag
  have hfile : runOn ((unfailing here root now).host.read ((unfailing here root now).tagFile tag)) t =
      (t.read here (Path.join (Drawer.tags.path root) (Digest.nameOf tag)), t) := rfl
  rw [runOn_version_eq, Host.runOn_readText, hfile, hread, versionIn]
  cases hcontent : fileIn t here root .tags tag with
  | none => rfl
  | some content =>
    obtain ⟨n, -, rfl⟩ := hn tag content hcontent
    simp only [bind, Except.bind, Host.decode, Text.ofUtf8?_toUtf8, Option.bind_some]
    rfl

theorem runOn_areCurrent (recorded : List (Text × ℕ)) :
    runOn ((unfailing here root now).areCurrent recorded) t =
      (.ok (isCurrent t here root recorded), t) := by
  induction recorded with
  | nil => rfl
  | cons entry recorded ih =>
    obtain ⟨tag, version⟩ := entry
    rw [areCurrent, runOn_bind, runOn_version hc hn]
    by_cases hv : versionIn t here root tag = version
    · simp only [hv, if_true, ih]
      simp [isCurrent, hv]
    · simp only [hv, if_false]
      simp [isCurrent, hv]
      rfl

variable (now) in
theorem runOn_get (key : Text) : ∃ found,
    runOn ((unfailing here root now).get key) t = (.ok found, t) ∧
      ∀ value, found = some value ↔
        ∃ h, held? t here root key = some h ∧ h.Lasts (now / 1000) ∧ h.value = value := by
  have hread := hc.read_file .entries key
  have hfile : runOn ((unfailing here root now).host.read
      ((unfailing here root now).entryFile key)) t =
      (t.read here (Path.join (Drawer.entries.path root) (Digest.nameOf key)), t) := rfl
  rw [hread] at hfile
  have hheld : ∀ value, (∃ h, held? t here root key = some h ∧ h.Lasts (now / 1000) ∧
      h.value = value) ↔ ∃ e, (fileIn t here root .entries key).bind CacheEntry.decode? = some e ∧
        isCurrent t here root e.tags = true ∧ ¬ (e.expires ≠ 0 ∧ e.expires ≤ now / 1000) ∧
          Text.ofUtf8? e.value = some value := by
    intro value
    simp only [held?_eq_some_iff, ← isCurrent_iff, entryIn?, ← CacheEntry.holding?_lasts_iff]
    constructor
    · rintro ⟨h, ⟨e, he, hcurrent, hholding⟩, hlasts⟩
      exact ⟨e, he, hcurrent, h, hholding, hlasts⟩
    · rintro ⟨e, he, hcurrent, h, hholding, hlasts⟩
      exact ⟨h, ⟨e, he, hcurrent, hholding⟩, hlasts⟩
  simp only [hheld]
  cases hcontent : fileIn t here root .entries key with
  | none =>
    rw [hcontent] at hfile
    refine ⟨none, ?_, by simp⟩
    rw [get, runOn_bind, runOn_ifFound, ← entryFile, hfile]
    rfl
  | some content =>
    rw [hcontent] at hfile
    rw [runOn_get_of_read hfile]
    have hnow : (unfailing here root now).host.now.run t = (now, t) := rfl
    cases he : CacheEntry.decode? content with
    | none => exact ⟨none, rfl, by simp [he]⟩
    | some e =>
      simp only [hnow, he, Option.bind_some]
      by_cases hover : e.expires ≠ 0 ∧ e.expires ≤ now / 1000
      · refine ⟨none, by rw [if_pos hover], fun value => ?_⟩
        simp [hover]
      · rw [if_neg hover, runOn_areCurrent hc hn]
        refine ⟨if isCurrent t here root e.tags then Text.ofUtf8? e.value else none, ?_, ?_⟩
        · cases isCurrent t here root e.tags <;> rfl
        · intro value
          simp only [Option.some.injEq, exists_eq_left', hover, not_false_eq_true, true_and]
          cases isCurrent t here root e.tags <;> simp

variable (now) in
theorem runOn_get_of_empty (hempty : ∀ drawer s, fileIn t here root drawer s = none) (key : Text) :
    runOn ((unfailing here root now).get key) t = (.ok none, t) := by
  obtain ⟨found, hrun, hfound⟩ := runOn_get now hc hn key
  have hnone : held? t here root key = none := by simp [held?, entryIn?, hempty]
  cases found with
  | none => exact hrun
  | some value =>
    obtain ⟨h, hheld, -⟩ := (hfound value).1 rfl
    rw [hnone] at hheld
    cases hheld

theorem readsAs_versionIn (tags : List Text) :
    (unfailing here root now).ReadsAs t (tags.map fun tag => (tag, versionIn t here root tag)) t := by
  induction tags with
  | nil => exact .nil t
  | cons tag tags ih => exact .cons (runOn_version hc hn tag) ih

theorem runOn_versions (tags : List Text) :
    runOn (tags.mapM fun tag => do return (tag, ← (unfailing here root now).version tag)) t =
      (.ok (tags.map fun tag => (tag, versionIn t here root tag)), t) := by
  have hread : (unfailing here root now).ReadsAs t _ t := readsAs_versionIn hc hn tags
  simpa [Function.comp_def] using hread.runOn_mapM

def entryFor (t : FileTree) (here : List Text) (root : Path) (s : Deposit) : CacheEntry where
  expires := expiry (s.stored / 1000) s.ttl
  tags := s.dependency.tags.map fun tag => (tag, versionIn t here root tag)
  value := s.value.toUtf8

theorem runOn_set (key value : Text) (ttl : ℕ) (dependency : Dependency) :
    runOn ((unfailing here root now).set key value ttl dependency) t =
      let e := entryFor t here root ⟨now, value, ttl, dependency⟩
      if CacheEntry.maxTagsLength < (CacheEntry.tagBytes e.tags).length then
        (.error (.backend "dependency list too large".toList), t)
      else (.ok (), putIn t here root .entries key e.encode) := by
  have hseconds : runOn (liftM (unfailing here root now).seconds :
      ExceptT CacheError (StateM FileTree) ℕ) t = (.ok (now / 1000), t) := rfl
  have hstored : ∀ content, runOn ((unfailing here root now).store
      (unfailing here root now).entriesDirectory ((unfailing here root now).nameOf key) content) t =
        (.ok (), putIn t here root .entries key content) := runOn_store hc .entries key
  rw [set, runOn_bind, runOn_versions hc hn]
  dsimp only [entryFor]
  by_cases hlong : CacheEntry.maxTagsLength < (CacheEntry.tagBytes
      (dependency.tags.map fun tag => (tag, versionIn t here root tag))).length
  · rw [if_pos hlong, if_pos hlong, runOn_bind]
    rfl
  · rw [if_neg hlong, if_neg hlong, runOn_bind, hseconds]
    dsimp only
    rw [hstored]

/-- Storing leaves the entry in the file of its key, and all other files of the cache as they are. -/
theorem exists_runOn_set (key value : Text) (ttl : ℕ) (dependency : Dependency)
    (hshort : (CacheEntry.tagBytes (entryFor t here root ⟨now, value, ttl, dependency⟩).tags).length ≤
      CacheEntry.maxTagsLength) :
    ∃ t', runOn ((unfailing here root now).set key value ttl dependency) t = (.ok (), t') ∧
      t'.read here ((unfailing here root now).entryFile key) =
        .ok (entryFor t here root ⟨now, value, ttl, dependency⟩).encode ∧
      ∀ drawer s, (drawer = .entries → Digest.nameOf s ≠ Digest.nameOf key) →
        fileIn t' here root drawer s = fileIn t here root drawer s := by
  set e := entryFor t here root ⟨now, value, ttl, dependency⟩ with he
  refine ⟨putIn t here root .entries key e.encode, ?_, ?_, fun drawer s hother => ?_⟩
  · rw [runOn_set hc hn]
    exact if_neg (Nat.not_lt.2 hshort)
  · have hfile : fileIn (putIn t here root .entries key e.encode) here root .entries key =
        some e.encode := by rw [fileIn_putIn, if_pos ⟨rfl, rfl⟩]
    have hread := (hc.putIn .entries key e.encode).read_file .entries key
    rw [hfile] at hread
    exact hread
  · rw [fileIn_putIn, if_neg fun h => hother h.1 h.2]

def bump (t : FileTree) (here : List Text) (root : Path) (tag : Text) : FileTree :=
  putIn t here root .tags tag
    (Text.ofNat ((versionIn t here root tag + 1) % (CacheEntry.maxNumber + 1))).toUtf8

theorem runOn_invalidate_cons (tag : Text) (tags : List Text) :
    runOn ((unfailing here root now).invalidate (tag :: tags)) t =
      runOn ((unfailing here root now).invalidate tags) (bump t here root tag) := by
  have hstored : ∀ content, runOn ((unfailing here root now).store
      (unfailing here root now).tagsDirectory ((unfailing here root now).nameOf tag) content) t =
        (.ok (), putIn t here root .tags tag content) := runOn_store hc .tags tag
  rw [invalidate, runOn_bind, runOn_version hc hn]
  dsimp only
  rw [runOn_bind, hstored]
  rfl

end Calls

section Effects

variable {content : Bytes} {s : Deposit}

theorem versionIn_put_entry (t : FileTree) (here : List Text) (root : Path) (key : Text)
    (content : Bytes) (tag : Text) :
    versionIn (putIn t here root .entries key content) here root tag = versionIn t here root tag := by
  rw [versionIn, fileIn_putIn, if_neg (by simp)]
  rfl

theorem fileIn_bump_entries (t : FileTree) (here : List Text) (root : Path) (tag key : Text) :
    fileIn (bump t here root tag) here root .entries key = fileIn t here root .entries key := by
  rw [bump, fileIn_putIn, if_neg (by simp)]

theorem versionIn_bump (t : FileTree) (here : List Text) (root : Path) (tag tag' : Text) :
    versionIn (bump t here root tag) here root tag' =
      if Digest.nameOf tag' = Digest.nameOf tag then
        (versionIn t here root tag + 1) % (CacheEntry.maxNumber + 1)
      else versionIn t here root tag' := by
  rw [versionIn, bump, fileIn_putIn]
  by_cases h : Digest.nameOf tag' = Digest.nameOf tag
  · have hle : (versionIn t here root tag + 1) % (CacheEntry.maxNumber + 1) ≤ CacheEntry.maxNumber :=
      Nat.le_of_lt_succ (Nat.mod_lt _ (Nat.succ_pos _))
    simp [h, Text.ofUtf8?_toUtf8, versionOf_ofNat hle]
  · simp [h, versionIn]

theorem Numbered.put_entry (hn : Numbered t here root) (key : Text) (content : Bytes) :
    Numbered (putIn t here root .entries key content) here root := by
  intro tag content' hcontent
  rw [fileIn_putIn, if_neg (by simp)] at hcontent
  exact hn tag content' hcontent

theorem Numbered.bump (hn : Numbered t here root) (tag : Text) :
    Numbered (bump t here root tag) here root := by
  intro tag' content hcontent
  rw [DirectoryCache.bump, fileIn_putIn] at hcontent
  split_ifs at hcontent with h
  · cases hcontent
    exact ⟨_, Nat.le_of_lt_succ (Nat.mod_lt _ (Nat.succ_pos _)), rfl⟩
  · exact hn tag' content hcontent

theorem Installed.bump (hc : Installed t here root) (tag : Text) :
    Installed (bump t here root tag) here root := hc.putIn .tags tag _

theorem Numbered.version_le (hn : Numbered t here root) (tag : Text) :
    versionIn t here root tag ≤ CacheEntry.maxNumber := by
  unfold versionIn
  cases hcontent : fileIn t here root .tags tag with
  | none => exact Nat.zero_le _
  | some content =>
    obtain ⟨n, hle, rfl⟩ := hn tag content hcontent
    simp [Text.ofUtf8?_toUtf8, versionOf_ofNat hle, hle]

theorem entryIn?_put_entry_self (hn : Numbered t here root) (key : Text)
    (hshort : (CacheEntry.tagBytes (entryFor t here root s).tags).length ≤
      CacheEntry.maxTagsLength) :
    entryIn? (putIn t here root .entries key (entryFor t here root s).encode) here root key =
      some (entryFor t here root s) := by
  rw [entryIn?, fileIn_putIn, if_pos ⟨rfl, rfl⟩, Option.bind_some]
  refine CacheEntry.decode?_encode ?_ ?_ hshort
  · simp only [entryFor, expiry]
    split
    · exact Nat.zero_le _
    · exact Nat.min_le_right _ _
  · intro entry hentry
    obtain ⟨tag, -, rfl⟩ := List.mem_map.1 hentry
    exact hn.version_le tag

theorem held?_put_entry_self (hn : Numbered t here root) (key : Text)
    (hshort : (CacheEntry.tagBytes (entryFor t here root s).tags).length ≤
      CacheEntry.maxTagsLength) :
    held? (putIn t here root .entries key (entryFor t here root s).encode) here root key =
      some s.inSeconds := by
  rw [held?_eq_some_iff]
  refine ⟨_, entryIn?_put_entry_self hn key hshort, fun tag version hmem => ?_, ?_⟩
  · obtain ⟨tag', -, heq⟩ := List.mem_map.1 hmem
    cases heq
    exact versionIn_put_entry ..
  · have hend : expiry (s.stored / 1000) s.ttl = 0 ↔ s.ttl = 0 := by
      unfold expiry CacheEntry.maxNumber
      split <;> omega
    simp [CacheEntry.holding?, entryFor, Deposit.inSeconds, Text.ofUtf8?_toUtf8, hend,
      Function.comp_def]

theorem entryIn?_put_entry_of_ne (h : Digest.nameOf j ≠ Digest.nameOf key) :
    entryIn? (putIn t here root .entries key content) here root j = entryIn? t here root j := by
  rw [entryIn?, fileIn_putIn, if_neg (by simp [h])]
  rfl

theorem held?_put_entry_of_ne (h : Digest.nameOf j ≠ Digest.nameOf key) :
    held? (putIn t here root .entries key content) here root j = held? t here root j := by
  simp only [held?, entryIn?_put_entry_of_ne h, isCurrent, versionIn_put_entry]

def bumpAll (t : FileTree) (here : List Text) (root : Path) (tags : List Text) : FileTree :=
  tags.foldl (fun t tag => bump t here root tag) t

theorem bumpAll_cons (t : FileTree) (here : List Text) (root : Path) (tag : Text)
    (tags : List Text) :
    bumpAll t here root (tag :: tags) = bumpAll (bump t here root tag) here root tags := rfl

theorem runOn_invalidate (hc : Installed t here root) (hn : Numbered t here root)
    (tags : List Text) :
    runOn ((unfailing here root now).invalidate tags) t = (.ok (), bumpAll t here root tags) := by
  induction tags generalizing t with
  | nil => rfl
  | cons tag tags ih =>
    rw [runOn_invalidate_cons hc hn, ih (hc.bump tag) (hn.bump tag)]
    rfl

theorem entryIn?_bumpAll (t : FileTree) (here : List Text) (root : Path) (tags : List Text)
    (key : Text) : entryIn? (bumpAll t here root tags) here root key = entryIn? t here root key := by
  induction tags generalizing t with
  | nil => rfl
  | cons tag tags ih =>
    rw [bumpAll_cons, ih, entryIn?, fileIn_bump_entries]
    rfl

theorem versionIn_bumpAll {texts : Set Text} (hnames : Set.InjOn Digest.nameOf texts)
    (htags : ∀ tag ∈ tags, tag ∈ texts) (htag : tag ∈ texts)
    (hroom : versionIn t here root tag + tags.count tag ≤ CacheEntry.maxNumber) :
    versionIn (bumpAll t here root tags) here root tag =
      versionIn t here root tag + tags.count tag := by
  induction tags generalizing t with
  | nil => rfl
  | cons first tags ih =>
    rw [List.count_cons] at hroom
    have hbump : versionIn (bump t here root first) here root tag =
        versionIn t here root tag + if first == tag then 1 else 0 := by
      rw [versionIn_bump]
      by_cases heq : tag = first
      · subst heq
        simp only [beq_self_eq_true, if_true] at hroom ⊢
        exact Nat.mod_eq_of_lt (by omega)
      · have hname : Digest.nameOf tag ≠ Digest.nameOf first := fun hname =>
          heq (hnames htag (htags first (by simp)) hname)
        simp [hname, Ne.symm heq]
    rw [bumpAll_cons, ih (fun tag' h => htags tag' (by simp [h])) (by omega), hbump,
      List.count_cons]
    omega

theorem held?_bumpAll {texts : Set Text} (hnames : Set.InjOn Digest.nameOf texts)
    (htags : ∀ tag ∈ tags, tag ∈ texts)
    (hentry : ∀ e, entryIn? t here root key = some e → ∀ tag version, (tag, version) ∈ e.tags →
      tag ∈ texts ∧ version ≤ versionIn t here root tag)
    (hroom : ∀ tag ∈ texts, versionIn t here root tag + tags.count tag ≤ CacheEntry.maxNumber) :
    held? (bumpAll t here root tags) here root key = some h ↔
      held? t here root key = some h ∧ ∀ tag ∈ h.tags, tag ∉ tags := by
  rw [held?_eq_some_iff, held?_eq_some_iff, entryIn?_bumpAll]
  have hcurrent := fun e (he : entryIn? t here root key = some e) =>
    current_iff_of_invalidated (fun tag version hm => (hentry e he tag version hm).2)
      fun tag version hm =>
        have hmem := (hentry e he tag version hm).1
        versionIn_bumpAll hnames htags hmem (hroom tag hmem)
  have hsame : ∀ e, CacheEntry.holding? e = some h → h.tags = e.tags.map Prod.fst := by
    intro e hh
    obtain ⟨value, -, rfl⟩ := Option.map_eq_some_iff.1 hh
    rfl
  constructor
  · rintro ⟨e, he, hcur, hh⟩
    obtain ⟨hbefore, htagged⟩ := (hcurrent e he).1 hcur
    exact ⟨⟨e, he, hbefore, hh⟩, hsame e hh ▸ htagged⟩
  · rintro ⟨⟨e, he, hbefore, hh⟩, htagged⟩
    exact ⟨e, he, (hcurrent e he).2 ⟨hbefore, hsame e hh ▸ htagged⟩, hh⟩

end Effects

end DirectoryCache
end ContentWeave
