import ContentWeave.Proofs.Cache.EntryFile

/-!
# What a cache makes of its files

Bytes that are not laid out as an entry are no entry, and neither are those whose tags cannot be read.
A cache that finds such a file answers that it holds nothing; it fails only where it has to read the
version of a tag and cannot. A value that it answers with stood in the file, behind all the rest. This
is so on every host, whatever else happens to the files meanwhile.
-/

namespace ContentWeave

namespace DirectoryCache

variable {σ : Type} {c : DirectoryCache (StateM σ)} {s s' s₁ : σ} {key tag value : Text}
variable {tags : List (Text × ℕ)} {bytes : Bytes} {error : CacheError}

def tagFile (c : DirectoryCache (StateM σ)) (tag : Text) : Path :=
  Path.join c.tagsDirectory (c.nameOf tag)

def entryFile (c : DirectoryCache (StateM σ)) (key : Text) : Path :=
  Path.join c.entriesDirectory (c.nameOf key)

/-- Tags have, read one after the other, the versions that they are listed with. -/
inductive ReadsAs (c : DirectoryCache (StateM σ)) : σ → List (Text × ℕ) → σ → Prop
  | nil (s : σ) : ReadsAs c s [] s
  | cons {s s' s'' : σ} {tag : Text} {version : ℕ} {tags : List (Text × ℕ)}
      (h : runOn (c.version tag) s = (.ok version, s')) (hs : ReadsAs c s' tags s'') :
      ReadsAs c s ((tag, version) :: tags) s''

/-- Of some tags one cannot be read, and those in front of it have the versions that they are listed
with. -/
def FailsAt (c : DirectoryCache (StateM σ)) (s : σ) (tags : List (Text × ℕ)) (error : CacheError)
    (s' : σ) : Prop :=
  ∃ front tag version rest w cause, tags = front ++ (tag, version) :: rest ∧ c.ReadsAs s front w ∧
    runOn (c.host.readText (c.tagFile tag)) w = (.error cause, s') ∧ cause ≠ .notFound ∧
    error = .io cause

theorem versionOf_le (content : Text) : versionOf content ≤ CacheEntry.maxNumber := by
  unfold versionOf
  cases h : Number.natural? (Text.trim content) with
  | none => exact Nat.zero_le _
  | some n =>
    unfold Number.natural? at h
    dsimp only at h
    split_ifs at h with _ hmax
    cases h
    exact hmax

theorem runOn_version_eq (c : DirectoryCache (StateM σ)) (tag : Text) (s : σ) :
    runOn (c.version tag) s =
      match runOn (c.host.readText (c.tagFile tag)) s with
      | (.ok content, s') => (.ok (versionOf content), s')
      | (.error .notFound, s') => (.ok 0, s')
      | (.error cause, s') => (.error (.io cause), s') := by
  rw [version, runOn_bind, runOn_ifFound, ← tagFile]
  rcases runOn (c.host.readText (c.tagFile tag)) s with ⟨⟨cause⟩ | ⟨content⟩, s'⟩
  · cases cause <;> rfl
  · rfl

theorem version_le_of_runOn {version : ℕ} (h : runOn (c.version tag) s = (.ok version, s')) :
    version ≤ CacheEntry.maxNumber := by
  rw [runOn_version_eq] at h
  split at h
  · cases h
    exact versionOf_le _
  · cases h
    exact Nat.zero_le _
  · cases h

theorem exists_of_version_eq_error (h : runOn (c.version tag) s = (.error error, s')) :
    ∃ cause, runOn (c.host.readText (c.tagFile tag)) s = (.error cause, s') ∧ cause ≠ .notFound ∧
      error = .io cause := by
  rw [runOn_version_eq] at h
  split at h
  · cases h
  · cases h
  · rename_i cause s' hne hread
    cases h
    exact ⟨cause, hread, hne, rfl⟩

theorem ReadsAs.version_le (h : c.ReadsAs s tags s') :
    ∀ entry ∈ tags, entry.2 ≤ CacheEntry.maxNumber := by
  induction h with
  | nil => simp
  | cons h _ ih =>
    intro entry hentry
    rcases List.mem_cons.1 hentry with rfl | hentry
    · exact version_le_of_runOn h
    · exact ih entry hentry

theorem areCurrent_eq_true_iff :
    runOn (c.areCurrent tags) s = (.ok true, s') ↔ c.ReadsAs s tags s' := by
  induction tags generalizing s with
  | nil =>
    constructor
    · intro h
      cases h
      exact .nil _
    · rintro ⟨⟩
      rfl
  | cons entry tags ih =>
    obtain ⟨tag, version⟩ := entry
    rw [areCurrent, runOn_bind]
    constructor
    · intro h
      split at h
      · rename_i current w hversion
        split_ifs at h with heq
        · subst heq
          exact .cons hversion (ih.1 h)
        · cases h
      · cases h
    · rintro (_ | ⟨hversion, hrest⟩)
      rw [hversion]
      dsimp only
      rw [if_pos rfl]
      exact ih.2 hrest

theorem failsAt_of_areCurrent_eq_error (h : runOn (c.areCurrent tags) s = (.error error, s')) :
    c.FailsAt s tags error s' := by
  induction tags generalizing s with
  | nil => cases h
  | cons entry tags ih =>
    obtain ⟨tag, version⟩ := entry
    rw [areCurrent, runOn_bind] at h
    split at h
    · rename_i current w hversion
      split_ifs at h with heq
      · subst heq
        obtain ⟨front, tag', version', rest, w', cause, rfl, hfront, hfails⟩ := ih h
        exact ⟨(tag, current) :: front, tag', version', rest, w', cause, rfl,
          .cons hversion hfront, hfails⟩
      · cases h
    · rename_i e w hversion
      cases h
      obtain ⟨cause, hread, hne, rfl⟩ := exists_of_version_eq_error hversion
      exact ⟨[], tag, version, tags, s, cause, rfl, .nil s, hread, hne, rfl⟩

theorem ReadsAs.runOn_mapM (h : c.ReadsAs s tags s') :
    runOn ((tags.map Prod.fst).mapM fun tag => do return (tag, ← c.version tag)) s =
      (.ok tags, s') := by
  induction h with
  | nil => rfl
  | @cons s w s'' tag version tags hversion _ ih =>
    have htag : runOn (do return (tag, ← c.version tag)) s = (.ok (tag, version), w) := by
      rw [runOn_bind, hversion]
      rfl
    rw [List.map_cons, List.mapM_cons, runOn_bind, htag]
    dsimp only
    rw [runOn_bind, ih]
    rfl

theorem runOn_seconds (c : DirectoryCache (StateM σ)) (s : σ) :
    runOn (liftM c.seconds : ExceptT CacheError (StateM σ) ℕ) s =
      (.ok ((c.host.now.run s).1 / 1000), (c.host.now.run s).2) := rfl

def laidOut (c : DirectoryCache (StateM σ)) (tags : List (Text × ℕ)) (value : Text) (ttl : ℕ) (s : σ) :
    CacheEntry :=
  ⟨expiry ((c.host.now.run s).1 / 1000) ttl, tags, value.toUtf8⟩

theorem runOn_set_of_readsAs (h : c.ReadsAs s tags s₁)
    (hlength : (CacheEntry.tagBytes tags).length ≤ CacheEntry.maxTagsLength) (key value : Text)
    (ttl : ℕ) :
    runOn (c.set key value ttl ⟨tags.map Prod.fst⟩) s =
      runOn (c.store c.entriesDirectory (c.nameOf key) (c.laidOut tags value ttl s₁).encode)
        (c.host.now.run s₁).2 := by
  rw [set, runOn_bind, h.runOn_mapM]
  dsimp only
  rw [if_neg (Nat.not_lt.2 hlength), runOn_bind, runOn_seconds]
  rfl

theorem expiry_le (now ttl : ℕ) : expiry now ttl ≤ CacheEntry.maxNumber := by
  unfold expiry
  split_ifs
  · exact Nat.zero_le _
  · exact Nat.min_le_right _ _

theorem runOn_get_of_read (h : runOn (c.host.read (c.entryFile key)) s = (.ok bytes, s₁)) :
    runOn (c.get key) s =
      match CacheEntry.decode? bytes with
      | none => (.ok none, s₁)
      | some e =>
        if e.expires ≠ 0 ∧ e.expires ≤ (c.host.now.run s₁).1 / 1000 then
          (.ok none, (c.host.now.run s₁).2)
        else match runOn (c.areCurrent e.tags) (c.host.now.run s₁).2 with
          | (.ok true, s') => (.ok (Text.ofUtf8? e.value), s')
          | (.ok false, s') => (.ok none, s')
          | (.error error, s') => (.error error, s') := by
  rw [get, runOn_bind, runOn_ifFound, ← entryFile, h]
  dsimp only [foundOf]
  cases CacheEntry.decode? bytes with
  | none => rfl
  | some e =>
    dsimp only
    rw [runOn_bind, runOn_seconds]
    dsimp only
    split_ifs with hover
    · rfl
    · rw [runOn_bind]
      rcases runOn (c.areCurrent e.tags) (c.host.now.run s₁).2 with ⟨⟨error⟩ | ⟨_ | _⟩, s'⟩ <;> rfl

theorem decode?_laidOut (h : c.ReadsAs s tags s₁)
    (hlength : (CacheEntry.tagBytes tags).length ≤ CacheEntry.maxTagsLength) (value : Text)
    (ttl : ℕ) :
    CacheEntry.decode? (c.laidOut tags value ttl s₁).encode = some (c.laidOut tags value ttl s₁) :=
  CacheEntry.decode?_encode (expiry_le _ _) h.version_le hlength

theorem failsAt_of_get_eq_error (hread : runOn (c.host.read (c.entryFile key)) s = (.ok bytes, s₁))
    (h : runOn (c.get key) s = (.error error, s')) :
    ∃ e, CacheEntry.decode? bytes = some e ∧
      c.FailsAt (c.host.now.run s₁).2 e.tags error s' := by
  rw [runOn_get_of_read hread] at h
  split at h
  · cases h
  · rename_i e hdecode
    split_ifs at h
    · cases h
    · split at h
      · cases h
      · cases h
      · rename_i hcurrent
        cases h
        exact ⟨e, hdecode, failsAt_of_areCurrent_eq_error hcurrent⟩

theorem get_eq_some_iff (hread : runOn (c.host.read (c.entryFile key)) s = (.ok bytes, s₁)) :
    runOn (c.get key) s = (.ok (some value), s') ↔
      ∃ e, CacheEntry.decode? bytes = some e ∧ e.value = value.toUtf8 ∧
        (e.expires = 0 ∨ (c.host.now.run s₁).1 / 1000 < e.expires) ∧
        c.ReadsAs (c.host.now.run s₁).2 e.tags s' := by
  rw [runOn_get_of_read hread]
  constructor
  · intro h
    split at h
    · cases h
    · rename_i e hdecode
      split_ifs at h with hover
      · cases h
      · split at h
        · rename_i w hcurrent
          obtain ⟨hvalue, rfl⟩ := Prod.mk.inj h
          exact ⟨e, hdecode, Text.ofUtf8?_eq_some_iff.1 (Except.ok.inj hvalue), by omega,
            areCurrent_eq_true_iff.1 hcurrent⟩
        · cases h
        · cases h
  · rintro ⟨e, hdecode, hvalue, hlasts, hcurrent⟩
    rw [hdecode]
    dsimp only
    rw [if_neg (by omega), areCurrent_eq_true_iff.2 hcurrent, hvalue, Text.ofUtf8?_toUtf8]

/-- Entries are read back from their files, those too that `set` lays out, whatever their value. And
of a file that is found `get` makes a value only if it is framed as an entry of that value, whose end
is not reached and whose tags have their versions; it fails only if a tag cannot be read. -/
theorem entry_files_are_framed (c : DirectoryCache (StateM σ)) :
    (∀ e : CacheEntry, e.expires ≤ CacheEntry.maxNumber →
      (∀ entry ∈ e.tags, entry.2 ≤ CacheEntry.maxNumber) →
      (CacheEntry.tagBytes e.tags).length < Nat.pow 2 32 → CacheEntry.decode? e.encode = some e) ∧
    (∀ key value ttl tags s s₁, c.ReadsAs s tags s₁ →
      (CacheEntry.tagBytes tags).length < Nat.pow 2 32 →
      runOn (c.set key value ttl ⟨tags.map Prod.fst⟩) s =
        runOn (c.store c.entriesDirectory (c.nameOf key) (c.laidOut tags value ttl s₁).encode)
          (c.host.now.run s₁).2 ∧
      CacheEntry.decode? (c.laidOut tags value ttl s₁).encode =
        some (c.laidOut tags value ttl s₁)) ∧
    ∀ key bytes s s₁, runOn (c.host.read (c.entryFile key)) s = (.ok bytes, s₁) →
      (∀ error s', runOn (c.get key) s = (.error error, s') →
        ∃ e expires length json, CacheEntry.Frames e bytes expires length json ∧
          c.FailsAt (c.host.now.run s₁).2 e.tags error s') ∧
      ∀ value s', runOn (c.get key) s = (.ok (some value), s') ↔
        ∃ e expires length json, CacheEntry.Frames e bytes expires length json ∧
          e.value = value.toUtf8 ∧
          (e.expires = 0 ∨ (c.host.now.run s₁).1 / 1000 < e.expires) ∧
          c.ReadsAs (c.host.now.run s₁).2 e.tags s' := by
  have hmax : ∀ n, n < Nat.pow 2 32 → n ≤ CacheEntry.maxTagsLength := fun n hn => Nat.le_of_lt_succ hn
  refine ⟨fun e hexpires htags hlength => CacheEntry.decode?_encode hexpires htags (hmax _ hlength),
    fun key value ttl tags s s₁ hreads hlength => ⟨runOn_set_of_readsAs hreads (hmax _ hlength) _ _ _,
      decode?_laidOut hreads (hmax _ hlength) _ _⟩,
    fun key bytes s s₁ hread => ⟨fun error s' h => ?_, fun value s' => ?_⟩⟩
  · obtain ⟨e, hdecode, hfails⟩ := failsAt_of_get_eq_error hread h
    obtain ⟨expires, length, json, hframes⟩ := CacheEntry.decode?_eq_some_iff.1 hdecode
    exact ⟨e, expires, length, json, hframes, hfails⟩
  · simp only [get_eq_some_iff hread, CacheEntry.decode?_eq_some_iff, exists_and_right]

def pageCache : DirectoryCache (StateM FileTree) where
  host := FileTree.host [] (pure 5000)
  root := "cache".toList
  nameOf := id

def pageEntry : CacheEntry := ⟨6, [("page".toList, 2)], Text.toUtf8 "tea".toList⟩

def pageTree : FileTree where
  nodes := .ofList [(["cache".toList], .directory),
    (["cache".toList, "entries".toList], .directory),
    (["cache".toList, "entries".toList, "menu".toList], .file pageEntry.encode),
    (["cache".toList, "entries".toList, "torn".toList], .file (pageEntry.encode.take 11)),
    (["cache".toList, "tags".toList], .directory),
    (["cache".toList, "tags".toList, "page".toList], .file (Text.toUtf8 "2".toList))]

theorem entry_files_are_framed_menu :
    CacheEntry.decode? pageEntry.encode = some pageEntry ∧
    CacheEntry.decode? (pageCache.laidOut [("page".toList, 2)] "tea".toList 1000 pageTree).encode =
      some pageEntry ∧
    runOn (pageCache.get "menu".toList) pageTree = (.ok (some "tea".toList), pageTree) ∧
    ∀ value t, runOn (pageCache.get "torn".toList) pageTree ≠ (.ok (some value), t) := by
  obtain ⟨hback, hset, hget⟩ := entry_files_are_framed pageCache
  have hreads : pageCache.ReadsAs pageTree pageEntry.tags pageTree :=
    .cons (Prod.ext (by decide +kernel) rfl) (.nil _)
  have hsize : (CacheEntry.tagBytes pageEntry.tags).length < Nat.pow 2 32 := by decide +kernel
  refine ⟨hback _ (by decide) (by decide) hsize, ?_, ?_, fun value t h => ?_⟩
  · exact (hset [] _ 1000 _ _ _ hreads hsize).2
  · refine ((hget "menu".toList pageEntry.encode pageTree pageTree
      (Prod.ext (by decide +kernel) rfl)).2 _ _).2 ?_
    obtain ⟨expires, length, json, hframes⟩ :=
      CacheEntry.decode?_eq_some_iff.1 (hback _ (by decide) (by decide) hsize)
    exact ⟨pageEntry, expires, length, json, hframes, rfl, by decide +kernel, hreads⟩
  · obtain ⟨e, expires, length, json, hframes, -⟩ := ((hget "torn".toList (pageEntry.encode.take 11)
      pageTree pageTree (Prod.ext (by decide +kernel) rfl)).2 value t).1 h
    have hsize := congrArg List.length hframes.bytes_eq
    have htorn : (pageEntry.encode.take 11).length = 11 := by decide +kernel
    rw [htorn] at hsize
    simp only [List.length_append, hframes.length_expires, hframes.length_length] at hsize
    omega

end DirectoryCache
end ContentWeave
