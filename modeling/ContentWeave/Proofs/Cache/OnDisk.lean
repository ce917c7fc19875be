import ContentWeave.Proofs.Cache.Layout
import ContentWeave.Proofs.Cache.Sound

/-!
# Caches in directories are sound

An entry is written with the length of its tags in front of them, so that its value is read back
whatever the tags are. The file of an entry is written only for its key: files of other keys have
other names, and files of tags stand in another directory.
-/

namespace ContentWeave

namespace disk

variable {here : List Text} {inv : World → Prop} {path : Path}

theorem read_keeps {post : Bytes → Prop} (ht : Enduring inv)
    (h : ∀ w, inv w → ∀ content, w.tree.read here path = .ok content → post content) :
    Keeps inv ((disk here).read path) post := by
  refine Keeps.exposed ht fun w hw => ?_
  have hrun : runOn ((FileTree.host here World.clock).read path) w =
      (w.tree.read here path, w) := rfl
  rw [hrun]
  exact ⟨hw, h w hw⟩

theorem runOn_change (f : FileTree → Except FileError FileTree) (w : World) :
    runOn (FileTree.change f : ExceptT FileError (StateM World) Unit) w =
      match f w.tree with
      | .ok t => (.ok (), { w with tree := t })
      | .error e => (.error e, w) := by
  have hget : ∀ k : FileTree → ExceptT FileError (StateM World) Unit,
      runOn (getThe FileTree >>= k) w = runOn (k w.tree) w := fun _ => rfl
  rw [FileTree.change, hget]
  cases f w.tree <;> rfl

theorem change_keeps {f : FileTree → Except FileError FileTree}
    (h : ∀ w t, inv w → f w.tree = .ok t → inv { w with tree := t }) :
    Keeps inv (FileTree.change f : ExceptT FileError (StateM World) Unit) fun _ => True := by
  intro w hw
  refine ⟨?_, fun _ _ => trivial⟩
  rw [runOn_change]
  cases hf : f w.tree with
  | ok t => exact h w t hw hf
  | error e => exact hw

theorem readText_keeps (ht : Enduring inv) :
    Keeps inv ((disk here).readText path) fun _ => True := by
  have hread : Keeps inv ((disk here).read path) fun _ => True := read_keeps ht fun _ _ _ _ => trivial
  refine Keeps.bind hread fun content _ w hw => ⟨hw, fun _ _ => trivial⟩

theorem replace_keeps {content : Bytes} (ht : Enduring inv)
    (h : ∀ w t, inv w → w.tree.write here path content = .ok t → inv { w with tree := t }) :
    Keeps inv ((disk here).replace path content) fun _ => True :=
  Keeps.exposed ht (change_keeps h)

theorem makeDirectories_keeps (ht : Enduring inv)
    (h : ∀ w t, inv w → w.tree.makeDirectories here path = .ok t → inv { w with tree := t }) :
    Keeps inv ((disk here).makeDirectories path) fun _ => True :=
  Keeps.exposed ht (change_keeps h)

end disk

namespace Backend

variable {here : List Text} {root : Path} {keys : Set Text} {fits : Text → Text → Prop}

theorem names_of_digest {directory : Text} (hd : Path.PlainName directory) (s : Text) :
    Path.namesFrom here (Path.join (Path.join root directory) (Digest.nameOf s)) =
      Path.namesFrom here root ++ [directory, Digest.nameOf s] := by
  rw [Path.namesFrom_join (Digest.plainName_nameOf s).entryName,
    Path.namesFrom_join hd.entryName, List.append_assoc]
  rfl

theorem names_of_entry (key : Text) :
    Path.namesFrom here (Path.join (directoryCache here root).entriesDirectory
      ((directoryCache here root).nameOf key)) = entryNames here root key :=
  names_of_digest (.of_all (by decide) (by decide)) key

theorem names_of_tag (tag : Text) :
    Path.namesFrom here (Path.join (directoryCache here root).tagsDirectory
      ((directoryCache here root).nameOf tag)) =
      Path.namesFrom here root ++ ["tags".toList, Digest.nameOf tag] :=
  names_of_digest (.of_all (by decide) (by decide)) tag

theorem entryNames_ne_tagNames (key tag : Text) :
    entryNames here root key ≠ Path.namesFrom here root ++ ["tags".toList, Digest.nameOf tag] := by
  intro h
  have htail := List.append_cancel_left h
  have hhead : "entries".toList = "tags".toList := (List.cons.inj htail).1
  exact absurd hhead (by decide)

theorem nameOf_eq_of_entryNames {key key' : Text}
    (h : entryNames here root key = entryNames here root key') :
    Digest.nameOf key = Digest.nameOf key' := by
  have htail := List.append_cancel_left h
  simpa using htail

theorem kept?_directory_eq_some {w : World} {key value : Text}
    (h : (directory here root).kept? w key = some value) :
    ∃ bytes, w.tree.node? (entryNames here root key) = some (.file bytes) ∧
      textOf? (.file bytes) = some value := by
  obtain ⟨node, hnode, htext⟩ := Option.bind_eq_some_iff.1 h
  cases node with
  | directory => cases htext
  | file bytes => exact ⟨bytes, hnode, htext⟩

theorem Holds.of_files {w : World} {t : FileTree} (h : (directory here root).Holds keys fits w)
    (ht : ∀ key ∈ keys, ∀ bytes, t.node? (entryNames here root key) = some (.file bytes) →
      (∀ value ∈ textOf? (.file bytes), fits key value) ∨
        w.tree.node? (entryNames here root key) = some (.file bytes)) :
    (directory here root).Holds keys fits { w with tree := t } := by
  intro key hkey value hv
  obtain ⟨bytes, hnode, htext⟩ := kept?_directory_eq_some hv
  rcases ht key hkey bytes hnode with hfits | hbefore
  · exact hfits value htext
  · refine h key hkey value ?_
    rw [kept?, hbefore]
    exact htext

theorem makeDirectories_holds (path : Path) :
    Keeps ((directory here root).Holds keys fits) ((disk here).makeDirectories path)
      fun _ => True := by
  refine disk.makeDirectories_keeps (enduring_holds _) fun w t hw h => hw.of_files ?_
  intro key _ bytes hnode
  exact .inr (FileTree.file_of_makeDirectories h hnode)

section Enduring

variable {inv : World → Prop} (ht : Enduring inv)

include ht

theorem version_keeps (tag : Text) :
    Keeps inv ((directoryCache here root).version tag) fun _ => True := by
  unfold DirectoryCache.version
  refine Keeps.bind (Keeps.ifFound (disk.readText_keeps ht)) fun found _ => ?_
  cases found with
  | none => exact Keeps.pure trivial
  | some content => exact Keeps.pure trivial

theorem areCurrent_keeps (tags : List (Text × ℕ)) :
    Keeps inv ((directoryCache here root).areCurrent tags) fun _ => True := by
  induction tags with
  | nil => exact Keeps.pure trivial
  | cons entry tags ih =>
    obtain ⟨tag, version⟩ := entry
    rw [DirectoryCache.areCurrent]
    refine Keeps.bind (version_keeps ht tag) fun current _ => ?_
    split_ifs
    · exact ih
    · exact Keeps.pure trivial

omit ht in
theorem seconds_keeps :
    Keeps inv (liftM (directoryCache here root).seconds : ExceptT CacheError (StateM World) ℕ)
      fun _ => True :=
  Keeps.lift fun _ => rfl

theorem get_keeps {key : Text} {post : Text → Prop}
    (h : ∀ w bytes, inv w → w.tree.node? (entryNames here root key) = some (.file bytes) →
      ∀ value ∈ textOf? (.file bytes), post value) :
    Keeps inv ((directoryCache here root).get key) fun found => ∀ value ∈ found, post value := by
  have hread : Keeps inv ((disk here).read (Path.join (directoryCache here root).entriesDirectory
        ((directoryCache here root).nameOf key)))
      fun bytes => ∀ value ∈ textOf? (.file bytes), post value := by
    refine disk.read_keeps ht fun w hw bytes hread => ?_
    have hnode := FileTree.node?_of_read hread
    rw [names_of_entry] at hnode
    exact h w bytes hw hnode
  unfold DirectoryCache.get
  refine Keeps.bind (Keeps.ifFound hread) fun found hfound => ?_
  cases found with
  | none => exact Keeps.pure (by simp)
  | some bytes =>
    have hbytes := hfound bytes rfl
    dsimp only
    cases he : CacheEntry.decode? bytes with
    | none => exact Keeps.pure (by simp)
    | some e =>
      refine Keeps.bind seconds_keeps fun now _ => ?_
      split_ifs
      · exact Keeps.pure (by simp)
      · refine Keeps.bind (areCurrent_keeps ht _) fun current _ => ?_
        split_ifs
        · refine Keeps.pure fun value hv => hbytes value ?_
          simpa [textOf?, he] using hv
        · exact Keeps.pure (by simp)

end Enduring

theorem get_holds {key : Text} (hkey : key ∈ keys) :
    Keeps ((directory here root).Holds keys fits) ((directoryCache here root).get key)
      fun found => ∀ value ∈ found, fits key value := by
  refine get_keeps (enduring_holds _) fun w bytes hw hnode value hv => hw key hkey value ?_
  rw [kept?, hnode]
  exact hv

theorem set_holds (hnames : Set.InjOn Digest.nameOf keys) {key value : Text} (hkey : key ∈ keys)
    (ttl : ℕ) (dependency : Dependency) (hfits : fits key value) :
    Keeps ((directory here root).Holds keys fits)
      ((directoryCache here root).set key value ttl dependency) fun _ => True := by
  unfold DirectoryCache.set
  have hversion : ∀ tag : Text, Keeps ((directory here root).Holds keys fits)
      (do return (tag, ← (directoryCache here root).version tag)) fun _ => True :=
    fun tag => Keeps.bind (version_keeps (enduring_holds _) tag) fun _ _ => Keeps.pure trivial
  refine Keeps.bind (Keeps.mapM hversion _) fun tags _ => ?_
  split_ifs with hlong
  · exact Keeps.bind (Keeps.throw _) fun _ (h : False) => h.elim
  · refine Keeps.bind seconds_keeps fun now _ => ?_
    refine Keeps.bind (Keeps.attempt (makeDirectories_holds _)) fun _ _ => ?_
    refine Keeps.attempt (disk.replace_keeps (enduring_holds _) fun w t hw h => hw.of_files ?_)
    intro j hj bytes hnode
    rcases FileTree.file_of_write h hnode with ⟨hjkey, rfl⟩ | hbefore
    · left
      -- the file that was written is the file of `key` alone
      rw [names_of_entry] at hjkey
      have hsame : j = key := hnames hj hkey (nameOf_eq_of_entryNames hjkey)
      subst hsame
      intro v hv
      obtain ⟨e, he, hev⟩ := Option.bind_eq_some_iff.1 hv
      have hvalue := CacheEntry.value_of_decode?_encode (by simpa using hlong) he
      rw [hvalue, Text.ofUtf8?_toUtf8] at hev
      cases hev
      exact hfits
    · exact .inr hbefore

theorem invalidate_holds (tags : List Text) :
    Keeps ((directory here root).Holds keys fits) ((directoryCache here root).invalidate tags)
      fun _ => True := by
  induction tags with
  | nil => exact Keeps.pure trivial
  | cons tag tags ih =>
    rw [DirectoryCache.invalidate]
    refine Keeps.bind (version_keeps (enduring_holds _) tag) fun version _ => ?_
    refine Keeps.bind (Keeps.bind (Keeps.attempt (makeDirectories_holds _)) fun _ _ => ?_)
      fun _ (_ : True) => ih
    refine Keeps.attempt (disk.replace_keeps (enduring_holds _) fun w t hw h => hw.of_files ?_)
    intro key _ bytes hnode
    rcases FileTree.file_of_write h hnode with ⟨hkey, -⟩ | hbefore
    · rw [names_of_tag] at hkey
      exact absurd hkey (entryNames_ne_tagNames key tag)
    · exact .inr hbefore

/-- Both backends are sound for what they hold. -/
theorem sound (backend : Backend) {keys : Set Text} (h : backend.Separates keys)
    (fits : Text → Text → Prop) : backend.cache.Sound keys fits (backend.Holds keys fits) := by
  cases backend with
  | memory => exact (MemoryCache.sound keys fits).exposed (enduring_holds _)
  | directory here root =>
    have hcache : (directoryCache here root).asCache.Sound keys fits
        ((directory here root).Holds keys fits) :=
      { get := fun key hkey => get_holds hkey
        set := fun key hkey value ttl dependency => set_holds h hkey ttl dependency
        invalidate := invalidate_holds }
    exact hcache.exposed (enduring_holds _)

end Backend
end ContentWeave
