import ContentWeave.Proofs.ChunkStore.Missing
import ContentWeave.Proofs.Compile.Stages
import ContentWeave.Proofs.Text.Weaving

/-!
# What a chunk directory asks for

The host is watched: it notes every path that it is asked about, and answers as before. A chunk
directory asks for one file at most for a key, and the file is right below the directory, under the
key, a dot and the extension. Two dots in a key, or a slash, could make another name of it, and such
a key is not asked for. So nothing that is written in a content leads out of the directory.
-/

namespace ContentWeave

variable {σ ε α : Type}

structure Watched (σ : Type) where
  state : σ
  paths : List Path := []

namespace Watched

def unseen (x : StateM σ α) : StateM (Watched σ) α :=
  StateT.modifyGet fun w => ((x.run w.state).1, ⟨(x.run w.state).2, w.paths⟩)

def seen (path : Path) (x : StateM σ α) : StateM (Watched σ) α :=
  StateT.modifyGet fun w => ((x.run w.state).1, ⟨(x.run w.state).2, w.paths ++ [path]⟩)

end Watched

def Host.watched (host : Host (StateM σ)) : Host (StateM (Watched σ)) where
  now := Watched.unseen host.now
  currentDirectory := Watched.unseen host.currentDirectory
  valueOf name := Watched.unseen (host.valueOf name)
  input := ExceptT.mk (Watched.unseen host.input.run)
  exists? path := Watched.seen path (host.exists? path)
  read path := ExceptT.mk (Watched.seen path (host.read path).run)
  write path content := ExceptT.mk (Watched.seen path (host.write path content).run)
  replace path content := ExceptT.mk (Watched.seen path (host.replace path content).run)
  makeDirectories path := ExceptT.mk (Watched.seen path (host.makeDirectories path).run)
  removeTree path := ExceptT.mk (Watched.seen path (host.removeTree path).run)

/-- A cache beside the watched host; what it does to its own files is not noted. -/
def Cache.unseen (cache : Cache (StateM σ)) : Cache (StateM (Watched σ)) where
  get key := ExceptT.mk (Watched.unseen (cache.get key).run)
  set key value ttl dependency := ExceptT.mk (Watched.unseen (cache.set key value ttl dependency).run)
  invalidate tags := ExceptT.mk (Watched.unseen (cache.invalidate tags).run)

def Compiler.over (c : Compiler (StateM σ)) (d : ChunkDirectory) (host : Host (StateM σ)) :
    Compiler (StateM (Watched σ)) where
  templates :=
    { store := d.asStore host.watched, cache := c.templates.cache.unseen, ttl := c.templates.ttl }
  cache := c.cache.unseen
  formats := c.formats
  forms := c.forms
  renderTtl := c.renderTtl

namespace ChunkDirectory

def Rejected (key : Text) : Prop :=
  key = [] ∨ '/' ∈ key ∨ '\\' ∈ key ∨ '\x00' ∈ key ∨ ['.', '.'] <:+: key

/-- The file of a key is right below the directory, under a name of its own. -/
structure FileOf (d : ChunkDirectory) (key : Text) (path : Path) : Prop where
  accepted : ¬ Rejected key
  path_eq : path = Path.join d.directory (key ++ '.' :: d.extension)
  name : Path.EntryName (key ++ '.' :: d.extension)
  relative : Path.isAbsolute (key ++ '.' :: d.extension) = false
  below : ∀ here, Path.namesFrom here path =
    Path.namesFrom here d.directory ++ [key ++ '.' :: d.extension]

theorem accepts_iff {key : Text} : accepts key = true ↔ ¬ Rejected key := by
  simp only [accepts, Rejected, Bool.and_eq_true, Bool.not_eq_true', ← Bool.not_eq_true,
    Text.contains_iff_infix, List.isEmpty_iff, List.any_eq_true, Bool.or_eq_true, beq_iff_eq]
  constructor
  · rintro ⟨⟨hne, hany⟩, hdots⟩ (rfl | h | h | h | h)
    · exact hne rfl
    · exact hany ⟨_, h, .inl (.inl rfl)⟩
    · exact hany ⟨_, h, .inl (.inr rfl)⟩
    · exact hany ⟨_, h, .inr rfl⟩
    · exact hdots h
  · intro h
    refine ⟨⟨fun hnil => h (.inl hnil), ?_⟩, fun hdots => h (.inr (.inr (.inr (.inr hdots))))⟩
    rintro ⟨c, hc, (rfl | rfl) | rfl⟩
    · exact h (.inr (.inl hc))
    · exact h (.inr (.inr (.inl hc)))
    · exact h (.inr (.inr (.inr (.inl hc))))

section Paths

variable {d : ChunkDirectory} (hextension : d.extension ≠ []) (hslash : '/' ∉ d.extension)
variable {key : Text} {path : Path}

include hextension hslash

theorem entryName_fileName (hkey : ¬ Rejected key) : Path.EntryName (key ++ '.' :: d.extension) := by
  refine .of_length ?_ ?_
  · intro hmem
    rcases List.mem_append.1 hmem with h | h
    · exact hkey (.inr (.inl h))
    · rcases List.mem_cons.1 h with h | h
      · cases h
      · exact hslash h
  · have hkey_pos := List.length_pos_iff.2 fun hnil => hkey (.inl hnil)
    have hextension_pos := List.length_pos_iff.2 hextension
    rw [List.length_append, List.length_cons]
    omega

theorem fileOf_of_path? (h : d.path? key = some path) : d.FileOf key path := by
  unfold path? at h
  split_ifs at h with haccepts
  cases h
  have hkey := accepts_iff.1 haccepts
  have hname := entryName_fileName hextension hslash hkey
  exact ⟨hkey, rfl, hname, Path.isAbsolute_eq_false hname.slash_notMem,
    fun here => Path.namesFrom_join hname here d.directory⟩

end Paths

theorem FileOf.key_eq {d : ChunkDirectory} {key key' : Text} {path path' : Path}
    (h : d.FileOf key path) (h' : d.FileOf key' path') {here : List Text}
    (heq : Path.namesFrom here path = Path.namesFrom here path') : key = key' := by
  rw [h.below, h'.below] at heq
  have hname := List.singleton_injective (List.append_cancel_left heq)
  exact List.append_cancel_right hname

end ChunkDirectory

namespace Watched

def Adds (p : Path → Prop) (l l' : List Path) : Prop :=
  ∃ asked, l' = l ++ asked ∧ ∀ path ∈ asked, p path

variable {p : Path → Prop} {l l' : List Path} {path : Path}

protected theorem Adds.refl (l : List Path) : Adds p l l := ⟨[], by simp, by simp⟩

theorem Adds.concat (h : Adds p l l') (hpath : p path) : Adds p l (l' ++ [path]) := by
  obtain ⟨asked, rfl, hasked⟩ := h
  refine ⟨asked ++ [path], by simp, fun q hq => ?_⟩
  rcases List.mem_append.1 hq with hq | hq
  · exact hasked q hq
  · rwa [List.mem_singleton.1 hq]

theorem unseen_keeps (x : ExceptT ε (StateM σ) α) :
    Keeps (fun w : Watched σ => Adds p l w.paths)
      (ExceptT.mk (Watched.unseen x.run) : ExceptT ε (StateM (Watched σ)) α) fun _ => True :=
  fun _ hw => ⟨hw, fun _ _ => trivial⟩

end Watched

namespace ChunkDirectory

open Watched (Adds)

variable {d : ChunkDirectory} {host : Host (StateM σ)} {key : Text} {path : Path}

theorem runOn_find_rejected (h : d.path? key = none) (w : Watched σ) :
    runOn (d.find host.watched key) w = (.ok none, w) := by
  rw [find, h]
  rfl

/-- What is found under a key is what its file says, and no other file is asked for. -/
theorem runOn_find_watched (h : d.path? key = some path) (w : Watched σ) :
    (runOn (d.find host.watched key) w).1 = answerOf key (runOn (host.readText path) w.state).1 ∧
      (runOn (d.find host.watched key) w).2.paths = w.paths ++ [path] := by
  rw [runOn_find h, Host.runOn_readText, Host.runOn_readText]
  exact ⟨rfl, rfl⟩

variable {p : Path → Prop} {l : List Path}

theorem find_adds (hp : ∀ path, d.path? key = some path → p path) :
    Keeps (fun w : Watched σ => Adds p l w.paths) (d.find host.watched key) fun _ => True := by
  intro w hw
  refine ⟨?_, fun _ _ => trivial⟩
  cases hpath : d.path? key with
  | none =>
    rw [runOn_find_rejected hpath]
    exact hw
  | some path =>
    rw [(runOn_find_watched hpath w).2]
    exact hw.concat (hp path hpath)

theorem findAll_adds (keys : List Text)
    (hp : ∀ key ∈ keys, ∀ path, d.path? key = some path → p path) :
    Keeps (fun w : Watched σ => Adds p l w.paths) (d.findAll host.watched keys) fun _ => True := by
  induction keys with
  | nil => exact Keeps.pure trivial
  | cons key keys ih =>
    have hrest := ih fun k hk => hp k (List.mem_cons_of_mem key hk)
    rw [findAll]
    refine Keeps.bind (find_adds (hp key List.mem_cons_self)) fun found _ => ?_
    cases found with
    | none => exact hrest
    | some text => exact Keeps.bind hrest fun _ _ => Keeps.pure trivial

end ChunkDirectory

section Compiling

variable {c : Compiler (StateM σ)} {d : ChunkDirectory} {host : Host (StateM σ)} {content : Text}
variable {p : Path → Prop} {l : List Path}

theorem Compiler.over_retains
    (hp : ∀ key ∈ d.preload ++ chunkKeys content, ∀ path, d.path? key = some path → p path)
    (contentKey : Text) (dependency : Dependency) :
    Compile.Retains (fun w : Watched σ => Watched.Adds p l w.paths)
      ((c.over d host).compile content contentKey dependency) := by
  have hpreload : Compile.Retains (fun w : Watched σ => Watched.Adds p l w.paths)
      (c.over d host).templates.preload :=
    TemplateSource.preload_retains (Watched.unseen_keeps _) (fun _ => Watched.unseen_keeps _)
      (ChunkDirectory.findAll_adds _ fun key hkey => hp key (List.mem_append_left _ hkey))
  refine Compiler.compile_retains hpreload fun e he => ?_
  refine Compiler.expand_retains (Watched.unseen_keeps _) (fun _ => Watched.unseen_keeps _)
    fun hkind => ?_
  refine TemplateSource.fetch_retains (Watched.unseen_keeps _) (fun _ => Watched.unseen_keeps _)
    (ChunkDirectory.find_adds (hp e.key (List.mem_append_right _ ?_)))
  exact List.mem_map_of_mem (List.mem_filter.2 ⟨he, by simpa using hkind⟩)

end Compiling

namespace ChunkDirectory

/-- A chunk directory never leaves its directory: it asks for nothing on behalf of a rejected key and
for the one file of any other, different keys have different files, and the files that are asked for
to preload and to compile a content are files of keys. -/
theorem reads_stay_in_directory {d : ChunkDirectory} (hextension : d.extension ≠ [])
    (hslash : '/' ∉ d.extension) (host : Host (StateM σ)) :
    (∀ key w, Rejected key → runOn (d.find host.watched key) w = (.ok none, w)) ∧
    (∀ key, ¬ Rejected key → ∃ path, d.FileOf key path ∧ ∀ w : Watched σ,
      (runOn (d.find host.watched key) w).1 = answerOf key (runOn (host.readText path) w.state).1 ∧
        (runOn (d.find host.watched key) w).2.paths = w.paths ++ [path]) ∧
    (∀ key key' path path' here, d.FileOf key path → d.FileOf key' path' →
      Path.namesFrom here path = Path.namesFrom here path' → key = key') ∧
    (∀ w, Watched.Adds (fun path => ∃ key ∈ d.preload, d.FileOf key path) w.paths
      (runOn (d.asStore host.watched).findPreloaded w).2.paths) ∧
    ∀ (c : Compiler (StateM σ)) content contentKey dependency residents w,
      Watched.Adds (fun path => ∃ key ∈ d.preload ++ chunkKeys content, d.FileOf key path) w.paths
        (((c.over d host).compile content contentKey dependency).runFrom residents w).2.2.paths := by
  refine ⟨fun key w hkey => ?_, fun key hkey => ?_, fun _ _ _ _ _ h h' => h.key_eq h', fun w => ?_,
    fun c content contentKey dependency residents w => ?_⟩
  · refine runOn_find_rejected (if_neg fun haccepts => ?_) w
    exact accepts_iff.1 haccepts hkey
  · have hpath : d.path? key = some (Path.join d.directory (d.fileName key)) :=
      if_pos (accepts_iff.2 hkey)
    exact ⟨_, fileOf_of_path? hextension hslash hpath, runOn_find_watched hpath⟩
  · refine (findAll_adds d.preload (fun key hkey path hpath => ?_) w (.refl _)).1
    exact ⟨key, hkey, fileOf_of_path? hextension hslash hpath⟩
  · refine (Compiler.over_retains (fun key hkey path hpath => ?_) contentKey dependency).run
      residents (.refl w.paths)
    exact ⟨key, hkey, fileOf_of_path? hextension hslash hpath⟩

theorem reads_stay_in_directory_tea :
    runOn (teaChunks.find (disk []).watched "../tea".toList) ⟨{ tree := teaTree }, []⟩ =
      (.ok none, ⟨{ tree := teaTree }, []⟩) ∧
    (∃ path, teaChunks.FileOf "tea".toList path ∧
      (runOn (teaChunks.find (disk []).watched "tea".toList) ⟨{ tree := teaTree }, []⟩).2.paths =
        [path]) ∧
    ∀ residents, Watched.Adds (fun path =>
        ∃ key ∈ ["tea".toList, "../tea".toList], teaChunks.FileOf key path) []
      (((teaCompiler.over teaChunks (disk [])).compile "[[$tea]] and [[$../tea]]".toList [] {}).runFrom
        residents ⟨{ tree := teaTree }, []⟩).2.2.paths := by
  obtain ⟨hrejected, hread, -, -, hcompile⟩ :=
    reads_stay_in_directory (d := teaChunks) (by decide) (by decide) (disk [])
  refine ⟨hrejected _ _ (.inr (.inl (by decide))), ?_, fun residents => ?_⟩
  · obtain ⟨path, hfile, hpaths⟩ := hread "tea".toList (accepts_iff.1 (by decide))
    exact ⟨path, hfile, (hpaths _).2⟩
  · have hkeys : teaChunks.preload ++ chunkKeys "[[$tea]] and [[$../tea]]".toList =
        ["tea".toList, "../tea".toList] := by decide +kernel
    rw [← hkeys]
    exact hcompile teaCompiler _ [] {} residents ⟨{ tree := teaTree }, []⟩

end ChunkDirectory
end ContentWeave
