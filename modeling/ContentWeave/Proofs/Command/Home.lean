import ContentWeave.Command.Project
import ContentWeave.Proofs.Cache.Reopening

/-!
# The cache of a project

A project has a directory for its data, and in it one for its cache. Whoever opens the project makes
them if they are missing, and finds the cache as it was left otherwise. What is written there has names
that no chunk has, so all chunks stay as they are.
-/

namespace ContentWeave

theorem runOn_adapt {σ ε ε' α : Type} (f : ε → ε') (x : ExceptT ε (StateM σ) α) (s : σ) :
    runOn (x.adapt f) s = ((runOn x s).1.mapError f, (runOn x s).2) := rfl

namespace FileTree

variable {t t' t'' : FileTree} {place : List Text} {name : Text}

/-- Directories stay where they are, and what has a dot behind the first letter of its name stays as
it is. -/
structure Grows (t t' : FileTree) : Prop where
  directory : ∀ names, t.node? names = some .directory → t'.node? names = some .directory
  dotted : ∀ place name, '.' ∈ name.tail → t'.node? (place ++ [name]) = t.node? (place ++ [name])

namespace Grows

theorem refl (t : FileTree) : t.Grows t := ⟨fun _ h => h, fun _ _ _ => rfl⟩

theorem trans (h : t.Grows t') (h' : t'.Grows t'') : t.Grows t'' where
  directory names hn := h'.directory names (h.directory names hn)
  dotted place name hdot := (h'.dotted place name hdot).trans (h.dotted place name hdot)

theorem insert (hnode : t.node? (place ++ [name]) ≠ some .directory) (hdot : '.' ∉ name.tail)
    (node : FileNode) : t.Grows ⟨t.nodes.insert (place ++ [name]) node⟩ where
  directory names hn := by
    by_cases hnil : names = []
    · simp [hnil, node?]
    · rw [node?_insert _ _ _ _ hnil, if_neg, hn]
      rintro rfl
      exact hnode hn
  dotted place' name' hdot' := by
    rw [node?_insert _ _ _ _ (by simp), if_neg]
    intro heq
    obtain ⟨-, hname⟩ := List.append_inj' heq rfl
    rw [(List.cons.inj hname).1] at hdot'
    exact hdot hdot'

theorem make (hdot : '.' ∉ name.tail) : t.Grows (t.make (place ++ [name])) := by
  unfold FileTree.make
  split_ifs with hnone
  · exact insert (by simp [hnone]) hdot .directory
  · exact refl t

theorem put {drawer : Text} (hdrawer : '.' ∉ drawer.tail) (hdot : '.' ∉ name.tail)
    (hfile : t.node? (place ++ [drawer] ++ [name]) ≠ some .directory) (content : Bytes) :
    t.Grows (t.put (place ++ [drawer]) name content) := by
  refine (make hdrawer).trans (insert ?_ hdot (.file content))
  rwa [node?_make, if_neg (by simp)]

end Grows
end FileTree

namespace DirectoryCache

variable {t : FileTree} {here here' : List Text} {root root' : Path}

theorem dot_notMem_nameOf (s : Text) : '.' ∉ (Digest.nameOf s).tail := fun hmem =>
  ((Digest.plainName_nameOf s).calm '.' (List.mem_of_mem_tail hmem)).2 rfl

theorem Installed.grows_putIn (hc : Installed t here root) (drawer : Drawer) (s : Text)
    (content : Bytes) : t.Grows (DirectoryCache.putIn t here root drawer s content) := by
  refine .put ?_ (dot_notMem_nameOf s) ((hc.tidy drawer).files _) content
  cases drawer <;> decide

theorem fileIn_congr (h : Path.namesFrom here root = Path.namesFrom here' root') :
    fileIn t here root = fileIn t here' root' := by
  funext drawer s
  rw [fileIn, fileIn, Drawer.names, Drawer.names, h]

theorem asCache_eq (here : List Text) (root : Path) (now : ℕ) (environment : Environment)
    (input : Bytes) :
    ({ host := FileTree.host here (pure now) environment input, root } :
      DirectoryCache (StateM FileTree)).asCache = (unfailing here root now).asCache := by
  have hcurrent : ∀ tags : List (Text × ℕ),
      ({ host := FileTree.host here (pure now) environment input, root } :
        DirectoryCache (StateM FileTree)).areCurrent tags =
      (unfailing here root now).areCurrent tags := by
    intro tags
    induction tags with
    | nil => rfl
    | cons entry tags ih =>
      obtain ⟨tag, version⟩ := entry
      rw [areCurrent, areCurrent, ih]
      rfl
  have hget : ∀ key, ({ host := FileTree.host here (pure now) environment input, root } :
      DirectoryCache (StateM FileTree)).get key = (unfailing here root now).get key := by
    intro key
    unfold get
    simp only [hcurrent]
    rfl
  have hinvalidate : ∀ tags, ({ host := FileTree.host here (pure now) environment input, root } :
      DirectoryCache (StateM FileTree)).invalidate tags =
      (unfailing here root now).invalidate tags := by
    intro tags
    induction tags with
    | nil => rfl
    | cons tag tags ih =>
      rw [invalidate, invalidate, ih]
      rfl
  unfold asCache
  rw [funext hget, funext hinvalidate]
  rfl

end DirectoryCache

namespace Project

open DirectoryCache

variable {t t' : FileTree} {here home : List Text} {project : Path} {now : ℕ}
variable {environment : Environment} {input : Bytes}

def dataPlace (home : List Text) : List Text := home ++ [".cb".toList]

def cachePlace (home : List Text) : List Text := dataPlace home ++ ["cache".toList]

def cacheRoot (project : Path) : Path := Path.join (Path.join project ".cb".toList) "cache".toList

def margin : ℕ := 83

/-- A path that leads to the directory of a project, and is not too long. -/
structure Address (t : FileTree) (here : List Text) (project : Path) (home : List Text) : Prop where
  reaches : t.Reaches here project home
  length : Text.byteLength project + margin < FileTree.maxPath

def Vacant (t : FileTree) (home : List Text) : Prop :=
  ∀ names, dataPlace home <+: names → t.node? names = none

/-- A project with a cache of this version of the program. -/
structure Furnished (t : FileTree) (home : List Text) : Prop where
  data : t.node? (dataPlace home) = some .directory
  cache : t.node? (cachePlace home) = some .directory
  tidy : ∀ drawer : Drawer, t.Tidy (drawer.names (cachePlace home) [])
  version : (t.content? (versionNames (cachePlace home) [])).bind Text.ofUtf8? = some Project.version
  numbered : Numbered t (cachePlace home) []

theorem namesFrom_nil (here : List Text) : Path.namesFrom here [] = here := by
  simp [Path.namesFrom, Path.isAbsolute, Path.parts, Text.splitOn, Path.follow]

theorem cachePlace_prefix_file (home : List Text) (drawer : Drawer) (s : Text) :
    cachePlace home <+: drawer.names (cachePlace home) [] ++ [Digest.nameOf s] := by
  rw [Drawer.names, namesFrom_nil, List.append_assoc]
  exact List.prefix_append _ _

theorem fileIn_of_cachePlace
    (hsame : ∀ names, cachePlace home <+: names → t'.node? names = t.node? names) :
    fileIn t' (cachePlace home) [] = fileIn t (cachePlace home) [] := by
  funext drawer s
  rw [fileIn, fileIn, FileTree.content?, hsame _ (cachePlace_prefix_file home drawer s)]
  rfl

theorem ne_dataPlace {names : List Text} (h : cachePlace home <+: names) :
    names ≠ dataPlace home := by
  rintro rfl
  have hlength := h.length_le
  simp only [cachePlace, List.length_append, List.length_singleton] at hlength
  omega

theorem ne_ignore {names : List Text} (h : cachePlace home <+: names) :
    names ≠ dataPlace home ++ [".gitignore".toList] := by
  rintro rfl
  have heq := h.eq_of_length (by simp [cachePlace])
  exact absurd (List.append_cancel_left heq) (by decide)

theorem entryName_data : Path.EntryName ".cb".toList := .of_length (by decide) (by decide)

theorem entryName_ignore : Path.EntryName ".gitignore".toList := .of_length (by decide) (by decide)

theorem fileName_cache : Path.FileName "cache".toList 5 :=
  ⟨.of_all (by decide) (by decide), by decide, by decide, by decide⟩

namespace Address

theorem more (h : Address t here project home) (hmore : ∀ names,
    t.node? names = some .directory → t'.node? names = some .directory) :
    Address t' here project home :=
  ⟨h.reaches.more hmore, h.length⟩

variable (h : Address t here project home)

include h

theorem length_data : Text.byteLength (Path.join project ".cb".toList) + 79 < FileTree.maxPath := by
  have hjoin := Path.byteLength_join_le project entryName_data.slash_notMem
  have hsize : Text.byteLength ".cb".toList = 3 := by decide
  have hlength := h.length
  unfold margin at hlength
  omega

theorem length_cache : Text.byteLength (cacheRoot project) + room < FileTree.maxPath := by
  have hjoin := Path.byteLength_join_le (Path.join project ".cb".toList)
    fileName_cache.slash_notMem
  have hlength := h.length_data
  have hsize := fileName_cache.size_eq
  unfold cacheRoot room
  omega

theorem borne_data : Path.refusal? project ".cb".toList = none := by
  have hlength := h.length_data
  exact Path.refusal?_eq_none_iff.2 ⟨by decide, by omega, by decide⟩

theorem borne_cache : Path.refusal? (Path.join project ".cb".toList) "cache".toList = none :=
  fileName_cache.refusal?_eq_none (by have hlength := h.length_data; omega)

theorem reaches_data (hdata : t.node? (dataPlace home) = some .directory) :
    t.Reaches here (Path.join project ".cb".toList) (dataPlace home) :=
  FileTree.Stands.reaches ⟨h.reaches.resolve_borne entryName_data h.borne_data, hdata⟩

theorem resolve_cache (hdata : t.node? (dataPlace home) = some .directory) :
    t.resolve here (cacheRoot project) = .ok (cachePlace home) :=
  (h.reaches_data hdata).resolve_borne fileName_cache.entryName h.borne_cache

theorem namesFrom_cache (hdata : t.node? (dataPlace home) = some .directory) :
    Path.namesFrom here (cacheRoot project) = Path.namesFrom (cachePlace home) [] := by
  rw [namesFrom_nil]
  exact (FileTree.resolve_eq (h.resolve_cache hdata)).symm

theorem makeDirectories_data : t.makeDirectories here (Path.join project ".cb".toList) =
    match t.node? (dataPlace home) with
    | some .directory => .ok t
    | some (.file _) => .error .alreadyExists
    | none => .ok ⟨t.nodes.insert (dataPlace home) .directory⟩ :=
  h.reaches.makeDirectories_join entryName_data h.borne_data

theorem makeDirectories_cache (hdata : t.node? (dataPlace home) = some .directory) :
    t.makeDirectories here (cacheRoot project) =
      match t.node? (cachePlace home) with
      | some .directory => .ok t
      | some (.file _) => .error .alreadyExists
      | none => .ok ⟨t.nodes.insert (cachePlace home) .directory⟩ :=
  (h.reaches_data hdata).makeDirectories_join fileName_cache.entryName h.borne_cache

end Address

namespace Furnished

variable (h : Furnished t home)

include h

theorem congr (hdata : t'.node? (dataPlace home) = t.node? (dataPlace home))
    (hcache : ∀ names, cachePlace home <+: names → t'.node? names = t.node? names) :
    Furnished t' home where
  data := hdata.trans h.data
  cache := (hcache _ (List.prefix_refl _)).trans h.cache
  tidy drawer := by
    have hdrawer : cachePlace home <+: drawer.names (cachePlace home) [] := by
      rw [Drawer.names, namesFrom_nil]
      exact List.prefix_append _ _
    exact (h.tidy drawer).congr (hcache _ hdrawer) fun name =>
      hcache _ (hdrawer.trans (List.prefix_append _ _))
  version := by
    have hversion : cachePlace home <+: versionNames (cachePlace home) [] := by
      rw [versionNames, namesFrom_nil]
      exact List.prefix_append _ _
    have hsame : t'.content? (versionNames (cachePlace home) []) =
        t.content? (versionNames (cachePlace home) []) := by
      rw [FileTree.content?, hcache _ hversion]
      rfl
    rw [hsame]
    exact h.version
  numbered := by
    unfold Numbered
    rw [fileIn_of_cachePlace hcache]
    exact h.numbered

variable (ha : Address t here project home)

include ha

theorem namesFrom_cache : Path.namesFrom here (cacheRoot project) =
    Path.namesFrom (cachePlace home) [] := ha.namesFrom_cache h.data

theorem installed : Installed t here (cacheRoot project) where
  length := ha.length_cache
  stands := by
    rw [h.namesFrom_cache ha, namesFrom_nil]
    exact ⟨ha.resolve_cache h.data, h.cache⟩
  tidy drawer := by
    rw [Drawer.names, h.namesFrom_cache ha]
    exact h.tidy drawer

theorem numbered_here : Numbered t here (cacheRoot project) := by
  unfold Numbered
  rw [fileIn_congr (h.namesFrom_cache ha)]
  exact h.numbered

theorem storedVersion_eq : storedVersion t here (cacheRoot project) = some Project.version := by
  rw [(h.installed ha).storedVersion_eq, versionNames, h.namesFrom_cache ha, ← versionNames]
  exact h.version

end Furnished

theorem Furnished.of_installed (ha : Address t here project home)
    (hdata : t.node? (dataPlace home) = some .directory)
    (hc : Installed t here (cacheRoot project)) (hn : Numbered t here (cacheRoot project))
    (hv : storedVersion t here (cacheRoot project) = some Project.version) : Furnished t home := by
  have hnames := ha.namesFrom_cache hdata
  refine ⟨hdata, ?_, fun drawer => ?_, ?_, ?_⟩
  · have hnode := hc.stands.node
    rwa [hnames, namesFrom_nil] at hnode
  · have htidy := hc.tidy drawer
    rwa [Drawer.names, hnames] at htidy
  · rw [hc.storedVersion_eq, versionNames, hnames] at hv
    exact hv
  · unfold Numbered at hn ⊢
    rwa [fileIn_congr hnames] at hn

section Opening

theorem insert_of_write {path : Path} {names : List Text} {content : Bytes}
    (hresolve : t.resolve here path = .ok names) (h : t.write here path content = .ok t') :
    t.node? names ≠ some .directory ∧ t' = ⟨t.nodes.insert names (.file content)⟩ := by
  simp only [FileTree.write, hresolve, bind, Except.bind] at h
  split at h
  · cases h
  · rename_i hnode
    cases h
    exact ⟨hnode, rfl⟩

variable (now environment input) in
theorem runOn_prepareData {directory : Path}
    (hmake : t.makeDirectories here directory = .ok t') : ∃ t'',
    runOn (prepareData (FileTree.host here (pure now) environment input) directory) t =
        (.ok (), t'') ∧
      (t'' = t' ∨ t'.write here (Path.join directory ".gitignore".toList) ignoreAll.toUtf8 =
        .ok t'') := by
  have hmade : runOn (((FileTree.host here (pure now) environment input :
      Host (StateM FileTree)).makeDirectories directory).adapt RunError.io) t = (.ok (), t') := by
    rw [runOn_adapt]
    have hrun := runOn_change (·.makeDirectories here directory) t
    rw [hmake] at hrun
    exact congrArg (fun r : Except FileError Unit × FileTree => (r.1.mapError RunError.io, r.2)) hrun
  have hexists : runOn (liftM ((FileTree.host here (pure now) environment input :
      Host (StateM FileTree)).exists? (Path.join directory ".gitignore".toList)) :
      ExceptT RunError (StateM FileTree) Bool) t' =
      (.ok (t'.exists? here (Path.join directory ".gitignore".toList)), t') := rfl
  have hwritten := runOn_change (·.write here (Path.join directory ".gitignore".toList)
    ignoreAll.toUtf8) t'
  unfold prepareData
  rw [runOn_bind, hmade]
  dsimp only
  rw [runOn_bind, hexists]
  dsimp only
  cases t'.exists? here (Path.join directory ".gitignore".toList) with
  | true => exact ⟨t', rfl, .inl rfl⟩
  | false =>
    refine ⟨(runOn (FileTree.change (·.write here (Path.join directory ".gitignore".toList)
      ignoreAll.toUtf8) : ExceptT FileError (StateM FileTree) Unit) t').2, rfl, ?_⟩
    rw [hwritten]
    cases t'.write here (Path.join directory ".gitignore".toList) ignoreAll.toUtf8 with
    | ok t'' => exact .inr rfl
    | error e => exact .inl rfl

theorem exists_made (ha : Address t here project home)
    (hdata : t.node? (dataPlace home) = none ∨ t.node? (dataPlace home) = some .directory) :
    ∃ made, t.makeDirectories here (Path.join project ".cb".toList) = .ok made ∧ t.Grows made ∧
      made.node? (dataPlace home) = some .directory ∧
      ∀ names, names ≠ dataPlace home → made.node? names = t.node? names := by
  rw [ha.makeDirectories_data]
  rcases hdata with hnone | hdirectory
  · rw [hnone]
    have hne : dataPlace home ≠ [] := by simp [dataPlace]
    have hfree : t.node? (dataPlace home) ≠ some .directory := by simp [hnone]
    refine ⟨_, rfl, .insert hfree (by decide) _, ?_, fun names h => ?_⟩
    · rw [FileTree.node?_insert _ _ _ _ hne, if_pos rfl]
    · by_cases hnil : names = []
      · simp [hnil, FileTree.node?]
      · rw [FileTree.node?_insert _ _ _ _ hnil, if_neg h]
  · rw [hdirectory]
    exact ⟨t, rfl, .refl t, hdirectory, fun _ _ => rfl⟩

variable (now environment input) in
theorem exists_prepareData (ha : Address t here project home)
    (hdata : t.node? (dataPlace home) = none ∨ t.node? (dataPlace home) = some .directory) :
    ∃ t', runOn (prepareData (FileTree.host here (pure now) environment input)
        (Path.join project ".cb".toList)) t = (.ok (), t') ∧ t.Grows t' ∧
      t'.node? (dataPlace home) = some .directory ∧
      ∀ names, names ≠ dataPlace home → names ≠ dataPlace home ++ [".gitignore".toList] →
        t'.node? names = t.node? names := by
  obtain ⟨made, hmake, hgrows, hnode, hsame⟩ := exists_made ha hdata
  obtain ⟨t', hrun, hwritten⟩ := runOn_prepareData now environment input hmake
  refine ⟨t', hrun, ?_⟩
  rcases hwritten with rfl | hwrite
  · exact ⟨hgrows, hnode, fun names h _ => hsame names h⟩
  · have hborne : Path.refusal? (Path.join project ".cb".toList) ".gitignore".toList = none := by
      have hlength := ha.length_data
      have hjoin := Path.byteLength_join_le (Path.join project ".cb".toList)
        entryName_ignore.slash_notMem
      have hsize : Text.byteLength ".gitignore".toList = 10 := by decide
      exact Path.refusal?_eq_none_iff.2 ⟨by decide, by omega, by decide⟩
    have hreaches := (ha.more hgrows.directory).reaches_data hnode
    obtain ⟨hfree, rfl⟩ :=
      insert_of_write (hreaches.resolve_borne entryName_ignore hborne) hwrite
    have hmarked := FileTree.Grows.insert hfree (by decide) (.file ignoreAll.toUtf8)
    refine ⟨hgrows.trans hmarked, hmarked.directory _ hnode, fun names hdata hignore => ?_⟩
    rw [← hsame names hdata]
    by_cases hnil : names = []
    · simp [hnil, FileTree.node?]
    · rw [FileTree.node?_insert _ _ _ _ hnil, if_neg hignore]

theorem grows_cachePlace (h : t.node? (cachePlace home) = none) :
    t.Grows ⟨t.nodes.insert (cachePlace home) .directory⟩ := by
  have hfree : t.node? (cachePlace home) ≠ some .directory := by simp [h]
  exact .insert hfree (by decide) .directory

theorem bare_of_made (ha : Address t here project home)
    (hdata : t.node? (dataPlace home) = some .directory)
    (hnothing : ∀ names, cachePlace home <+: names → t.node? names = none) :
    Bare ⟨t.nodes.insert (cachePlace home) .directory⟩ here (cacheRoot project) := by
  have hne : cachePlace home ≠ [] := by simp [cachePlace]
  have hgrows := grows_cachePlace (hnothing _ (List.prefix_refl _))
  have hmade := ha.more hgrows.directory
  have hdata' := hgrows.directory _ hdata
  have hplace : Path.namesFrom here (cacheRoot project) = cachePlace home := by
    rw [hmade.namesFrom_cache hdata', namesFrom_nil]
  refine ⟨?_, fun names hp hother => ?_⟩
  · rw [hplace]
    refine ⟨hmade.resolve_cache hdata', ?_⟩
    rw [FileTree.node?_insert _ _ _ _ hne, if_pos rfl]
  · rw [hplace] at hp hother
    have hnil : names ≠ [] := by
      rintro rfl
      exact hne (List.prefix_nil.1 hp)
    rw [FileTree.node?_insert _ _ _ _ hnil, if_neg hother]
    exact hnothing names hp

theorem grows_inscribe (hplace : Path.namesFrom here (cacheRoot project) = cachePlace home)
    (hbare : Bare t here (cacheRoot project)) (version : Text) :
    t.Grows (inscribe t here (cacheRoot project) version) := by
  have hversion : versionNames here (cacheRoot project) = cachePlace home ++ ["VERSION".toList] := by
    rw [versionNames, hplace]
  have hfree := hbare.node?_version
  unfold inscribe
  rw [hversion] at hfree ⊢
  exact .insert (by rw [hfree]; decide) (by decide) _

theorem exists_prepare_of_missing (ha : Address t here project home)
    (hdata : t.node? (dataPlace home) = some .directory)
    (hnothing : ∀ names, cachePlace home <+: names → t.node? names = none) :
    ∃ t', ((unfailing here (cacheRoot project) now).prepare Project.version).run t = ((), t') ∧
      Furnished t' home ∧ t.Grows t' ∧
      ∀ drawer s, fileIn t' (cachePlace home) [] drawer s = none := by
  have hlength := ha.length_cache
  have hresolve := ha.resolve_cache hdata
  have hnone := hnothing _ (List.prefix_refl _)
  have hunversioned : storedVersion t here (cacheRoot project) = none := by
    have hlost := FileTree.resolve_join hresolve fileName_version (by unfold room at hlength; omega)
    rw [FileTree.walk, hnone] at hlost
    rw [storedVersion, FileTree.read, hlost]
    rfl
  have hexists : t.exists? here (cacheRoot project) = false := by
    simp [FileTree.exists?, hresolve, hnone]
  have hmake := ha.makeDirectories_cache hdata
  rw [hnone] at hmake
  have hgrows := grows_cachePlace hnone
  have hmade := ha.more hgrows.directory
  have hnames := hmade.namesFrom_cache (hgrows.directory _ hdata)
  have hbare := bare_of_made ha hdata hnothing
  have hinscribed := grows_inscribe (hnames.trans (namesFrom_nil _)) hbare Project.version
  refine ⟨_, ?_, ?_, hgrows.trans hinscribed, fun drawer s => ?_⟩
  · rw [run_prepare, if_neg (by simp [hunversioned])]
    exact run_renew (by simp [hexists]) hmake (hbare.write_version hlength Project.version)
  · exact .of_installed (hmade.more hinscribed.directory)
      (hinscribed.directory _ (hgrows.directory _ hdata))
      (hbare.installed hlength _) (hbare.numbered _) (hbare.storedVersion_inscribe hlength _)
  · rw [← fileIn_congr hnames]
    exact hbare.fileIn_eq_none _ drawer s

variable (now) in
/-- A project whose cache is missing or in order gets a cache in order, with the files that were in
it before. -/
theorem exists_prepare (ha : Address t here project home)
    (hdata : t.node? (dataPlace home) = some .directory)
    (hs : (∀ names, cachePlace home <+: names → t.node? names = none) ∨ Furnished t home) :
    ∃ t', ((unfailing here (cacheRoot project) now).prepare Project.version).run t = ((), t') ∧
      Furnished t' home ∧ t.Grows t' ∧
      fileIn t' (cachePlace home) [] = fileIn t (cachePlace home) [] := by
  rcases hs with hnothing | hfurnished
  · obtain ⟨t', hrun, hfurnished, hgrows, hnone⟩ := exists_prepare_of_missing ha hdata hnothing
    refine ⟨t', hrun, hfurnished, hgrows, ?_⟩
    funext drawer s
    rw [hnone, fileIn, FileTree.content?, hnothing _ (cachePlace_prefix_file home drawer s)]
  · refine ⟨t, ?_, hfurnished, .refl t, rfl⟩
    rw [run_prepare, if_pos (hfurnished.storedVersion_eq ha)]

variable {c : Config}

variable (now environment input) in
/-- Opening the cache of a project succeeds, and leaves a project that has one, with the files that
were in it before. -/
theorem exists_openCache (hs : Vacant t home ∨ Furnished t home)
    (ha : Address t here c.project home) (henabled : c.cache.enabled = true) :
    ∃ t', runOn (openCache (FileTree.host here (pure now) environment input) c) t =
        (.ok (unfailing here (cacheRoot c.project) now).asCache, t') ∧
      Furnished t' home ∧ t.Grows t' ∧
      fileIn t' (cachePlace home) [] = fileIn t (cachePlace home) [] := by
  have hdata : t.node? (dataPlace home) = none ∨ t.node? (dataPlace home) = some .directory :=
    hs.imp (fun hvacant => hvacant _ (List.prefix_refl _)) (·.data)
  obtain ⟨marked, hmark, hgrows, hnode, hsame⟩ := exists_prepareData now environment input
    ha hdata
  have hbelow : ∀ names, cachePlace home <+: names → marked.node? names = t.node? names :=
    fun names hp => hsame names (ne_dataPlace hp) (ne_ignore hp)
  have hs' : (∀ names, cachePlace home <+: names → marked.node? names = none) ∨
      Furnished marked home := by
    refine hs.imp (fun hvacant names hp => ?_) fun hf => hf.congr (hnode.trans hf.data.symm) hbelow
    exact (hbelow names hp).trans (hvacant names ((List.prefix_append _ _).trans hp))
  obtain ⟨t', hrun, hfurnished, hmore, hfiles⟩ :=
    exists_prepare now (ha.more hgrows.directory) hnode hs'
  refine ⟨t', ?_, hfurnished, hgrows.trans hmore, hfiles.trans (fileIn_of_cachePlace hbelow)⟩
  have hcache : ({ host := FileTree.host here (pure now) environment input
                   root := c.cacheDirectory } : DirectoryCache (StateM FileTree)).asCache =
      (unfailing here (cacheRoot c.project) now).asCache := asCache_eq ..
  have hprepared : runOn (liftM (({ host := FileTree.host here (pure now) environment input
                                    root := c.cacheDirectory } :
      DirectoryCache (StateM FileTree)).prepare Project.version) :
      ExceptT RunError (StateM FileTree) Unit) marked = (.ok (), t') :=
    congrArg (fun r : Unit × FileTree => (Except.ok r.1, r.2)) hrun
  rw [openCache, if_pos henabled, runOn_bind]
  rw [show c.dataDirectory = Path.join c.project ".cb".toList from rfl, hmark]
  dsimp only
  rw [runOn_bind, hprepared]
  dsimp only
  rw [hcache]
  rfl

end Opening

def kept? (t : FileTree) (home : List Text) (key : Text) : Option Text :=
  (entryIn? t (cachePlace home) [] key).bind fun e => Text.ofUtf8? e.value

/-- What holds while the project is open: its cache stays in order, and what it has under one key
satisfies a condition. -/
structure Tended (start : FileTree) (home : List Text) (key : Text) (holds : Text → Prop)
    (t : FileTree) : Prop where
  furnished : Furnished t home
  grows : start.Grows t
  kept : ∀ value ∈ kept? t home key, holds value

namespace Tended

variable {start : FileTree} {key k value : Text} {holds : Text → Prop}
variable (ha : Address start here project home)

include ha

theorem address (h : Tended start home key holds t) : Address t here project home :=
  ha.more h.grows.directory

theorem kept?_eq (h : Tended start home key holds t) (s : Text) :
    kept? t home s = (entryIn? t here (cacheRoot project) s).bind fun e => Text.ofUtf8? e.value := by
  rw [kept?, entryIn?, entryIn?, fileIn_congr (h.furnished.namesFrom_cache (h.address ha))]

theorem putIn (h : Tended start home key holds t) (drawer : Drawer) (s : Text) (content : Bytes)
    (hn : Numbered (DirectoryCache.putIn t here (cacheRoot project) drawer s content) here
      (cacheRoot project))
    (hkept : drawer = .entries → Digest.nameOf key = Digest.nameOf s →
      ∀ value ∈ (CacheEntry.decode? content).bind fun e => Text.ofUtf8? e.value, holds value) :
    Tended start home key holds
      (DirectoryCache.putIn t here (cacheRoot project) drawer s content) := by
  have hat := h.address ha
  have hc := h.furnished.installed hat
  have hgrows := hc.grows_putIn drawer s content
  refine ⟨?_, h.grows.trans hgrows, fun value hvalue => ?_⟩
  · refine .of_installed (hat.more hgrows.directory) (hgrows.directory _ h.furnished.data)
      (hc.putIn drawer s content) hn ?_
    rw [hc.storedVersion_putIn]
    exact h.furnished.storedVersion_eq hat
  · rw [kept?, entryIn?, ← fileIn_congr (h.furnished.namesFrom_cache hat), fileIn_putIn] at hvalue
    split_ifs at hvalue with hsame
    · exact hkept hsame.1.symm hsame.2 value hvalue
    · refine h.kept value ?_
      rwa [h.kept?_eq ha]

theorem bumpAll (h : Tended start home key holds t) (tags : List Text) :
    Tended start home key holds (DirectoryCache.bumpAll t here (cacheRoot project) tags) := by
  induction tags generalizing t with
  | nil => exact h
  | cons tag tags ih =>
    have hn := (h.furnished.numbered_here (h.address ha)).bump tag
    exact ih (h.putIn ha .tags tag _ hn nofun)

theorem get_keeps (now : ℕ) (k : Text) :
    Keeps (Tended start home key holds) ((unfailing here (cacheRoot project) now).get k)
      fun found => ∀ value ∈ found, Digest.nameOf k = Digest.nameOf key → holds value := by
  intro t h
  have hat := h.address ha
  obtain ⟨found, hrun, hfound⟩ := runOn_get now (h.furnished.installed hat)
    (h.furnished.numbered_here hat) k
  rw [hrun]
  refine ⟨h, fun found' heq value hvalue hsame => h.kept value ?_⟩
  cases heq
  obtain ⟨holding, hheld, -, rfl⟩ := (hfound value).1 hvalue
  obtain ⟨e, he, -, hholding⟩ := held?_eq_some_iff.1 hheld
  obtain ⟨text, htext, rfl⟩ := Option.map_eq_some_iff.1 hholding
  have hentry : entryIn? t here (cacheRoot project) key = some e := by
    rw [← he, entryIn?, entryIn?, fileIn, fileIn, hsame]
  rw [h.kept?_eq ha, hentry]
  exact htext

theorem set_keeps (now : ℕ) (k : Text) (ttl : ℕ) (dependency : Dependency)
    (hholds : Digest.nameOf k = Digest.nameOf key → holds value) :
    Keeps (Tended start home key holds)
      ((unfailing here (cacheRoot project) now).set k value ttl dependency) fun _ => True := by
  intro t h
  have hat := h.address ha
  have hc := h.furnished.installed hat
  have hn := h.furnished.numbered_here hat
  rw [runOn_set hc hn]
  dsimp only
  split_ifs with hlong
  · exact ⟨h, fun _ _ => trivial⟩
  · refine ⟨h.putIn ha .entries k _ (hn.put_entry k _) fun _ hname v hv => ?_, fun _ _ => trivial⟩
    obtain ⟨e, he, htext⟩ := Option.bind_eq_some_iff.1 hv
    rw [CacheEntry.value_of_decode?_encode (Nat.not_lt.1 hlong) he] at htext
    have hv : some value = some v := (Text.ofUtf8?_toUtf8 value).symm.trans htext
    cases hv
    exact hholds hname.symm

theorem invalidate_keeps (now : ℕ) (tags : List Text) :
    Keeps (Tended start home key holds) ((unfailing here (cacheRoot project) now).invalidate tags)
      fun _ => True := by
  intro t h
  have hat := h.address ha
  rw [runOn_invalidate (h.furnished.installed hat) (h.furnished.numbered_here hat)]
  exact ⟨h.bumpAll ha tags, fun _ _ => trivial⟩

/-- The cache of an open project is sound for what it may have in the file of one key. -/
theorem sound (now : ℕ) : (unfailing here (cacheRoot project) now).asCache.Sound Set.univ
    (fun k value => Digest.nameOf k = Digest.nameOf key → holds value)
    (Tended start home key holds) where
  get k _ := get_keeps ha now k
  set k _ _ ttl dependency hholds := set_keeps ha now k ttl dependency hholds
  invalidate := invalidate_keeps ha now

end Tended

end Project
end ContentWeave
