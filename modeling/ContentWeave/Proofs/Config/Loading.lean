import ContentWeave.Config.Load
import ContentWeave.Proofs.Compile.Running
import ContentWeave.Proofs.Files.Ancestors

/-!
# Loaded configurations

Whatever a file says and whatever its references stand for, a configuration that is loaded has passed
validation. What the command line overrides comes last: it can make nothing fail, and no setting but
the overridden ones shows it. Without a path the nearest directory at or above the current one that
has a configuration file decides.
-/

namespace ContentWeave

namespace Keeps

variable {σ ε α : Type} {inv : σ → Prop}

theorem any (x : ExceptT ε (StateM σ) α) : Keeps (fun _ => True) x fun _ => True :=
  fun _ _ => ⟨trivial, fun _ _ => trivial⟩

theorem ofExcept (r : Except ε α) :
    Keeps inv (ExceptT.mk (pure r) : ExceptT ε (StateM σ) α) fun a => r = .ok a :=
  fun _ hs => ⟨hs, fun _ ha => ha⟩

end Keeps

theorem runOn_liftM {σ ε α : Type} (x : StateM σ α) (s : σ) :
    runOn (ε := ε) (liftM x) s = (.ok (x.run s).1, (x.run s).2) := rfl

namespace Config

open ContentWeave.Path (EntryName ofNames)

/-- A configuration is another one but for the settings that are overridden. -/
structure Overridden (o : Overrides) (c c' : Config) : Prop where
  directory : c'.chunks.directory = o.chunkDirectory.getD c.chunks.directory
  enabled : c'.cache.enabled = o.cacheEnabled.getD c.cache.enabled
  others : { c' with
    chunks := { c'.chunks with directory := c.chunks.directory }
    cache := { c'.cache with enabled := c.cache.enabled } } = c

theorem overridden_override (c : Config) (o : Overrides) : Overridden o c (c.override o) :=
  ⟨rfl, rfl, rfl⟩

theorem validate_override (c : Config) (o : Overrides) : (c.override o).validate = c.validate := rfl

theorem validate_ofDirectory (directory : Path) : (ofDirectory directory).validate = .ok () := rfl

section Validity

variable {σ : Type} {host : Host (StateM σ)}

theorem loadFile_valid (path : Path) :
    Keeps (fun _ => True) (loadFile host path) (·.validate = .ok ()) := by
  unfold loadFile
  refine Keeps.bind (Keeps.any _) fun written _ => ?_
  cases Draft.parse? written with
  | none => exact Keeps.throw _
  | some draft =>
    refine Keeps.bind (Keeps.any _) fun expanded _ => ?_
    exact Keeps.bind (Keeps.ofExcept _) fun _ hvalid => Keeps.pure hvalid

theorem loadPlain_valid (path : Option Path) :
    Keeps (fun _ => True) (loadPlain host path) (·.validate = .ok ()) := by
  cases path with
  | some path =>
    refine Keeps.bind (Keeps.any _) fun found _ => ?_
    cases found with
    | true => exact loadFile_valid path
    | false => exact Keeps.throw _
  | none =>
    refine Keeps.bind (Keeps.any _) fun here _ => Keeps.bind (Keeps.any _) fun found _ => ?_
    cases found with
    | some path => exact loadFile_valid path
    | none => exact Keeps.pure (validate_ofDirectory here)

theorem load_valid (path : Option Path) (o : Overrides) :
    Keeps (fun _ => True) (load host path o) (·.validate = .ok ()) :=
  Keeps.map (loadPlain_valid path) fun c hc => (validate_override c o).trans hc

end Validity

structure Nearest (t : FileTree) (here directory : List Text) : Prop where
  above : directory <+: here
  holds : t.Holds directory fileName
  longest : ∀ other, other <+: here → t.Holds other fileName → other.length ≤ directory.length

theorem entryName_fileName : EntryName fileName :=
  .of_length (by decide) (by decide)

def machine (here : List Text) (environment : Environment) : Host (StateM FileTree) :=
  FileTree.host here (pure 0) environment

section Discovery

variable {t : FileTree} {here names : List Text}

theorem run_findFile (environment : Environment) (directories : List Path) :
    (findFile (machine here environment) directories).run t =
      ((directories.map (Path.join · fileName)).find? (t.exists? here), t) := by
  induction directories with
  | nil => rfl
  | cons directory directories ih =>
    have hexists : ((machine here environment).exists? (Path.join directory fileName)).run t =
        (t.exists? here (Path.join directory fileName), t) := rfl
    rw [List.map_cons, List.find?_cons, findFile, StateT.run_bind, hexists]
    cases t.exists? here (Path.join directory fileName) with
    | true => rfl
    | false => exact ih

theorem join_fileName (hnames : ∀ n ∈ names, EntryName n) :
    Path.join (ofNames names) fileName = ofNames (names ++ [fileName]) :=
  Path.join_ofNames hnames entryName_fileName.slash_notMem

theorem exists?_fileName_iff (here : List Text) (hnames : ∀ n ∈ names, EntryName n) :
    t.exists? here (Path.join (ofNames names) fileName) = true ↔ t.Holds names fileName := by
  rw [join_fileName hnames]
  exact FileTree.exists?_ofNames_iff here hnames entryName_fileName

def found? (t : FileTree) (here names : List Text) : Option Path :=
  ((Path.ancestors (ofNames names)).map (Path.join · fileName)).find? (t.exists? here)

theorem found?_concat {name : Text} (hnames : ∀ n ∈ names ++ [name], EntryName n) :
    found? t here (names ++ [name]) =
      if t.exists? here (Path.join (ofNames (names ++ [name])) fileName) then
        some (Path.join (ofNames (names ++ [name])) fileName)
      else found? t here names := by
  have habove : ∀ n ∈ names, EntryName n := fun n hn => hnames n (by simp [hn])
  rw [found?, found?, Path.ancestors_ofNames hnames, Path.ancestors_ofNames habove,
    Path.inits_concat]
  simp only [List.map_append, List.map_cons, List.map_nil, List.reverse_append,
    List.reverse_cons, List.reverse_nil, List.nil_append, List.singleton_append, List.find?_cons]
  split <;> simp_all

/-- What is found is the file of the nearest directory that has one. -/
theorem found?_of_nearest (hnames : ∀ n ∈ names, EntryName n) {directory : List Text}
    (h : Nearest t names directory) :
    found? t here names = some (Path.join (ofNames directory) fileName) := by
  induction names using List.reverseRecOn with
  | nil =>
    obtain rfl := List.prefix_nil.1 h.above
    have hexists := (exists?_fileName_iff here hnames).2 h.holds
    rw [found?, Path.ancestors_ofNames hnames]
    simp [hexists]
  | append_singleton names name ih =>
    have habove : ∀ n ∈ names, EntryName n := fun n hn => hnames n (by simp [hn])
    rw [found?_concat hnames]
    split_ifs with hexists
    · have hholds := (exists?_fileName_iff here hnames).1 hexists
      have hlength := h.longest _ (List.prefix_refl _) hholds
      rw [h.above.eq_of_length_le hlength]
    · rcases List.prefix_concat_iff.1 h.above with rfl | hfurther
      · exact absurd ((exists?_fileName_iff here hnames).2 h.holds) hexists
      · exact ih habove ⟨hfurther, h.holds, fun other hother =>
          h.longest other (hother.trans (List.prefix_append _ _))⟩

theorem found?_of_none (hnames : ∀ n ∈ names, EntryName n)
    (h : ∀ directory, directory <+: names → ¬ t.Holds directory fileName) :
    found? t here names = none := by
  induction names using List.reverseRecOn with
  | nil =>
    have hexists := mt (exists?_fileName_iff here hnames).1 (h [] List.nil_prefix)
    rw [found?, Path.ancestors_ofNames hnames]
    simpa using hexists
  | append_singleton names name ih =>
    have habove : ∀ n ∈ names, EntryName n := fun n hn => hnames n (by simp [hn])
    have hexists := mt (exists?_fileName_iff here hnames).1 (h _ (List.prefix_refl _))
    rw [found?_concat hnames, if_neg hexists]
    exact ih habove fun directory hd => h directory (hd.trans (List.prefix_append _ _))

end Discovery

section Loaded

variable (t : FileTree) (here : List Text) (environment : Environment)

def loaded (path : Option Path) (o : Overrides := {}) : Except ConfigError Config :=
  (runOn (load (machine here environment) path o) t).1

theorem loaded_eq_map (path : Option Path) (o : Overrides) :
    loaded t here environment path o = (loaded t here environment path).map (·.override o) := by
  rw [loaded, loaded, load, load, runOn_map, runOn_map]
  cases (runOn (loadPlain (machine here environment) path) t).1 <;> rfl

theorem runOn_loadPlain_some (path : Path) :
    runOn (loadPlain (machine here environment) (some path)) t =
      if t.exists? here path then runOn (loadFile (machine here environment) path) t
      else (.error (.notFound path), t) := by
  have hexists : ((machine here environment).exists? path).run t = (t.exists? here path, t) := rfl
  rw [loadPlain, runOn_bind, runOn_liftM, hexists]
  cases t.exists? here path <;> rfl

theorem runOn_loadPlain_none :
    runOn (loadPlain (machine here environment) none) t =
      match found? t here here with
      | some path => runOn (loadFile (machine here environment) path) t
      | none => (.ok (ofDirectory (ofNames here)), t) := by
  have hhere : (machine here environment).currentDirectory.run t = (ofNames here, t) := rfl
  rw [loadPlain, runOn_bind, runOn_liftM, hhere]
  dsimp only
  rw [runOn_bind, runOn_liftM, run_findFile, ← found?]
  cases found? t here here <;> rfl

theorem loaded_none (o : Overrides) : loaded t here environment none o =
    match found? t here here with
    | some path => loaded t here environment (some path) o
    | none => .ok ((ofDirectory (ofNames here)).override o) := by
  have hnone := runOn_loadPlain_none t here environment
  rw [loaded, load, runOn_map, hnone]
  cases hfound : found? t here here with
  | none => rfl
  | some path =>
    have hexists : t.exists? here path = true := List.find?_some hfound
    dsimp only
    rw [loaded, load, runOn_map, runOn_loadPlain_some, if_pos hexists]

end Loaded

/-- What is loaded has passed validation, whatever variables stand for. Overriding makes nothing fail
and changes nothing else. Without a path the nearest directory that has a configuration file decides,
and where none has one the defaults count, with the chunks in the current directory. -/
theorem load_valid_overridden_nearest {here : List Text} (hhere : ∀ n ∈ here, EntryName n)
    (t : FileTree) (environment : Environment) (path : Option Path) (o : Overrides) :
    (∀ c, loaded t here environment path o = .ok c → c.validate = .ok ()) ∧
      (∀ e, loaded t here environment path o = .error e ↔
        loaded t here environment path = .error e) ∧
      (∀ c, loaded t here environment path = .ok c →
        ∃ c', loaded t here environment path o = .ok c' ∧ Overridden o c c') ∧
      (∀ directory, Nearest t here directory → loaded t here environment none o =
        loaded t here environment (some (Path.join (ofNames directory) fileName)) o) ∧
      ((∀ directory, directory <+: here → ¬ t.Holds directory fileName) →
        loaded t here environment none o = .ok
          { chunks :=
              { directory := o.chunkDirectory.getD (ofNames (here ++ ["chunks".toList]))
                extension := "html".toList
                preload := [] }
            cache := { enabled := o.cacheEnabled.getD true, renderTtl := 84600, chunkTtl := 86400 }
            format :=
              { decimalSeparator := ".".toList
                thousandSeparator := ",".toList
                currencyCode := "USD".toList
                booleanTrue := "Yes".toList
                booleanFalse := "No".toList }
            project := ofNames here
            file := none }) := by
  refine ⟨fun c hc => (load_valid path o t trivial).2 c hc, fun e => ?_, fun c hc => ?_,
    fun directory hnearest => ?_, fun hnone => ?_⟩
  · rw [loaded_eq_map]
    cases loaded t here environment path <;> simp [Except.map]
  · exact ⟨c.override o, by rw [loaded_eq_map, hc]; rfl, overridden_override c o⟩
  · rw [loaded_none, found?_of_nearest hhere hnearest]
  · have hchunks : '/' ∉ "chunks".toList := by decide
    rw [loaded_none, found?_of_none hhere hnone, ← Path.join_ofNames hhere hchunks]
    rfl

def siteFiles (files : List (List Text × String)) : FileTree where
  nodes := .ofList ([(["site".toList], .directory), (["site".toList, "page".toList], .directory)] ++
    files.map fun (names, content) => (names, .file (Text.toUtf8 content.toList)))

theorem load_valid_overridden_nearest_site :
    let here := ["site".toList, "page".toList]
    let environment := Environment.ofPairs [("EXT".toList, "tpl".toList)]
    let o : Overrides := ⟨some "parts".toList, some false⟩
    let t := siteFiles [(["cb.toml".toList], "[cache]\nchunk_ttl = 0\n"),
      (["site".toList, "cb.toml".toList],
        "[chunks]\nextension = '$\x7bEXT\x7d'\n[cache]\nchunk_ttl = 60\n")]
    let c : Config :=
      { chunks := { directory := "/site/chunks".toList, extension := "tpl".toList }
        cache := { chunkTtl := 60 }
        project := "/site".toList
        file := some "/site/cb.toml".toList }
    (∀ n ∈ here, EntryName n) ∧ Nearest t here ["site".toList] ∧
      loaded t here environment (some "/site/cb.toml".toList) = .ok c ∧
      loaded t here environment none = .ok c ∧ c.validate = .ok () ∧
      (∃ c', loaded t here environment none o = .ok c' ∧ Overridden o c c') ∧
      (∀ directory, directory <+: here → ¬ (siteFiles []).Holds directory fileName) ∧
      loaded (siteFiles []) here environment none =
        .ok { chunks := { directory := "/site/page/chunks".toList }, project := "/site/page".toList } := by
  intro here environment o t c
  have hhere : ∀ n ∈ here, EntryName n := by
    intro n hn
    simp only [here, List.mem_cons, List.not_mem_nil, or_false] at hn
    rcases hn with rfl | rfl <;> exact .of_length (by decide) (by decide)
  have hsite : t.Holds ["site".toList] fileName :=
    (FileTree.exists?_ofNames_iff here (by simpa [here] using hhere _ List.mem_cons_self)
      entryName_fileName).1 (by decide +kernel)
  have hpage : ¬ t.Holds here fileName := fun h => h.node (by decide +kernel)
  have hnearest : Nearest t here ["site".toList] := by
    refine ⟨⟨["page".toList], rfl⟩, hsite, fun other hother hholds => ?_⟩
    rcases hother.length_le.lt_or_eq with hlt | heq
    · exact Nat.le_of_lt_succ hlt
    · exact absurd (hother.eq_of_length heq ▸ hholds) hpage
  have hfile : loaded t here environment (some "/site/cb.toml".toList) = .ok c := by
    decide +kernel
  obtain ⟨hvalid, -, -, hdiscovered, -⟩ := load_valid_overridden_nearest hhere t environment none {}
  have hnone : loaded t here environment none = .ok c := (hdiscovered _ hnearest).trans hfile
  obtain ⟨-, -, hother, -⟩ := load_valid_overridden_nearest hhere t environment none o
  have hbare : ∀ directory, directory <+: here → ¬ (siteFiles []).Holds directory fileName := by
    have hnothing : ∀ directory ∈ here.inits,
        (siteFiles []).node? (directory ++ [fileName]) = none := by decide +kernel
    exact fun directory hp h => h.node (hnothing directory ((List.mem_inits _ _).2 hp))
  obtain ⟨-, -, -, -, hdefaults⟩ :=
    load_valid_overridden_nearest hhere (siteFiles []) environment none {}
  exact ⟨hhere, hnearest, hfile, hnone, hvalid c hnone, hother c hnone, hbare, hdefaults hbare⟩

end Config
end ContentWeave
