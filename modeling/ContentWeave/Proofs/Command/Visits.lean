import ContentWeave.Command.Run
import ContentWeave.Proofs.ChunkStore.Missing
import ContentWeave.Proofs.Command.Home

/-!
# Visits to a project

A visit is one run of the program on a tree of files. Reading the arguments and the configuration
changes nothing; then the project is opened, and the work is done over its cache.
-/

namespace ContentWeave

namespace Keeps

variable {σ ε ε' α β : Type} {inv : σ → Prop} {post : α → Prop}

theorem adapt {x : ExceptT ε (StateM σ) α} (f : ε → ε') (hx : Keeps inv x post) :
    Keeps inv (x.adapt f) post := by
  intro s hs
  obtain ⟨hi, hp⟩ := hx s hs
  rw [runOn_adapt]
  refine ⟨hi, fun a ha => hp a ?_⟩
  cases hr : (runOn x s).1 with
  | error e => simp [hr, Except.mapError] at ha
  | ok b => simpa [hr, Except.mapError] using ha

theorem mk_pure (r : Except ε α) :
    Keeps inv (ExceptT.mk (pure r) : ExceptT ε (StateM σ) α) fun _ => True :=
  fun _ hs => ⟨hs, fun _ _ => trivial⟩

end Keeps

/-- One run of the program, with the machine that it runs on. -/
structure Visit where
  arguments : List Text
  here : List Text := []
  now : ℕ := 0
  environment : Environment := {}
  input : Bytes := []

namespace Visit

variable (v : Visit) (i : Invocation) (t : FileTree)

def host : Host (StateM FileTree) :=
  FileTree.host v.here (pure v.now) v.environment v.input

def invocation : Except Command.Halt Invocation :=
  Invocation.ofArguments v.arguments (v.environment.valueOf? Command.chunkDirectoryVariable)

def outcome : Outcome := ((Command.run v.host v.arguments).run t).1

def leave : FileTree := ((Command.run v.host v.arguments).run t).2

def config : Except ConfigError Config := (runOn (Config.load v.host i.config i.overrides) t).1

theorem run_eq : (Command.run v.host v.arguments).run t =
    match v.invocation with
    | .error halt =>
      (.halted (v.environment.valueOf? Command.chunkDirectoryVariable) halt, t)
    | .ok i =>
      match runOn (i.perform v.host) t with
      | (.ok outcome, t') => (outcome, t')
      | (.error e, t') => (.failed e, t') := by
  have hfallback : (v.host.valueOf Command.chunkDirectoryVariable).run t =
      (v.environment.valueOf? Command.chunkDirectoryVariable, t) := rfl
  rw [Command.run, DirectoryCache.run_bind, hfallback, invocation]
  dsimp only
  cases Invocation.ofArguments v.arguments
      (v.environment.valueOf? Command.chunkDirectoryVariable) with
  | error halt => rfl
  | ok i =>
    have hperform : (i.perform v.host).run.run t = runOn (i.perform v.host) t := rfl
    dsimp only
    rw [Invocation.run, DirectoryCache.run_bind, hperform]
    rcases runOn (i.perform v.host) t with ⟨⟨e⟩ | ⟨outcome⟩, t'⟩ <;> rfl

section Reading

variable {v i t}

theorem readText_keeps {inv : FileTree → Prop} (path : Path) :
    Keeps inv (v.host.readText path) fun _ => True := by
  intro s hs
  rw [Host.runOn_readText]
  exact ⟨hs, fun _ _ => trivial⟩

theorem expand_keeps {inv : FileTree → Prop} (s : Text) :
    Keeps inv (SettingPart.expand v.host.valueOf s) fun _ => True := by
  refine Keeps.map (Keeps.mapM (fun part => ?_) _) fun _ _ => trivial
  cases part with
  | char c => exact Keeps.pure trivial
  | reference name default =>
    refine Keeps.bind (Keeps.lift fun _ => rfl) fun value _ => ?_
    cases value with
    | some value => exact Keeps.pure trivial
    | none =>
      cases default with
      | some default => exact Keeps.pure trivial
      | none => exact Keeps.throw name

theorem loadFile_keeps {inv : FileTree → Prop} (path : Path) :
    Keeps inv (Config.loadFile v.host path) fun _ => True := by
  unfold Config.loadFile
  refine Keeps.bind (Keeps.adapt _ (readText_keeps path)) fun written _ => ?_
  cases Config.Draft.parse? written with
  | none => exact Keeps.throw _
  | some draft =>
    have hsetting : ∀ setting s, Keeps inv
        (Config.Draft.expandSetting v.host.valueOf setting s) fun _ => True :=
      fun setting s => Keeps.adapt _ (expand_keeps s)
    have hexpand : Keeps inv (draft.expand v.host.valueOf) fun _ => True :=
      Keeps.bind (hsetting _ _) fun _ _ => Keeps.bind (hsetting _ _) fun _ _ =>
        Keeps.bind (hsetting _ _) fun _ _ => Keeps.pure trivial
    refine Keeps.bind hexpand fun draft _ => ?_
    exact Keeps.bind (Keeps.mk_pure _) fun _ _ => Keeps.pure trivial

theorem run_findFile (directories : List Path) (t : FileTree) :
    ((Config.findFile v.host directories).run t).2 = t := by
  induction directories with
  | nil => rfl
  | cons directory directories ih =>
    have hexists : (v.host.exists? (Path.join directory Config.fileName)).run t =
        (t.exists? v.here (Path.join directory Config.fileName), t) := rfl
    rw [Config.findFile, DirectoryCache.run_bind, hexists]
    cases t.exists? v.here (Path.join directory Config.fileName) with
    | true => rfl
    | false => exact ih

theorem load_keeps {inv : FileTree → Prop} (path : Option Path) (overrides : Overrides) :
    Keeps inv (Config.load v.host path overrides) fun _ => True := by
  refine Keeps.map (?_ : Keeps inv _ fun _ => True) fun _ _ => trivial
  cases path with
  | some path =>
    refine Keeps.bind (Keeps.lift fun _ => rfl) fun found _ => ?_
    cases found with
    | true => exact loadFile_keeps path
    | false => exact Keeps.throw _
  | none =>
    refine Keeps.bind (Keeps.lift fun _ => rfl) fun here _ => ?_
    refine Keeps.bind (Keeps.lift (run_findFile _)) fun found _ => ?_
    cases found with
    | some path => exact loadFile_keeps path
    | none => exact Keeps.pure trivial

end Reading

theorem runOn_load :
    runOn (Config.load v.host i.config i.overrides) t = (v.config i t, t) := by
  have hkeeps : Keeps (· = t) (Config.load v.host i.config i.overrides) fun _ => True :=
    load_keeps i.config i.overrides
  exact Prod.ext rfl (hkeeps t rfl).1

theorem runOn_project : runOn (i.project v.host) t =
    match v.config i t with
    | .error e => (.error (.config e), t)
    | .ok c =>
      match runOn (Project.openCache v.host c) t with
      | (.error e, t') => (.error e, t')
      | (.ok cache, t') => (.ok ⟨c, c.chunks.asStore v.host, cache⟩, t') := by
  have hload := v.runOn_load i t
  have hconfig : runOn ((Config.load v.host i.config i.overrides).adapt RunError.config) t =
      ((v.config i t).mapError .config, t) := by
    rw [runOn_adapt, hload]
  rw [Invocation.project, Project.load, runOn_bind, hconfig]
  cases v.config i t with
  | error e => rfl
  | ok c =>
    dsimp only [Except.mapError]
    rw [runOn_bind]
    rcases runOn (Project.openCache v.host c) t with ⟨⟨e⟩ | ⟨cache⟩, t'⟩ <;> rfl

theorem runOn_compile {α : Type} (x : Compile (StateM FileTree) α) (t : FileTree) :
    runOn (Project.compile x) t =
      ((x.runFrom {} t).1.mapError .compile, (x.runFrom {} t).2.2) := rfl

open Project

/-- A visit uses the cache of the project in `home`, if it uses one. -/
def AtHome (home : List Text) : Prop :=
  ∀ i c, v.invocation = .ok i → v.config i t = .ok c → c.cache.enabled = true →
    Address t v.here c.project home

/-- What the chunk directory of a visit answers about a key, whatever the program has written by
then. -/
def Sees (key : Text) (answer : Except StorageError (Option Text)) : Prop :=
  ∃ i c t', v.invocation = .ok i ∧ v.config i t = .ok c ∧ t.Grows t' ∧
    c.chunks.answerIn t' v.here key = answer

def Caches : Prop := ∃ i c, v.invocation = .ok i ∧ v.config i t = .ok c ∧ c.cache.enabled = true

/-- The content that a visit compiles, and its key. -/
def page? : Option (Text × Text) :=
  match v.invocation with
  | .ok { command := .render file contentKey _, .. } =>
    (runOn (Invocation.content v.host file) t).1.toOption.map fun content =>
      (content, contentKey.getD file)
  | _ => none

def calls : List Directive :=
  match v.page? t with
  | some (content, _) => (Directive.scan content).filter (·.kind = .chunk)
  | none => []

/-- The keys of the chunks that a visit looks up, unless they are resident or rendered already. -/
def asked : List Text :=
  match v.invocation with
  | .ok { command := .chunk key, .. } => [key]
  | _ => (v.calls t).map (·.key)

/-- The keys under which a visit can keep what chunk calls became. -/
def rendered : List Text :=
  match v.page? t with
  | some (_, contentKey) => (v.calls t).map fun d => Compiler.renderKey d.key contentKey
  | none => []

/-- A visit looks a chunk up, with the cache on, and its chunk directory answers. -/
structure Tells (key : Text) (found : Option Text) : Prop where
  asked : key ∈ v.asked t
  caches : v.Caches t
  sees : v.Sees t key (.ok found)

/-- What a visit can put into the cache of its project, and under which keys. -/
inductive Writes : Text → Text → Prop
  | lookup {key : Text} {found : Option Text} (h : v.Tells t key found) :
      Writes (TemplateSource.lookupKey key) (Json.Codec.optionalText.encode found)
  | preload {value : Text} (h : v.page? t ≠ none) : Writes TemplateSource.preloadKey value
  | rendered {key value : Text} (h : key ∈ v.rendered t) : Writes key value

/-- Nothing but look-ups of a chunk comes into the file of its look-up: what a visit rendered is not
kept under the key of the look-up, and other keys have other files. -/
structure Apart (key : Text) : Prop where
  lookups : ∀ k ∈ v.asked t,
    Digest.nameOf (TemplateSource.lookupKey k) = Digest.nameOf (TemplateSource.lookupKey key) → k = key
  preload : v.page? t ≠ none →
    Digest.nameOf TemplateSource.preloadKey ≠ Digest.nameOf (TemplateSource.lookupKey key)
  rendered : ∀ k ∈ v.rendered t, Digest.nameOf k ≠ Digest.nameOf (TemplateSource.lookupKey key)

section Effects

variable {v i t} {home : List Text} {key : Text} {holds : Text → Prop} {c : Config}
variable {cache : Cache (StateM FileTree)} {inv : FileTree → Prop} {fits : Text → Text → Prop}

theorem host_shows (inv : FileTree → Prop) : v.host.Shows inv v.here id :=
  fun _ _ hs => ⟨rfl, hs⟩

theorem findAll_keeps (d : ChunkDirectory) (keys : List Text) :
    Keeps inv (d.findAll v.host keys) fun _ => True := by
  induction keys with
  | nil => exact Keeps.pure trivial
  | cons k keys ih =>
    have hfind : Keeps inv (d.find v.host k) fun _ => True := fun s hs =>
      ⟨(ChunkDirectory.runOn_find_of_shows d k (host_shows inv) hs).2, fun _ _ => trivial⟩
    refine Keeps.bind hfind fun found _ => ?_
    cases found with
    | none => exact ih
    | some text => exact Keeps.bind ih fun _ _ => Keeps.pure trivial

section Work

variable (hcache : cache.Sound Set.univ fits inv)

include hcache

theorem fetch_leads {k : Text}
    (hfits : ∀ s, inv s → ∀ found, c.chunks.answerIn s v.here k = .ok found →
      fits (TemplateSource.lookupKey k) (Json.Codec.optionalText.encode found)) :
    Compile.Leads (fun _ => True) inv (fun _ => True)
      ((Project.mk c (c.chunks.asStore v.host) cache).compiler.templates.fetch k)
      fun _ _ => True ∧ True := by
  have hask : Keeps inv (c.chunks.find v.host k) fun found =>
      fits (TemplateSource.lookupKey k) (Json.Codec.optionalText.encode found) := by
    intro s hs
    obtain ⟨hanswer, hi⟩ := ChunkDirectory.runOn_find_of_shows c.chunks k (v.host_shows inv) hs
    exact ⟨hi, fun found hfound => hfits s hs found (hanswer.symm.trans hfound)⟩
  refine TemplateSource.fetch_leads (fun _ => True) (fun pre => ?_) ?_ ?_
  · exact TemplateSource.throughCache_leads hcache (Set.mem_univ _) hask (fun _ ha => ha)
      (fun _ _ _ _ => trivial) fun _ _ => trivial
  · exact fun _ _ _ _ _ => ⟨trivial, trivial⟩
  · exact fun _ _ _ _ _ _ => ⟨trivial, trivial, trivial⟩

theorem compile_leads (content contentKey : Text) (dependency : Dependency)
    (hpreload : ∀ value, fits TemplateSource.preloadKey value)
    (hlookup : ∀ d ∈ Directive.scan content, d.kind = .chunk → ∀ s, inv s → ∀ found,
      c.chunks.answerIn s v.here d.key = .ok found →
        fits (TemplateSource.lookupKey d.key) (Json.Codec.optionalText.encode found))
    (hrendered : ∀ d ∈ Directive.scan content, d.kind = .chunk → ∀ value,
      fits (Compiler.renderKey d.key contentKey) value) :
    Compile.Leads (fun _ => True) inv (fun _ => True)
      ((Project.mk c (c.chunks.asStore v.host) cache).compiler.compile content contentKey dependency)
      fun _ _ => True := by
  have htable : Keeps inv (Table.ofList <$> c.chunks.findAll v.host c.chunks.preload) fun _ => True :=
    Keeps.map (findAll_keeps _ _) fun _ _ => trivial
  have hloaded : Compile.Leads (fun _ => True) inv (fun _ => True)
      (Project.mk c (c.chunks.asStore v.host) cache).compiler.templates.preload
      fun _ _ => True := by
    refine TemplateSource.preload_leads (fun _ => True) (fun pre => ?_) ?_ ?_
    · exact TemplateSource.throughCache_leads hcache (Set.mem_univ _) htable
        (fun _ _ => hpreload _) (fun _ _ _ _ => trivial) fun _ _ => trivial
    · exact fun _ _ _ _ => trivial
    · exact fun _ _ _ _ _ => ⟨trivial, trivial⟩
  have hexpand : ∀ d ∈ Directive.scan content, Compile.Leads (fun _ => True) inv (fun _ => True)
      ((Project.mk c (c.chunks.asStore v.host) cache).compiler.expand d contentKey dependency)
      fun _ _ => True ∧ True := fun d hd =>
    Compiler.expand_leads (fun _ => True) hcache (Set.mem_univ _) (fun _ _ => trivial)
      (fun hk => fetch_leads hcache (hlookup d hd hk)) (fun _ _ => trivial)
      (fun hk _ _ => hrendered d hd hk _) (fun _ => trivial) fun _ => trivial
  exact (Compiler.compile_leads hloaded hexpand).mono fun _ _ _ _ => trivial

end Work

theorem runOn_content (file : Path) (t : FileTree) :
    runOn (Invocation.content v.host file) t = ((runOn (Invocation.content v.host file) t).1, t) := by
  have hkeeps : Keeps (· = t) (Invocation.content v.host file) fun _ => True := by
    unfold Invocation.content
    refine Keeps.adapt _ ?_
    split_ifs
    · intro s hs
      exact ⟨hs, fun _ _ => trivial⟩
    · exact readText_keeps file
  exact Prod.ext rfl (hkeeps t rfl).1

/-- A project at rest: it has a cache in order or none, and what the file of the look-up of one key
holds satisfies a condition. -/
structure AtRest (home : List Text) (key : Text) (holds : Text → Prop) (t : FileTree) : Prop where
  usable : Vacant t home ∨ Furnished t home
  kept : ∀ value ∈ kept? t home (TemplateSource.lookupKey key), holds value

/-- A project that was opened: its cache is sound as long as an invariant holds, which has the project
at rest and everything else in its place. What fits is all if the cache is off. -/
structure Opened (start : FileTree) (home : List Text) (key : Text) (holds : Text → Prop)
    (enabled : Bool) (cache : Cache (StateM FileTree)) (fits : Text → Text → Prop)
    (inv : FileTree → Prop) : Prop where
  sound : cache.Sound Set.univ fits inv
  fits_of : ∀ k value, (enabled = true →
    Digest.nameOf k = Digest.nameOf (TemplateSource.lookupKey key) → holds value) → fits k value
  atRest : ∀ s, inv s → AtRest home key holds s
  grows : ∀ s, inv s → start.Grows s

theorem exists_openCache_atRest (h : AtRest home key holds t) (hhome : v.AtHome t home)
    (hi : v.invocation = .ok i) (hc : v.config i t = .ok c) :
    ∃ cache t' fits inv, runOn (openCache v.host c) t = (.ok cache, t') ∧ inv t' ∧
      Opened t home key holds c.cache.enabled cache fits inv := by
  cases henabled : c.cache.enabled with
  | false =>
    refine ⟨.never, t, fun _ _ => True, (· = t), ?_, rfl, .never, fun _ _ _ => trivial, ?_, ?_⟩
    · rw [openCache, if_neg (by simp [henabled])]
      rfl
    · rintro s rfl
      exact h
    · rintro s rfl
      exact .refl _
  | true =>
    have ha := hhome i c hi hc henabled
    obtain ⟨t', hrun, hfurnished, hgrows, hfiles⟩ := exists_openCache v.now v.environment
      v.input h.usable ha henabled
    refine ⟨_, t', _, Tended t home (TemplateSource.lookupKey key) holds, hrun, ?_,
      Tended.sound ha v.now, fun k value hholds => hholds rfl, fun s hs => ⟨.inr hs.furnished, hs.kept⟩,
      fun s hs => hs.grows⟩
    refine ⟨hfurnished, hgrows, fun value hvalue => h.kept value ?_⟩
    rw [kept?, DirectoryCache.entryIn?, hfiles] at hvalue
    exact hvalue

theorem compile_keeps {α : Type} {x : Compile (StateM FileTree) α}
    {post : α → TemplateCache → Prop}
    (h : Compile.Leads (fun _ => True) inv (fun _ => True) x post) :
    Keeps inv (Project.compile x) fun _ => True := by
  intro s hs
  rw [runOn_compile]
  exact ⟨(h {} s trivial hs trivial).2.1, fun _ _ => trivial⟩

section Leaving

variable (h : AtRest home key holds t) (hhome : v.AtHome t home)

include h hhome

theorem project_atRest {work : Project (StateM FileTree) → ExceptT RunError (StateM FileTree) Outcome}
    (hi : v.invocation = .ok i)
    (hwork : ∀ c cache fits inv, v.config i t = .ok c →
      Opened t home key holds c.cache.enabled cache fits inv →
      Keeps inv (work ⟨c, c.chunks.asStore v.host, cache⟩) fun _ => True) :
    AtRest home key holds (runOn (i.project v.host >>= work) t).2 := by
  rw [runOn_bind, runOn_project]
  cases hc : v.config i t with
  | error e => exact h
  | ok c =>
    obtain ⟨cache, t', fits, inv, hrun, hinv, hopened⟩ := exists_openCache_atRest h hhome hi hc
    dsimp only
    rw [hrun]
    exact hopened.atRest _ (hwork c cache fits inv hc hopened t' hinv).1

variable (hwrites : ∀ k value, v.Writes t k value →
  Digest.nameOf k = Digest.nameOf (TemplateSource.lookupKey key) → holds value)

include hwrites

theorem perform_atRest (hi : v.invocation = .ok i) :
    AtRest home key holds (runOn (i.perform v.host) t).2 := by
  have hlookup : ∀ c cache fits inv, v.config i t = .ok c →
      Opened t home key holds c.cache.enabled cache fits inv → ∀ k ∈ v.asked t, ∀ s, inv s →
      ∀ found, c.chunks.answerIn s v.here k = .ok found →
        fits (TemplateSource.lookupKey k) (Json.Codec.optionalText.encode found) :=
    fun c cache fits inv hc hopened k hk s hs found hfound => hopened.fits_of _ _ fun henabled =>
      hwrites _ _ (.lookup ⟨hk, ⟨i, c, hi, hc, henabled⟩, i, c, s, hi, hc, hopened.grows s hs, hfound⟩)
  obtain ⟨command, config, chunkDirectory, noCache, verbose⟩ := i
  cases command with
  | chunk k =>
    refine project_atRest h hhome hi fun c cache fits inv hc hopened => ?_
    have hk : k ∈ v.asked t := by simp [asked, hi]
    have hfetch := fetch_leads hopened.sound (hlookup c cache fits inv hc hopened k hk)
    refine Keeps.bind (compile_keeps hfetch) fun found _ => ?_
    cases found with
    | none => exact Keeps.throw _
    | some template => exact Keeps.pure trivial
  | invalidate tags =>
    refine project_atRest h hhome hi fun c cache fits inv _ hopened => ?_
    exact Keeps.bind (Keeps.adapt _ (hopened.sound.invalidate tags)) fun _ _ => Keeps.pure trivial
  | render file contentKey tags =>
    rw [Invocation.perform, runOn_bind, runOn_content]
    cases hcontent : (runOn (Invocation.content v.host file) t).1 with
    | error e => exact h
    | ok content =>
      have hpage : v.page? t = some (content, contentKey.getD file) := by
        simp [page?, hi, hcontent, Except.toOption]
      have hcall : ∀ d ∈ Directive.scan content, d.kind = .chunk → d ∈ v.calls t := by
        intro d hd hk
        simp [calls, hpage, hd, hk]
      have hasked : ∀ d ∈ Directive.scan content, d.kind = .chunk → d.key ∈ v.asked t := by
        intro d hd hk
        simpa [asked, hi] using ⟨d, hcall d hd hk, rfl⟩
      have hrendered : ∀ d ∈ Directive.scan content, d.kind = .chunk →
          Compiler.renderKey d.key (contentKey.getD file) ∈ v.rendered t := by
        intro d hd hk
        simpa [rendered, hpage] using ⟨d, hcall d hd hk, rfl⟩
      refine project_atRest h hhome hi fun c cache fits inv hc hopened => ?_
      have hcompile := compile_leads hopened.sound content (contentKey.getD file) ⟨tags⟩
        (fun value => hopened.fits_of _ _ fun _ => hwrites _ _ (.preload (by simp [hpage])))
        (fun d hd hk => hlookup c cache fits inv hc hopened d.key (hasked d hd hk))
        fun d hd hk value => hopened.fits_of _ _ fun _ => hwrites _ _ (.rendered (hrendered d hd hk))
      exact Keeps.bind (compile_keeps hcompile) fun _ _ => Keeps.pure trivial

theorem leave_atRest : AtRest home key holds (v.leave t) := by
  rw [leave, run_eq]
  cases hi : v.invocation with
  | error halt => exact h
  | ok i =>
    have hperform := perform_atRest h hhome hwrites hi
    dsimp only
    rcases hrun : runOn (i.perform v.host) t with ⟨⟨e⟩ | ⟨outcome⟩, t'⟩
    · rwa [hrun] at hperform
    · rwa [hrun] at hperform

end Leaving

end Effects

end Visit
end ContentWeave
