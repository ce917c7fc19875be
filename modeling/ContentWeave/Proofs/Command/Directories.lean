import ContentWeave.Proofs.Command.Visits
import Mathlib.Data.Nat.Digits.Defs

/-!
# Which chunk directory a template is printed from

Visits to one project share its cache, whatever chunk directories they are given, and the cache knows
a template by its key alone. So what a visit prints is what its own chunk directory has, or what that
of an earlier visit had.
-/

namespace ContentWeave

open Project

theorem Text.byteLength_le (s : Text) : byteLength s ≤ 4 * s.length := by
  induction s with
  | nil => exact Nat.le_refl 0
  | cons c s ih =>
    have hc := Char.utf8Size_le_four c
    rw [byteLength_cons, List.length_cons]
    omega

namespace DirectoryCache

variable {t : FileTree} {here : List Text} {root : Path} {now version : ℕ}

theorem encode_lookupTags (version : ℕ) : CacheEntry.tagsCodec.encode [(TemplateSource.tag, version)] =
    "[[\"chunks\",".toList ++ Text.ofNat version ++ "]]".toList := by
  have htag : Json.writeString TemplateSource.tag = "\"chunks\"".toList := by decide
  simp [Json.Codec.encode, CacheEntry.tagsCodec, Json.write, Json.writeItems, Json.ofNat, htag]

theorem length_lookupTags (h : version ≤ CacheEntry.maxNumber) :
    (CacheEntry.tagBytes [(TemplateSource.tag, version)]).length ≤ CacheEntry.maxTagsLength := by
  have hdigits : (Text.ofNat version).length ≤ 20 :=
    Nat.toDigits_length 10 version 20 (by decide) (Nat.lt_of_le_of_lt h (by decide))
  have hbytes := Text.byteLength_le (CacheEntry.tagsCodec.encode [(TemplateSource.tag, version)])
  rw [encode_lookupTags, List.length_append, List.length_append] at hbytes
  have hfront : "[[\"chunks\",".toList.length = 11 := by decide
  have hback : "]]".toList.length = 2 := by decide
  have hmost : 4 * 33 ≤ CacheEntry.maxTagsLength := by decide
  rw [CacheEntry.tagBytes, encode_lookupTags]
  unfold Text.byteLength at hbytes
  omega

theorem exists_set_lookup (hc : Installed t here root) (hn : Numbered t here root)
    (key value : Text) (ttl : ℕ) : ∃ t', runOn ((unfailing here root now).set key value ttl
      TemplateSource.dependency) t = (.ok (), t') := by
  have hshort := length_lookupTags (hn.version_le TemplateSource.tag)
  exact (exists_runOn_set hc hn key value ttl TemplateSource.dependency hshort).imp fun _ h => h.1

end DirectoryCache

theorem TemplateSource.runFrom_fetch_fresh {σ : Type} (s : TemplateSource (StateM σ)) (key : Text)
    {w : σ} {cached : Option Text} {answer : Except StorageError (Option Text)}
    (hget : runOn (s.cache.get (lookupKey key)) w = (.ok cached, w))
    (hask : runOn (s.store.find key) w = (answer, w))
    (hset : ∀ value, ∃ w', runOn (s.cache.set (lookupKey key) value s.ttl dependency) w =
      (.ok (), w')) :
    ((s.fetch key).runFrom {} w).1 =
      match cached.bind Json.Codec.optionalText.decode? with
      | some found => .ok found
      | none => answer.mapError .storage := by
  have hresident : ({} : TemplateCache).resident.get? key = none := rfl
  rw [runFrom_fetch, hresident, runFrom_throughCache, Cache.runOn_getAs, hget]
  dsimp only [Except.map]
  cases cached.bind Json.Codec.optionalText.decode? with
  | some found => rfl
  | none =>
    dsimp only
    rw [hask]
    cases answer with
    | error e => rfl
    | ok found =>
      obtain ⟨w', hw'⟩ := hset (Json.Codec.optionalText.encode found)
      dsimp only [Cache.setAs]
      rw [hw']
      rfl

namespace ChunkDirectory

variable {d : ChunkDirectory} {t t' : FileTree} {here names : List Text} {key : Text}

/-- What a directory has for a key: a text in the file of the key, or nothing, which it has for keys
that name no chunk. -/
def Has (d : ChunkDirectory) (t : FileTree) (here : List Text) (key : Text) : Option Text → Prop
  | some text => accepts key = true ∧ Path.EntryName (d.fileName key) ∧
      (∃ names, t.Reaches here d.directory names) ∧
      ∃ bytes, t.read here (Path.join d.directory (d.fileName key)) = .ok bytes ∧
        Text.ofUtf8? bytes = some text
  | none => accepts key = false ∨ ∃ names, t.Reaches here d.directory names ∧
      d.Misses t names key ∧ d.refusal? key = none

theorem dot_mem_fileName (d : ChunkDirectory) (h : accepts key = true) :
    '.' ∈ (d.fileName key).tail := by
  cases key with
  | nil => simp [accepts] at h
  | cons c s => simp [fileName]

theorem answerIn_of_grows (hdirectory : t.Reaches here d.directory names)
    (hname : accepts key = true → Path.EntryName (d.fileName key)) (hgrows : t.Grows t') :
    d.answerIn t' here key = d.answerIn t here key := by
  unfold answerIn path?
  cases haccepts : accepts key with
  | false => rfl
  | true =>
    simp only [if_true]
    rw [hdirectory.read_join (hname haccepts),
      (hdirectory.more hgrows.directory).read_join (hname haccepts),
      hgrows.dotted names _ (d.dot_mem_fileName haccepts)]

theorem Has.answerIn_eq {found : Option Text} (h : d.Has t here key found) (hgrows : t.Grows t') :
    d.answerIn t' here key = .ok found := by
  cases found with
  | none =>
    rcases h with hrejected | ⟨names, hdirectory, hmisses, hborne⟩
    · simp [answerIn, path?, hrejected]
    · rw [answerIn_of_grows hdirectory hmisses.name hgrows, hmisses.answerIn_eq hdirectory, hborne]
  | some text =>
    obtain ⟨haccepts, hname, ⟨names, hdirectory⟩, bytes, hread, htext⟩ := h
    rw [answerIn_of_grows hdirectory (fun _ => hname) hgrows, answerIn, path?, if_pos haccepts]
    dsimp only
    rw [hread]
    simp only [bind, Except.bind, Host.decode, htext]
    rfl

end ChunkDirectory

def Outcome.ofLookup (key : Text) : Except StorageError (Option Text) → Outcome
  | .ok (some template) => .result template
  | .ok none => .failed (.chunkNotFound key)
  | .error e => .failed (.compile (.storage e))

namespace DirectoryCache

theorem held?_congr {t t' : FileTree} {here here' : List Text} {root root' : Path}
    (h : fileIn t here root = fileIn t' here' root') : held? t here root = held? t' here' root' := by
  have hentry : entryIn? t here root = entryIn? t' here' root' := by
    funext key
    rw [entryIn?, entryIn?, h]
  have hversion : versionIn t here root = versionIn t' here' root' := by
    funext tag
    rw [versionIn, versionIn, h]
  funext key
  simp only [held?, hentry, isCurrent, hversion]

end DirectoryCache

namespace Project

/-- The cache of a project answers a look-up: it holds one that still counts at this time. -/
def Live (t : FileTree) (home : List Text) (now : ℕ) (key : Text) (found : Option Text) : Prop :=
  ∃ h, DirectoryCache.held? t (cachePlace home) [] (TemplateSource.lookupKey key) = some h ∧
    h.Lasts (now / 1000) ∧ Json.Codec.optionalText.decode? h.value = some found

namespace Live

variable {t t' : FileTree} {home : List Text} {now : ℕ} {key : Text} {found other : Option Text}

theorem unique (h : Live t home now key found) (hother : Live t home now key other) : found = other := by
  obtain ⟨holding, hheld, -, hdecode⟩ := h
  obtain ⟨holding', hheld', -, hdecode'⟩ := hother
  obtain rfl : holding = holding' := Option.some.inj (hheld.symm.trans hheld')
  exact Option.some.inj (hdecode.symm.trans hdecode')

theorem congr (hfiles : DirectoryCache.fileIn t' (cachePlace home) [] =
    DirectoryCache.fileIn t (cachePlace home) []) :
    Live t' home now key found ↔ Live t home now key found := by
  rw [Live, Live, DirectoryCache.held?_congr hfiles]

theorem exists_kept (h : Live t home now key found) : ∃ value,
    kept? t home (TemplateSource.lookupKey key) = some value ∧
      Json.Codec.optionalText.decode? value = some found := by
  obtain ⟨holding, hheld, -, hdecode⟩ := h
  obtain ⟨e, he, -, hholding⟩ := DirectoryCache.held?_eq_some_iff.1 hheld
  obtain ⟨text, htext, rfl⟩ := Option.map_eq_some_iff.1 hholding
  exact ⟨text, Option.bind_eq_some_iff.2 ⟨e, he, htext⟩, hdecode⟩

end Live

end Project

namespace Visit

variable {v : Visit} {i : Invocation} {c : Config} {t : FileTree} {home : List Text} {key : Text}

variable (key) in
theorem exists_fetch (ha : Address t v.here c.project home) (hf : Furnished t home) :
    ∃ answer, ((Project.mk c (c.chunks.asStore v.host)
        (DirectoryCache.unfailing v.here (cacheRoot c.project) v.now).asCache).compiler.templates.fetch
          key |>.runFrom {} t).1 = answer.mapError .storage ∧
      ((∃ found, Live t home v.now key found ∧ answer = .ok found) ∨
        (∀ found, ¬ Live t home v.now key found) ∧ c.chunks.answerIn t v.here key = answer) := by
  have hc := hf.installed ha
  have hn := hf.numbered_here ha
  have hheld := DirectoryCache.held?_congr (DirectoryCache.fileIn_congr (t := t) (hf.namesFrom_cache ha))
  obtain ⟨cached, hget, hcached⟩ :=
    DirectoryCache.runOn_get v.now hc hn (TemplateSource.lookupKey key)
  rw [hheld] at hcached
  have hlive : ∀ found, Live t home v.now key found ↔
      cached.bind Json.Codec.optionalText.decode? = some found := by
    intro found
    rw [Option.bind_eq_some_iff]
    constructor
    · rintro ⟨h, hh, hlasts, hdecode⟩
      exact ⟨h.value, (hcached _).2 ⟨h, hh, hlasts, rfl⟩, hdecode⟩
    · rintro ⟨value, hvalue, hdecode⟩
      obtain ⟨h, hh, hlasts, rfl⟩ := (hcached value).1 hvalue
      exact ⟨h, hh, hlasts, hdecode⟩
  have hasked : runOn ((Project.mk c (c.chunks.asStore v.host) (DirectoryCache.unfailing v.here
      (cacheRoot c.project) v.now).asCache).compiler.templates.store.find key) t =
        (c.chunks.answerIn t v.here key, t) := by
    obtain ⟨hanswer, hstay⟩ :=
      ChunkDirectory.runOn_find_of_shows c.chunks key (v.host_shows (· = t)) rfl
    exact Prod.ext hanswer hstay
  rw [TemplateSource.runFrom_fetch_fresh _ key hget hasked fun value =>
    DirectoryCache.exists_set_lookup hc hn _ value _]
  cases hfound : cached.bind Json.Codec.optionalText.decode? with
  | none =>
    refine ⟨_, rfl, .inr ⟨fun found h => ?_, rfl⟩⟩
    exact absurd (hfound.symm.trans ((hlive found).1 h)) (Option.some_ne_none found).symm
  | some found => exact ⟨.ok found, rfl, .inl ⟨found, (hlive found).2 hfound, rfl⟩⟩

theorem outcome_of_fetch {p : Project (StateM FileTree)} {t' : FileTree}
    {answer : Except StorageError (Option Text)} (hi : v.invocation = .ok i)
    (hcommand : i.command = .chunk key) (hproject : runOn (i.project v.host) t = (.ok p, t'))
    (hfetch : ((p.compiler.templates.fetch key).runFrom {} t').1 = answer.mapError .storage) :
    v.outcome t = .ofLookup key answer := by
  have hcompile : (runOn (Project.compile (p.compiler.templates.fetch key)) t').1 =
      (answer.mapError .storage).mapError .compile := by
    rw [runOn_compile, hfetch]
  rw [outcome, run_eq, hi]
  dsimp only
  rw [Invocation.perform, hcommand]
  dsimp only
  rw [runOn_bind, hproject]
  dsimp only
  rw [runOn_bind]
  rcases hrun : runOn (Project.compile (p.compiler.templates.fetch key)) t' with ⟨r, t''⟩
  rw [hrun] at hcompile
  cases hcompile
  rcases answer with e | ⟨_ | template⟩ <;> rfl

/-- A visit that asks for a chunk prints what the cache of its project answers, and what its own chunk
directory answers if the cache does not. -/
theorem exists_outcome_chunk (hs : Vacant t home ∨ Furnished t home) (hhome : v.AtHome t home)
    (hi : v.invocation = .ok i) (hcommand : i.command = .chunk key) (hc : v.config i t = .ok c)
    (henabled : c.cache.enabled = true) :
    ∃ answer, v.outcome t = .ofLookup key answer ∧
      ((∃ found, Live t home v.now key found ∧ answer = .ok found) ∨
        (∀ found, ¬ Live t home v.now key found) ∧ v.Sees t key answer) := by
  have ha := hhome i c hi hc henabled
  obtain ⟨t', hopen, hfurnished, hgrows, hfiles⟩ := exists_openCache v.now v.environment
    v.input hs ha henabled
  have hproject : runOn (i.project v.host) t = (.ok ⟨c, c.chunks.asStore v.host,
      (DirectoryCache.unfailing v.here (cacheRoot c.project) v.now).asCache⟩, t') := by
    have hopen' : runOn (openCache v.host c) t = _ := hopen
    rw [runOn_project, hc]
    dsimp only
    rw [hopen']
  obtain ⟨answer, hfetch, hanswer⟩ :=
    exists_fetch key (ha.more hgrows.directory) hfurnished
  refine ⟨answer, outcome_of_fetch hi hcommand hproject hfetch, ?_⟩
  simp only [Live.congr hfiles] at hanswer
  exact hanswer.imp_right fun ⟨hnot, hsees⟩ => ⟨hnot, i, c, t', hi, hc, hgrows, hsees⟩

theorem directory_of_config {directory : Path} (hc : v.config i t = .ok c)
    (hdirectory : i.chunkDirectory = some directory) : c.chunks.directory = directory := by
  rw [config, Config.load, runOn_map] at hc
  cases hplain : (runOn (Config.loadPlain v.host i.config) t).1 with
  | error e =>
    rw [hplain] at hc
    cases hc
  | ok plain =>
    rw [hplain] at hc
    cases hc
    simp [Config.override, Invocation.overrides, hdirectory]

theorem Sees.eq_of_has {answer : Except StorageError (Option Text)} {found : Option Text}
    (h : v.Sees t key answer) (hi : v.invocation = .ok i) (hc : v.config i t = .ok c)
    (hhas : c.chunks.Has t v.here key found) : answer = .ok found := by
  obtain ⟨i', c', t', hi', hc', hgrows, rfl⟩ := h
  rw [hi] at hi'
  cases hi'
  rw [hc] at hc'
  cases hc'
  exact hhas.answerIn_eq hgrows

theorem atHome_of_address (hi : v.invocation = .ok i) (hc : v.config i t = .ok c)
    (ha : Address t v.here c.project home) : v.AtHome t home := by
  intro i' c' hi' hc' _
  rw [hi] at hi'
  cases hi'
  rw [hc] at hc'
  cases hc'
  exact ha

theorem caches_iff (hi : v.invocation = .ok i) (hc : v.config i t = .ok c) :
    v.Caches t ↔ c.cache.enabled = true := by
  constructor
  · rintro ⟨i', c', hi', hc', henabled⟩
    obtain rfl := Except.ok.inj (hi.symm.trans hi')
    obtain rfl := Except.ok.inj (hc.symm.trans hc')
    exact henabled
  · exact fun henabled => ⟨i, c, hi, hc, henabled⟩

theorem asked_of_chunk {k : Text} (hi : v.invocation = .ok i) (hcommand : i.command = .chunk k) :
    v.asked t = [k] := by
  obtain ⟨command, config, chunkDirectory, noCache, verbose⟩ := i
  obtain rfl : command = .chunk k := hcommand
  simp [asked, hi]

theorem apart_of_chunk {k : Text} (hi : v.invocation = .ok i) (hcommand : i.command = .chunk k)
    (hname : Digest.nameOf (TemplateSource.lookupKey k) =
      Digest.nameOf (TemplateSource.lookupKey key) → k = key) : v.Apart t key := by
  have hpage : v.page? t = none := by
    obtain ⟨command, config, chunkDirectory, noCache, verbose⟩ := i
    obtain rfl : command = .chunk k := hcommand
    simp [page?, hi]
  refine ⟨fun j hj => ?_, fun hsome => absurd hpage hsome, by simp [rendered, hpage]⟩
  rw [asked_of_chunk hi hcommand, List.mem_singleton] at hj
  rwa [hj]

theorem Writes.exists_tells {k value : Text} (h : v.Writes t k value) (hapart : v.Apart t key)
    (hname : Digest.nameOf k = Digest.nameOf (TemplateSource.lookupKey key)) :
    ∃ found, v.Tells t key found ∧ Json.Codec.optionalText.encode found = value := by
  cases h with
  | @lookup k found htells =>
    obtain rfl := hapart.lookups k htells.asked hname
    exact ⟨found, htells, rfl⟩
  | preload hpage => exact absurd hname (hapart.preload hpage)
  | rendered hk => exact absurd hname (hapart.rendered k hk)

end Visit

/-- The visits to a project so far, each with the files that it found, and the files as they are now.
Between visits everything can change but the data of the project. -/
inductive Diary (home : List Text) : List (Visit × FileTree) → FileTree → Prop
  | new {t : FileTree} (h : Vacant t home) : Diary home [] t
  | visit {past : List (Visit × FileTree)} {t : FileTree} {v : Visit} (h : Diary home past t)
      (hhome : v.AtHome t home) : Diary home (past ++ [(v, t)]) (v.leave t)
  | change {past : List (Visit × FileTree)} {t t' : FileTree} (h : Diary home past t)
      (hsame : ∀ names, dataPlace home <+: names → t'.node? names = t.node? names) :
      Diary home past t'

namespace Diary

variable {home : List Text} {past : List (Visit × FileTree)} {t t' : FileTree} {key : Text}
variable {holds : Text → Prop}

theorem kept?_congr (hsame : ∀ names, dataPlace home <+: names → t'.node? names = t.node? names) :
    kept? t' home = kept? t home := by
  have hfiles : DirectoryCache.fileIn t' (cachePlace home) [] =
      DirectoryCache.fileIn t (cachePlace home) [] := fileIn_of_cachePlace fun names hnames =>
    hsame names ((List.prefix_append _ _).trans hnames)
  funext k
  rw [kept?, kept?, DirectoryCache.entryIn?, DirectoryCache.entryIn?, hfiles]

theorem kept?_of_vacant (h : Vacant t home) (k : Text) : kept? t home k = none := by
  have hplace := cachePlace_prefix_file home .entries k
  rw [kept?, DirectoryCache.entryIn?, DirectoryCache.fileIn, FileTree.content?,
    h _ ((List.prefix_append _ _).trans hplace)]
  rfl

/-- However the project was visited, it is at rest with what the visits have put into one file. -/
theorem atRest (h : Diary home past t) (hwrites : ∀ e ∈ past, ∀ k value, e.1.Writes e.2 k value →
    Digest.nameOf k = Digest.nameOf (TemplateSource.lookupKey key) → holds value) :
    Visit.AtRest home key holds t := by
  induction h with
  | new hvacant =>
    refine ⟨.inl hvacant, fun value hvalue => ?_⟩
    rw [kept?_of_vacant hvacant] at hvalue
    cases hvalue
  | @visit past t v _ hhome ih =>
    have hbefore := ih fun e he => hwrites e (List.mem_append_left _ he)
    exact Visit.leave_atRest hbefore hhome
      (hwrites _ (List.mem_append_right _ (List.mem_singleton_self _)))
  | change _ hsame ih =>
    have hbefore := ih hwrites
    refine ⟨hbefore.usable.imp (fun hvacant names hnames => ?_) fun hfurnished => ?_,
      fun value hvalue => hbefore.kept value ?_⟩
    · rw [hsame names hnames, hvacant names hnames]
    · exact hfurnished.congr (hsame _ (List.prefix_refl _)) fun names hnames =>
        hsame names ((List.prefix_append _ _).trans hnames)
    · rwa [kept?_congr hsame] at hvalue

theorem usable (h : Diary home past t) : Vacant t home ∨ Furnished t home := by
  have hrest : Visit.AtRest home [] (fun _ => True) t := h.atRest fun _ _ _ _ _ _ => trivial
  exact hrest.usable

/-- What the cache answers to the look-up of a chunk was told by an earlier visit. -/
theorem exists_tells (h : Diary home past t) (hapart : ∀ e ∈ past, e.1.Apart e.2 key) {now : ℕ}
    {found : Option Text} (hlive : Live t home now key found) :
    ∃ e ∈ past, e.1.Tells e.2 key found := by
  have hrest : Visit.AtRest home key (fun value =>
      ∃ e ∈ past, ∃ found, e.1.Tells e.2 key found ∧ Json.Codec.optionalText.encode found = value) t :=
    h.atRest fun e he k value hvalue hname => ⟨e, he, hvalue.exists_tells (hapart e he) hname⟩
  obtain ⟨value, hkept, hdecode⟩ := hlive.exists_kept
  obtain ⟨e, he, told, htells, rfl⟩ := hrest.kept value hkept
  rw [Json.Codec.decode?_encode_optionalText] at hdecode
  cases hdecode
  exact ⟨e, he, htells⟩

end Diary

/-- A visit that is given a chunk directory uses it. It prints what the cache of the project answers to
the look-up of the key, and what its own chunk directory answers if the cache does not; so it prints
what is there exactly if the cache answers nothing else. The cache answers only what was told by an
earlier visit that looked the key up with the cache on. -/
theorem printed_template {home : List Text} {past : List (Visit × FileTree)} {t : FileTree}
    {v : Visit} {i : Invocation} {c : Config} {key : Text} {directory : Path}
    (hdiary : Diary home past t) (hhome : v.AtHome t home) (hi : v.invocation = .ok i)
    (hcommand : i.command = .chunk key) (hdirectory : i.chunkDirectory = some directory)
    (hc : v.config i t = .ok c) (henabled : c.cache.enabled = true) :
    c.chunks.directory = directory ∧
    (∃ answer, v.outcome t = .ofLookup key answer ∧
      ((∃ found, Live t home v.now key found ∧ answer = .ok found) ∨
        (∀ found, ¬ Live t home v.now key found) ∧ v.Sees t key answer)) ∧
    (∀ found, c.chunks.Has t v.here key found → (v.outcome t = .ofLookup key (.ok found) ↔
      ∀ other, Live t home v.now key other →
        Outcome.ofLookup key (.ok other) = .ofLookup key (.ok found))) ∧
    ((∀ e ∈ past, e.1.Apart e.2 key) →
      (∀ other, Live t home v.now key other → ∃ e ∈ past, e.1.Tells e.2 key other) ∧
      ∀ found, c.chunks.Has t v.here key found →
        (∀ e ∈ past, ∀ other, e.1.Tells e.2 key other → other = found) →
        v.outcome t = match found with
          | some template => .result template
          | none => .failed (.chunkNotFound key)) := by
  have hanswered := v.exists_outcome_chunk hdiary.usable hhome hi hcommand hc henabled
  have hiff : ∀ found, c.chunks.Has t v.here key found → (v.outcome t = .ofLookup key (.ok found) ↔
      ∀ other, Live t home v.now key other →
        Outcome.ofLookup key (.ok other) = .ofLookup key (.ok found)) := by
    intro found hhas
    obtain ⟨answer, houtcome, ⟨told, hlive, rfl⟩ | ⟨hnot, hsees⟩⟩ := hanswered
    · rw [houtcome]
      constructor
      · intro h other hother
        rwa [hother.unique hlive]
      · intro h
        exact h told hlive
    · rw [houtcome, hsees.eq_of_has hi hc hhas]
      exact ⟨fun _ other hother => absurd hother (hnot other), fun _ => rfl⟩
  refine ⟨Visit.directory_of_config hc hdirectory, hanswered, hiff, fun hapart => ?_⟩
  refine ⟨fun other hlive => hdiary.exists_tells hapart hlive, fun found hhas hagree => ?_⟩
  have hprinted : v.outcome t = .ofLookup key (.ok found) := by
    refine (hiff found hhas).2 fun other hlive => ?_
    obtain ⟨e, he, htells⟩ := hdiary.exists_tells hapart hlive
    rw [hagree e he other htells]
  rw [hprinted]
  cases found <;> rfl

def twoShops (inA inB : String) : FileTree where
  nodes := .ofList [(["a".toList], .directory), (["b".toList], .directory),
    (["a".toList, "x.html".toList], .file (Text.toUtf8 inA.toList)),
    (["b".toList, "x.html".toList], .file (Text.toUtf8 inB.toList))]

def askIn (directory key : String) (noCache : Bool := false) : Visit where
  arguments := (if noCache then ["--no-cache".toList] else []) ++
    ["--chunks-dir".toList, directory.toList, "chunk".toList, key.toList]

/-- Somebody has looked up another key in the first directory, and the key there with the cache off. The
second directory decides. -/
theorem printed_template_twoShops :
    let before := twoShops "from a" "from b"
    let between := (askIn "a" "y").leave before
    let t := (askIn "a" "x" true).leave between
    (askIn "a" "x" true).outcome between = .result "from a".toList ∧
      (askIn "b" "x").outcome t = .result "from b".toList := by
  intro before between t
  let config (directory : String) (enabled : Bool) : Config :=
    { chunks := { directory := directory.toList }, cache := { enabled }, project := ['/'] }
  let invocation (directory key : String) (noCache : Bool) : Invocation :=
    { command := .chunk key.toList, chunkDirectory := some directory.toList, noCache }
  have hvacant : Vacant before [] := by
    rintro names ⟨rest, rfl⟩
    have hnone : ∀ pair ∈ before.nodes.entries, pair.1.head? ≠ some ".cb".toList := by decide +kernel
    rw [FileTree.node?, if_neg (by simp [dataPlace]), Table.get?, Table.lookup_eq_none_iff]
    intro hmem
    obtain ⟨pair, hpair, hnames⟩ := List.mem_map.1 hmem
    exact hnone pair hpair (by rw [hnames]; rfl)
  have hfirst : (askIn "a" "y").invocation = .ok (invocation "a" "y" false) := by decide +kernel
  have hsecond : (askIn "a" "x" true).invocation = .ok (invocation "a" "x" true) := by decide +kernel
  have hthird : (askIn "b" "x").invocation = .ok (invocation "b" "x" false) := by decide +kernel
  have hconfig₁ : (askIn "a" "y").config (invocation "a" "y" false) before =
      .ok (config "a" true) := by decide +kernel
  have hconfig₂ : (askIn "a" "x" true).config (invocation "a" "x" true) between =
      .ok (config "a" false) := by decide +kernel
  have hconfig₃ : (askIn "b" "x").config (invocation "b" "x" false) t = .ok (config "b" true) := by
    decide +kernel
  have haddress : ∀ tree : FileTree, Address tree [] ['/'] [] := fun tree =>
    ⟨⟨by decide, rfl, rfl⟩, by decide⟩
  have hdiary : Diary [] [(askIn "a" "y", before), (askIn "a" "x" true, between)] t :=
    ((Diary.new hvacant).visit (Visit.atHome_of_address hfirst hconfig₁ (haddress before))).visit
      (Visit.atHome_of_address hsecond hconfig₂ (haddress between))
  have hname : Path.EntryName "x.html".toList := .of_length (by decide) (by decide)
  have hhas : (config "b" true).chunks.Has t [] "x".toList (some "from b".toList) :=
    ⟨by decide, hname, ⟨["b".toList], by decide, by decide +kernel, by decide +kernel⟩,
      Text.toUtf8 "from b".toList, by decide +kernel, by decide⟩
  have hapart : ∀ e ∈ [(askIn "a" "y", before), (askIn "a" "x" true, between)],
      e.1.Apart e.2 "x".toList := by
    simp only [List.forall_mem_cons]
    exact ⟨Visit.apart_of_chunk hfirst rfl fun h => absurd h (by decide +kernel),
      Visit.apart_of_chunk hsecond rfl fun _ => rfl, fun _ h => absurd h List.not_mem_nil⟩
  obtain ⟨-, -, -, hprinted⟩ := printed_template hdiary
    (Visit.atHome_of_address hthird hconfig₃ (haddress t)) hthird rfl rfl hconfig₃ rfl
  refine ⟨by decide +kernel, (hprinted hapart).2 (some "from b".toList) hhas fun e he other htells => ?_⟩
  simp only [List.mem_cons, List.not_mem_nil, or_false] at he
  rcases he with rfl | rfl
  · have hasked := htells.asked
    rw [Visit.asked_of_chunk hfirst rfl] at hasked
    exact absurd (List.mem_singleton.1 hasked) (by decide)
  · have hcaches := htells.caches
    dsimp only at hcaches
    rw [Visit.caches_iff hsecond hconfig₂] at hcaches
    cases hcaches

/-- What the first visit has seen is printed by the second, whatever its own directory has. -/
theorem printed_template_of_other_directory :
    let before := twoShops "from a" "from b"
    let t := (askIn "a" "x").leave before
    t.read [] "b/x.html".toList = .ok (Text.toUtf8 "from b".toList) ∧
      (askIn "b" "x").outcome before = .result "from b".toList ∧
      (askIn "b" "x").outcome t = .result "from a".toList := by
  decide +kernel

end ContentWeave
