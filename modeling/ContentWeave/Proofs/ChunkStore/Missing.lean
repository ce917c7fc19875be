import ContentWeave.Proofs.ChunkStore.Answers
import ContentWeave.Proofs.Compile.Success
import ContentWeave.Proofs.Files.Entries

/-!
# Chunks that are missing

For a chunk that is not there the answer of a chunk directory is that there is none, unless the disk
refuses the very name of its file; then it is an error. Compilations succeed as long as no such name
is asked for.
-/

namespace ContentWeave

variable {σ : Type} {inv : σ → Prop} {here : List Text} {tree : σ → FileTree}

namespace ChunkDirectory

variable {d : ChunkDirectory} {host : Host (StateM σ)} {names : List Text} {key text : Text}

theorem find_delivers (hhost : host.Shows inv here tree)
    (hfind : ∀ s, inv s → ∃ found, d.answerIn (tree s) here key = .ok found) :
    Delivers inv (d.find host key) := by
  intro s hs
  obtain ⟨hanswer, hi⟩ := runOn_find_of_shows d key hhost hs
  rw [hanswer]
  exact ⟨hfind s hs, hi⟩

theorem findAll_delivers {keys : List Text} (h : ∀ key ∈ keys, Delivers inv (d.find host key)) :
    Delivers inv (d.findAll host keys) := by
  induction keys with
  | nil => exact .pure []
  | cons key keys ih =>
    have hrest := ih fun k hk => h k (List.mem_cons_of_mem key hk)
    rw [findAll]
    refine (h key List.mem_cons_self).bind fun found => ?_
    cases found with
    | none => exact hrest
    | some text => exact hrest.bind fun rest => .pure ((key, text) :: rest)

/-- A directory of names has nothing under the file name of a chunk, which is a name an entry can have
if the key is one that a chunk can have. -/
structure Misses (d : ChunkDirectory) (t : FileTree) (names : List Text) (key : Text) : Prop where
  name : accepts key = true → Path.EntryName (d.fileName key)
  nothing : t.node? (names ++ [d.fileName key]) = none

/-- Why the disk refuses the file name of a chunk, if it is asked for that file at all. -/
def refusal? (d : ChunkDirectory) (key : Text) : Option FileError :=
  if accepts key then Path.refusal? d.directory (d.fileName key) else none

theorem Misses.answerIn_eq {t : FileTree} (hdirectory : t.Reaches here d.directory names)
    (h : d.Misses t names key) : d.answerIn t here key =
      match d.refusal? key with
      | none => .ok none
      | some e => .error (failure e key) := by
  unfold answerIn path? refusal?
  cases haccepts : accepts key with
  | false => rfl
  | true =>
    simp only [if_true]
    rw [hdirectory.read_join (h.name haccepts), h.nothing]
    cases hrefusal : Path.refusal? d.directory (d.fileName key) with
    | none => rfl
    | some e =>
      have hne := Path.refusal?_ne_notFound d.directory (d.fileName key)
      rw [hrefusal] at hne
      cases e <;> first | rfl | exact absurd rfl hne

/-- A chunk of which it is known whether it is there: it is missing under a name that the disk can
bear, or a text. -/
def Settles (d : ChunkDirectory) (t : FileTree) (here names : List Text) (key : Text) : Prop :=
  (d.Misses t names key ∧ d.refusal? key = none) ∨ ∃ text, d.answerIn t here key = .ok (some text)

theorem Settles.exists_answerIn {t : FileTree} (hdirectory : t.Reaches here d.directory names)
    (h : d.Settles t here names key) : ∃ found, d.answerIn t here key = .ok found := by
  rcases h with ⟨hmisses, hbearable⟩ | ⟨text, htext⟩
  · rw [hmisses.answerIn_eq hdirectory, hbearable]
    exact ⟨none, rfl⟩
  · exact ⟨some text, htext⟩

end ChunkDirectory

def chunkKeys (content : Text) : List Text :=
  ((Directive.scan content).filter (·.kind = .chunk)).map (·.key)

variable {d : ChunkDirectory} {host : Host (StateM σ)} {names : List Text}

/-- That a chunk is missing is an answer exactly if the disk bears the name of its file, and
compilations that ask for such chunks and for texts succeed. -/
theorem missing_chunk_is_answer (hhost : host.Shows inv here tree)
    (hdirectory : ∀ s, inv s → (tree s).Reaches here d.directory names) :
    (∀ key s, inv s → d.Misses (tree s) names key →
      (runOn (d.find host key) s).1 =
        match d.refusal? key with
        | none => .ok none
        | some e => .error (ChunkDirectory.failure e key)) ∧
    ∀ c : Compiler (StateM σ), c.templates.store = d.asStore host →
      c.templates.cache.Delivers inv → c.cache.Delivers inv →
      ∀ content contentKey dependency, (∀ key ∈ d.preload ++ chunkKeys content, ∀ s, inv s →
        d.Settles (tree s) here names key) →
      ∀ residents s, inv s →
        ∃ text, ((c.compile content contentKey dependency).runFrom residents s).1 = .ok text := by
  constructor
  · intro key s hs hmisses
    rw [(ChunkDirectory.runOn_find_of_shows d key hhost hs).1, hmisses.answerIn_eq (hdirectory s hs)]
  · intro c hstore htemplates hcache content contentKey dependency hsettles residents s hs
    have hfind : ∀ key ∈ d.preload ++ chunkKeys content, Delivers inv (d.find host key) :=
      fun key hkey => ChunkDirectory.find_delivers hhost fun s hs =>
        (hsettles key hkey s hs).exists_answerIn (hdirectory s hs)
    have hpreload : Delivers inv c.templates.store.findPreloaded := by
      rw [hstore]
      exact ChunkDirectory.findAll_delivers fun key hkey => hfind key (List.mem_append_left _ hkey)
    refine ((Compiler.compile_delivers htemplates hcache hpreload fun e he hkind => ?_)
      residents s hs).1
    rw [hstore]
    refine hfind e.key (List.mem_append_right _ ?_)
    exact List.mem_map_of_mem (List.mem_filter.2 ⟨he, by simpa using hkind⟩)

def Undisturbed (t : FileTree) (w : World) : Prop := w.tree = t ∧ w.turns = []

theorem disk_shows (t : FileTree) : (disk here).Shows (Undisturbed t) here World.tree := by
  rintro path ⟨memory, tree, now, turns⟩ ⟨rfl, rfl⟩
  exact ⟨rfl, rfl, rfl⟩

theorem memory_delivers (t : FileTree) : Backend.memory.cache.Delivers (Undisturbed t) where
  get := by
    rintro key ⟨memory, tree, now, turns⟩ ⟨rfl, rfl⟩
    exact ⟨⟨_, rfl⟩, rfl, rfl⟩
  set := by
    rintro key value ttl dependency ⟨memory, tree, now, turns⟩ ⟨rfl, rfl⟩
    exact ⟨⟨_, rfl⟩, rfl, rfl⟩

def teaTree : FileTree where
  nodes := .ofList [(["chunks".toList], .directory),
    (["chunks".toList, "tea.html".toList], .file (Text.toUtf8 "green tea".toList))]

def teaChunks : ChunkDirectory := { directory := "chunks".toList }

def teaCompiler : Compiler (StateM World) :=
  .ofStore (teaChunks.asStore (disk [])) Backend.memory.cache

theorem missing_chunk_is_answer_milk :
    (runOn (teaChunks.find (disk []) "milk".toList) { tree := teaTree }).1 = .ok none ∧
      ∃ text, ((teaCompiler.compile "[[$tea]] and [[$milk]]".toList [] {}).runFrom {}
        { tree := teaTree }).1 = .ok text := by
  have hreaches : teaTree.Reaches [] teaChunks.directory ["chunks".toList] :=
    ⟨by decide, by decide +kernel, by decide +kernel⟩
  have hmilk : teaChunks.Misses teaTree ["chunks".toList] "milk".toList :=
    ⟨fun _ => .of_length (by decide) (by decide), by decide +kernel⟩
  have hbearable : teaChunks.refusal? "milk".toList = none := by decide +kernel
  have htea : teaChunks.answerIn teaTree [] "tea".toList = .ok (some "green tea".toList) := by
    decide +kernel
  have hkeys : teaChunks.preload ++ chunkKeys "[[$tea]] and [[$milk]]".toList =
      ["tea".toList, "milk".toList] := by decide +kernel
  have hdirectory : ∀ w, Undisturbed teaTree w →
      w.tree.Reaches [] teaChunks.directory ["chunks".toList] := by
    rintro w ⟨htree, -⟩
    rwa [htree]
  obtain ⟨hfind, hcompile⟩ := missing_chunk_is_answer (disk_shows teaTree) hdirectory
  have hstart : Undisturbed teaTree { tree := teaTree } := ⟨rfl, rfl⟩
  constructor
  · rw [hfind _ _ hstart hmilk, hbearable]
  · refine hcompile teaCompiler rfl (memory_delivers _) (memory_delivers _) _ _ _ ?_ _ _ hstart
    rintro key hkey w ⟨htree, -⟩
    rw [hkeys] at hkey
    rw [htree]
    rcases List.mem_cons.1 hkey with rfl | hkey
    · exact .inr ⟨_, htea⟩
    · rw [List.mem_singleton.1 hkey]
      exact .inl ⟨hmilk, hbearable⟩

/-- The name of a chunk that is not there can be too long to be missed. -/
theorem missing_chunk_is_failure :
    let key := List.replicate 300 'a'
    teaTree.Reaches [] teaChunks.directory ["chunks".toList] ∧
      teaChunks.Misses teaTree ["chunks".toList] key ∧
      (runOn (teaChunks.find (disk []) key) { tree := teaTree }).1 =
        .error (ChunkDirectory.failure .nameTooLong key) ∧
      ((teaCompiler.compile ("[[$".toList ++ key ++ "]]".toList) [] {}).runFrom {}
        { tree := teaTree }).1 = .error (.storage (ChunkDirectory.failure .nameTooLong key)) := by
  refine ⟨⟨by decide, by decide +kernel, by decide +kernel⟩, ⟨fun _ => .of_length ?_ ?_, ?_⟩, ?_, ?_⟩
  all_goals decide +kernel

end ContentWeave
