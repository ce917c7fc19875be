import ContentWeave.Cache.Directory
import ContentWeave.Cache.Memory
import ContentWeave.Files.Tree
import ContentWeave.Proofs.Compile.Running
import Mathlib.Data.Set.Insert
import Mathlib.Logic.Function.Basic

/-!
# Sessions

Clients compile content over one cache that they share, each with resident templates of its own. The
cache is in memory or in a directory. The world holds it together with a clock and with the turns
that are still to come: every operation of a cache, of a disk or of a store takes a turn, which sets
the clock and says whether the operation works, fails, or does its work and fails afterwards. Over
all worlds this is every order of failures and every passing of time.
-/

namespace ContentWeave

inductive Fate
  | works
  | fails (reason : Text)
  | failsLate (reason : Text)

structure Turn where
  now : ℕ
  fate : Fate := .works

structure World where
  memory : MemoryCache := {}
  tree : FileTree := {}
  now : ℕ := 0
  turns : List Turn := []

namespace World

instance : MonadStateOf MemoryCache (StateM World) where
  get := StateT.modifyGet fun w => (w.memory, w)
  set memory := StateT.modifyGet fun w => ((), { w with memory })
  modifyGet f := StateT.modifyGet fun w => ((f w.memory).1, { w with memory := (f w.memory).2 })

instance : MonadStateOf FileTree (StateM World) where
  get := StateT.modifyGet fun w => (w.tree, w)
  set tree := StateT.modifyGet fun w => ((), { w with tree })
  modifyGet f := StateT.modifyGet fun w => ((f w.tree).1, { w with tree := (f w.tree).2 })

def clock : StateM World ℕ := StateT.modifyGet fun w => (w.now, w)

/-- Without turns to come, operations work and the clock stands still. -/
def nextTurn : StateM World Fate := StateT.modifyGet fun w =>
  match w.turns with
  | [] => (.works, w)
  | turn :: turns => (turn.fate, { w with now := turn.now, turns })

end World

def exposed {ε α : Type} (lost : Text → ε) (x : ExceptT ε (StateM World) α) :
    ExceptT ε (StateM World) α := do
  match ← (World.nextTurn : StateM World Fate) with
  | .works => x
  | .fails reason => throw (lost reason)
  | .failsLate reason => do
    let _ ← x
    throw (lost reason)

def disk (here : List Text) : Host (StateM World) :=
  let host := FileTree.host here World.clock
  { host with
    read := fun path => exposed .other (host.read path)
    write := fun path content => exposed .other (host.write path content)
    replace := fun path content => exposed .other (host.replace path content)
    makeDirectories := fun path => exposed .other (host.makeDirectories path)
    removeTree := fun path => exposed .other (host.removeTree path) }

def Cache.exposed (cache : Cache (StateM World)) : Cache (StateM World) where
  get key := ContentWeave.exposed .backend (cache.get key)
  set key value ttl dependency := ContentWeave.exposed .backend (cache.set key value ttl dependency)
  invalidate tags := ContentWeave.exposed .backend (cache.invalidate tags)

inductive Backend
  | memory
  | directory (here : List Text) (root : Path)

namespace Backend

def directoryCache (here : List Text) (root : Path) : DirectoryCache (StateM World) :=
  { host := disk here, root }

def cache : Backend → Cache (StateM World)
  | memory => (MemoryCache.asCache World.clock).exposed
  | directory here root => (directoryCache here root).asCache.exposed

end Backend

/-- A chunk store that answers the same question always alike. -/
structure Shelf where
  find : Text → Except StorageError (Option Text)
  preloaded : Except StorageError (List (Text × Text))

namespace Shelf

def asStore {m : Type → Type} [Monad m] (shelf : Shelf) : ChunkStore m where
  find key := ExceptT.mk (return shelf.find key)
  findPreloaded := ExceptT.mk (return shelf.preloaded)

def outage (reason : Text) : StorageError := { kind := .unavailable, source := some reason }

def exposed (shelf : Shelf) : ChunkStore (StateM World) where
  find key := ContentWeave.exposed outage (shelf.asStore.find key)
  findPreloaded := ContentWeave.exposed outage shelf.asStore.findPreloaded

end Shelf

structure Materials where
  shelf : Shelf
  formats : Format.Formats := Format.Registry.builtins {}
  forms : FormRenderer := .hidden

/-- A compiler but for its cache. The number tells which resident templates are its own. -/
structure Client extends Materials where
  who : ℕ
  lookupTtl : ℕ := 86400000
  renderTtl : ℕ := 84600000

def Materials.uncached (materials : Materials) : Compiler (StateM Unit) :=
  { Compiler.ofStore materials.shelf.asStore .never with
    formats := materials.formats
    forms := materials.forms }

def Client.compiler (client : Client) (backend : Backend) : Compiler (StateM World) where
  templates := { store := client.shelf.exposed, cache := backend.cache, ttl := client.lookupTtl }
  cache := backend.cache
  formats := client.formats
  forms := client.forms
  renderTtl := client.renderTtl

inductive Event
  | compile (client : Client) (content contentKey : Text) (dependency : Dependency)
  | fetch (client : Client) (key : Text)
  | preload (client : Client)
  | invalidate (tags : List Text)

namespace Event

def directives : Event → List Directive
  | compile _ content _ _ => Directive.scan content
  | _ => []

def keys : Event → List Text
  | compile _ content contentKey _ =>
    TemplateSource.preloadKey :: (Directive.scan content).flatMap fun d =>
      [TemplateSource.lookupKey d.key, Compiler.renderKey d.key contentKey]
  | fetch _ key => [TemplateSource.lookupKey key]
  | preload _ => [TemplateSource.preloadKey]
  | invalidate _ => []

section Keys

variable {client : Client} {content contentKey : Text} {dependency : Dependency} {d : Directive}

theorem preloadKey_mem_keys :
    TemplateSource.preloadKey ∈ (compile client content contentKey dependency).keys :=
  List.mem_cons_self

theorem lookupKey_mem_keys (hd : d ∈ Directive.scan content) :
    TemplateSource.lookupKey d.key ∈ (compile client content contentKey dependency).keys :=
  List.mem_cons_of_mem _ (List.mem_flatMap.2 ⟨d, hd, by simp⟩)

theorem renderKey_mem_keys (hd : d ∈ Directive.scan content) :
    Compiler.renderKey d.key contentKey ∈ (compile client content contentKey dependency).keys :=
  List.mem_cons_of_mem _ (List.mem_flatMap.2 ⟨d, hd, by simp⟩)

end Keys

end Event

def keysOf (events : List Event) : Set Text := { key | key ∈ events.flatMap Event.keys }

theorem mem_keysOf {events : List Event} {e : Event} {key : Text} (he : e ∈ events)
    (hkey : key ∈ e.keys) : key ∈ keysOf events :=
  List.mem_flatMap.2 ⟨e, he, hkey⟩

theorem keysOf_mono {events events' : List Event} (h : events ⊆ events') :
    keysOf events ⊆ keysOf events' := by
  intro key hkey
  obtain ⟨e, he, hkeye⟩ := List.mem_flatMap.1 hkey
  exact mem_keysOf (h he) hkeye

structure Session where
  residents : ℕ → TemplateCache := fun _ => {}
  world : World := {}

namespace Session

variable {ε α : Type}

def settle (s : Session) (who : ℕ) (outcome : Except ε α × TemplateCache × World) : Session :=
  ⟨Function.update s.residents who outcome.2.1, outcome.2.2⟩

def run (s : Session) (client : Client) (x : Compile (StateM World) α) :
    Except CompileError α × TemplateCache × World :=
  x.runFrom (s.residents client.who) s.world

def step (backend : Backend) (s : Session) : Event → Session
  | .compile client content contentKey dependency =>
    s.settle client.who
      (s.run client ((client.compiler backend).compile content contentKey dependency))
  | .fetch client key =>
    s.settle client.who (s.run client ((client.compiler backend).templates.fetch key))
  | .preload client => s.settle client.who (s.run client (client.compiler backend).templates.preload)
  | .invalidate tags => { s with world := (runOn (backend.cache.invalidate tags) s.world).2 }

def after (backend : Backend) (s : Session) (events : List Event) : Session :=
  events.foldl (step backend) s

end Session
end ContentWeave
