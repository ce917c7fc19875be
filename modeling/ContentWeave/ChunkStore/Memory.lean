import ContentWeave.ChunkStore.Basic
import ContentWeave.Table

/-!
A chunk store in memory.  It counts the questions it is asked, and can be told to fail.
-/

namespace ContentWeave

structure MemoryStore where
  /-- Templates, and whether to load them before the first use. -/
  chunks : Table Text (Text × Bool) := {}
  lookups : Table Text Nat := {}
  preloads : Nat := 0
  failing : Bool := false

namespace MemoryStore

def insert (s : MemoryStore) (key template : Text) (preload : Bool) : MemoryStore :=
  { s with chunks := s.chunks.insert key (template, preload) }

def lookupsOf (s : MemoryStore) (key : Text) : Nat := (s.lookups.get? key).getD 0

def totalLookups (s : MemoryStore) : Nat := s.lookups.entries.foldl (fun total (_, count) => total + count) 0

def outage : StorageError := { kind := .unavailable, backend := some "Mock".toList }

def find (s : MemoryStore) (key : Text) : Except StorageError (Option Text) × MemoryStore :=
  let s := { s with lookups := s.lookups.insert key (s.lookupsOf key + 1) }
  (if s.failing then .error outage else .ok ((s.chunks.get? key).map Prod.fst), s)

def preloaded (s : MemoryStore) : List (Text × Text) :=
  s.chunks.sorted.filterMap fun (key, template, first) =>
    if first then some (key, template) else none

def findPreloaded (s : MemoryStore) : Except StorageError (List (Text × Text)) × MemoryStore :=
  let s := { s with preloads := s.preloads + 1 }
  (if s.failing then .error outage else .ok s.preloaded, s)

def asStore {m : Type → Type} [Monad m] [MonadStateOf MemoryStore m] : ChunkStore m where
  find key := ExceptT.mk (modifyGetThe MemoryStore (·.find key))
  findPreloaded := ExceptT.mk (modifyGetThe MemoryStore (·.findPreloaded))

end MemoryStore
end ContentWeave
