import ContentWeave.Cache.Basic
import ContentWeave.ChunkStore.Basic

/-!
Templates in front of a chunk store.  A template that has been looked up once stays resident, a
missing one too, and later look-ups and preloads never replace it.  Look-ups that are not resident
go through a cache, so that those who share the cache ask the store once.
-/

namespace ContentWeave

inductive CompileError where
  | storage (cause : StorageError)
  | cache (cause : CacheError)
deriving DecidableEq

def CompileError.message : CompileError → Text
  | storage cause => "chunk store error: ".toList ++ cause.message
  | cache cause => "cache error: ".toList ++ cause.message

structure TemplateCache where
  preloaded : Bool := false
  /-- Templates, and keys that are known to have none. -/
  resident : Table Text (Option Text) := {}

namespace TemplateCache

def size (t : TemplateCache) : Nat := t.resident.size

def remember (t : TemplateCache) (key : Text) (template : Option Text) : TemplateCache :=
  { t with resident := t.resident.insertNew key template }

def rememberAll (t : TemplateCache) (templates : Table Text Text) : TemplateCache :=
  let t := templates.entries.foldl (fun t (key, template) => t.remember key (some template)) t
  { t with preloaded := true }

end TemplateCache

/-- A computation that uses resident templates and can fail; what it did to them before it failed
stays. -/
abbrev Compile (m : Type → Type) := ExceptT CompileError (StateT TemplateCache m)

namespace Compile

variable {m : Type → Type} [Monad m] {α : Type}

def ofCache (x : ExceptT CacheError m α) : Compile m α :=
  ExceptT.mk (StateT.lift (return (← x.run).mapError .cache))

def ofStore (x : ExceptT StorageError m α) : Compile m α :=
  ExceptT.mk (StateT.lift (return (← x.run).mapError .storage))

end Compile

structure TemplateSource (m : Type → Type) where
  store : ChunkStore m
  cache : Cache m
  /-- How long look-ups stay in the cache, in milliseconds. -/
  ttl : Nat := 86400000

namespace TemplateSource

def tag : Text := "chunks".toList

def dependency : Dependency := ⟨[tag]⟩

def preloadKey : Text := "chunks:preload".toList

def lookupKey (key : Text) : Text := "chunks:key:".toList ++ key

variable {m : Type → Type} [Monad m]

def throughCache {α : Type} (s : TemplateSource m) (codec : Json.Codec α) (cacheKey : Text)
    (ask : ExceptT StorageError m α) : Compile m α := do
  match ← Compile.ofCache (s.cache.getAs codec cacheKey) with
  | some a => return a
  | none =>
    let a ← Compile.ofStore ask
    Compile.ofCache (s.cache.setAs codec cacheKey a s.ttl dependency)
    return a

def preload (s : TemplateSource m) : Compile m Unit := do
  if (← getThe TemplateCache).preloaded then return
  let templates ← s.throughCache Json.Codec.texts preloadKey
    (Table.ofList <$> s.store.findPreloaded)
  modifyThe TemplateCache (·.rememberAll templates)

def fetch (s : TemplateSource m) (key : Text) : Compile m (Option Text) := do
  match (← getThe TemplateCache).resident.get? key with
  | some template => return template
  | none =>
    let template ← s.throughCache Json.Codec.optionalText (lookupKey key) (s.store.find key)
    modifyThe TemplateCache (·.remember key template)
    return template

end TemplateSource
end ContentWeave
