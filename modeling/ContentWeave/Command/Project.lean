import ContentWeave.Cache.Directory
import ContentWeave.Compiler
import ContentWeave.Config.Load

/-!
A project: its configuration, with the store and the cache that it describes.
-/

namespace ContentWeave

inductive RunError where
  | config (cause : ConfigError)
  | io (cause : FileError)
  | compile (cause : CompileError)
  | cache (cause : CacheError)
  | chunkNotFound (key : Text)
deriving DecidableEq

def RunError.message : RunError → Text
  | config cause => cause.message
  | io cause => cause.message
  | compile cause => cause.message
  | cache cause => cause.message
  | chunkNotFound key => "chunk not found: ".toList ++ key

structure Project (m : Type → Type) where
  config : Config
  store : ChunkStore m
  cache : Cache m

namespace Project

variable {m : Type → Type} [Monad m]

def version : Text := "0.1.0".toList

def ignoreAll : Text := "# Automatically created by cb\n*\n".toList

def prepareData (host : Host m) (directory : Path) : ExceptT RunError m Unit := do
  (host.makeDirectories directory).adapt .io
  let path := Path.join directory ".gitignore".toList
  unless ← host.exists? path do
    let _ ← ((host.write path ignoreAll.toUtf8).run : m _)

def openCache (host : Host m) (config : Config) : ExceptT RunError m (Cache m) := do
  if config.cache.enabled then
    prepareData host config.dataDirectory
    let cache : DirectoryCache m := { host, root := config.cacheDirectory }
    cache.prepare version
    return cache.asCache
  else return Cache.never

def load (host : Host m) (path : Option Path) (overrides : Overrides) :
    ExceptT RunError m (Project m) := do
  let config ← (Config.load host path overrides).adapt .config
  return { config, store := config.chunks.asStore host, cache := ← openCache host config }

def compiler (p : Project m) : Compiler m where
  templates := { store := p.store, cache := p.cache, ttl := 1000 * p.config.cache.chunkTtl }
  cache := p.cache
  formats := Format.Registry.builtins p.config.format
  forms := .html
  renderTtl := 1000 * p.config.cache.renderTtl

/-- Work of the compiler of a project, which begins without resident templates. -/
def compile {α : Type} (x : Compile m α) : ExceptT RunError m α :=
  ExceptT.adapt .compile (ExceptT.mk (StateT.run' x.run {}))

end Project
end ContentWeave
