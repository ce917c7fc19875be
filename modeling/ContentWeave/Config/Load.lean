import ContentWeave.Config.Draft

/-!
Finding and loading the configuration of a project.  Without a path the nearest directory at or
above the current one that has a configuration file counts, and without any such file the defaults
do.
-/

namespace ContentWeave.Config

variable {m : Type → Type} [Monad m]

def loadFile (host : Host m) (path : Path) : ExceptT ConfigError m Config := do
  let written ← (host.readText path).adapt .io
  match Draft.parse? written with
  | none => throw .malformed
  | some draft =>
    let draft ← draft.expand host.valueOf
    let config := draft.resolve ((Path.parent? path).getD ['.'])
    let config := { config with file := some path }
    ExceptT.mk (pure config.validate)
    return config

def findFile (host : Host m) : List Path → m (Option Path)
  | [] => return none
  | directory :: directories => do
    let path := Path.join directory fileName
    if ← host.exists? path then return some path
    else findFile host directories

def loadPlain (host : Host m) : Option Path → ExceptT ConfigError m Config
  | some path => do
    if ← host.exists? path then loadFile host path
    else throw (.notFound path)
  | none => do
    let here ← host.currentDirectory
    match ← (findFile host (Path.ancestors here) : m _) with
    | some path => loadFile host path
    | none => return ofDirectory here

def load (host : Host m) (path : Option Path) (overrides : Overrides := {}) :
    ExceptT ConfigError m Config :=
  (·.override overrides) <$> loadPlain host path

end ContentWeave.Config
