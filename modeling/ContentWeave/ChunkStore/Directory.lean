import ContentWeave.ChunkStore.Basic
import ContentWeave.Files.Host

/-!
A chunk store in a directory, one file for each chunk.  A key that could lead out of the directory
names no chunk.
-/

namespace ContentWeave

structure ChunkDirectory where
  directory : Path
  extension : Text := "html".toList
  preload : List Text := []
deriving DecidableEq

namespace ChunkDirectory

def accepts (key : Text) : Bool :=
  !key.isEmpty && !key.any (fun c => c == '/' || c == '\\' || c == '\x00')
    && !Text.contains ['.', '.'] key

def fileName (d : ChunkDirectory) (key : Text) : Text := key ++ '.' :: d.extension

def path? (d : ChunkDirectory) (key : Text) : Option Path :=
  if accepts key then some (Path.join d.directory (d.fileName key)) else none

variable {m : Type → Type} [Monad m]

def find (d : ChunkDirectory) (host : Host m) (key : Text) :
    ExceptT StorageError m (Option Text) :=
  match d.path? key with
  | none => return none
  | some path => ExceptT.mk do
    match ← (host.readText path).run with
    | .ok t => return .ok (some t)
    | .error .notFound => return .ok none
    | .error e =>
      return .error { StorageError.ofFault e.fault e.message (some key) with backend := "Fs".toList }

def findAll (d : ChunkDirectory) (host : Host m) :
    List Text → ExceptT StorageError m (List (Text × Text))
  | [] => return []
  | key :: keys => do
    match ← d.find host key with
    | some t => return (key, t) :: (← findAll d host keys)
    | none => findAll d host keys

def asStore (d : ChunkDirectory) (host : Host m) : ChunkStore m where
  find := d.find host
  findPreloaded := d.findAll host d.preload

end ChunkDirectory
end ContentWeave
