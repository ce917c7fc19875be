import ContentWeave.Cache.Entry
import ContentWeave.Digest.Sha256
import ContentWeave.Files.Host
import ContentWeave.Text.Blank

/-!
A cache in a directory: one file for each entry, one file with the version of each tag, and a file
with the version of the program that made the cache.  Files that are damaged count as missing.
-/

namespace ContentWeave

structure DirectoryCache (m : Type → Type) where
  host : Host m
  root : Path
  /-- The file names of keys and tags; texts that differ need names that differ. -/
  nameOf : Text → Text := Digest.nameOf

namespace DirectoryCache

variable {m : Type → Type}

def entriesDirectory (c : DirectoryCache m) : Path := Path.join c.root "entries".toList

def tagsDirectory (c : DirectoryCache m) : Path := Path.join c.root "tags".toList

def versionFile (c : DirectoryCache m) : Path := Path.join c.root "VERSION".toList

def versionOf (content : Text) : Nat := (Number.natural? (Text.trim content)).getD 0

variable [Monad m]

def attempt {α : Type} (x : ExceptT FileError m α) : ExceptT CacheError m α :=
  ExceptT.mk (return (← x.run).mapError CacheError.io)

def ifFound {α : Type} (x : ExceptT FileError m α) : ExceptT CacheError m (Option α) :=
  ExceptT.mk do
    match ← x.run with
    | .ok a => return .ok (some a)
    | .error .notFound => return .ok none
    | .error e => return .error (.io e)

def version (c : DirectoryCache m) (tag : Text) : ExceptT CacheError m Nat := do
  match ← ifFound (c.host.readText (Path.join c.tagsDirectory (c.nameOf tag))) with
  | some content => return versionOf content
  | none => return 0

def store (c : DirectoryCache m) (directory : Path) (name : Text) (content : Bytes) :
    ExceptT CacheError m Unit := do
  attempt (c.host.makeDirectories directory)
  attempt (c.host.replace (Path.join directory name) content)

/-- Whether all tags have the versions they are listed with; the first that has not decides. -/
def areCurrent (c : DirectoryCache m) : List (Text × Nat) → ExceptT CacheError m Bool
  | [] => return true
  | (tag, version) :: tags => do
    if (← c.version tag) = version then areCurrent c tags else return false

def seconds (c : DirectoryCache m) : m Nat := return (← c.host.now) / 1000

def get (c : DirectoryCache m) (key : Text) : ExceptT CacheError m (Option Text) := do
  match ← ifFound (c.host.read (Path.join c.entriesDirectory (c.nameOf key))) with
  | none => return none
  | some bytes =>
    match CacheEntry.decode? bytes with
    | none => return none
    | some e =>
      if e.expires ≠ 0 ∧ e.expires ≤ (← c.seconds) then return none
      else if ← c.areCurrent e.tags then return Text.ofUtf8? e.value
      else return none

/-- The second at which an entry stored at second `now` stops to count; a time to live of less than
a second counts as a second. -/
def expiry (now ttl : Nat) : Nat :=
  if ttl = 0 then 0 else min (now + max 1 (ttl / 1000)) CacheEntry.maxNumber

def set (c : DirectoryCache m) (key value : Text) (ttl : Nat) (dependency : Dependency) :
    ExceptT CacheError m Unit := do
  let tags ← dependency.tags.mapM fun tag => return (tag, ← c.version tag)
  if CacheEntry.maxTagsLength < (CacheEntry.tagBytes tags).length then
    throw (.backend "dependency list too large".toList)
  let e : CacheEntry := ⟨expiry (← c.seconds) ttl, tags, value.toUtf8⟩
  c.store c.entriesDirectory (c.nameOf key) e.encode

def invalidate (c : DirectoryCache m) : List Text → ExceptT CacheError m Unit
  | [] => return
  | tag :: tags => do
    let next := ((← c.version tag) + 1) % (CacheEntry.maxNumber + 1)
    c.store c.tagsDirectory (c.nameOf tag) (Text.ofNat next).toUtf8
    invalidate c tags

/-- Makes the cache ready for a program: a cache that another version of the program made is
emptied.  What fails here shows later, when the cache is used. -/
def prepare (c : DirectoryCache m) (version : Text) : m Unit := do
  match ← (c.host.readText c.versionFile).run with
  | .ok stored => if stored = version then return
  | .error _ => pure ()
  if ← c.host.exists? c.root then
    let _ ← (c.host.removeTree c.root).run
  match ← (c.host.makeDirectories c.root).run with
  | .ok _ => let _ ← (c.host.write c.versionFile version.toUtf8).run
  | .error _ => return

def asCache (c : DirectoryCache m) : Cache m where
  get := c.get
  set := c.set
  invalidate := c.invalidate

end DirectoryCache
end ContentWeave
