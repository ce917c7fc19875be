import ContentWeave.Cache.Basic

/-!
A cache in memory.  Every tag has a version that invalidating the tag raises; an entry holds the
versions its tags had when it was stored, and counts only as long as they are current.  Entries that
no longer count are dropped when they are read and whenever something is stored.

Times and versions have no bound here.  On a machine whose clock has a last instant, storing text
that would live longer stops the program, and versions are counted in 64 bits, which nobody raises
often enough to see.
-/

namespace ContentWeave

structure MemoryEntry where
  value : Text
  expires : Option Nat
  tags : List (Text × Nat)

structure MemoryCache where
  entries : Table Text MemoryEntry := {}
  /-- Versions of tags; a tag that is missing has version zero. -/
  versions : Table Text Nat := {}

namespace MemoryCache

def version (c : MemoryCache) (tag : Text) : Nat := (c.versions.get? tag).getD 0

def isFresh (c : MemoryCache) (now : Nat) (e : MemoryEntry) : Bool :=
  (match e.expires with
    | some t => decide (now < t)
    | none => true)
  && e.tags.all fun (tag, version) => c.version tag == version

def get (c : MemoryCache) (now : Nat) (key : Text) : Option Text × MemoryCache :=
  match c.entries.get? key with
  | none => (none, c)
  | some e =>
    if c.isFresh now e then (some e.value, c)
    else (none, { c with entries := c.entries.erase key })

def set (c : MemoryCache) (now : Nat) (key value : Text) (ttl : Nat) (dependency : Dependency) :
    MemoryCache :=
  let fresh := c.entries.filter fun _ e => c.isFresh now e
  let expires := if ttl = 0 then none else some (now + ttl)
  let tags := dependency.tags.map fun tag => (tag, c.version tag)
  { c with entries := fresh.insert key ⟨value, expires, tags⟩ }

def invalidate (c : MemoryCache) (tags : List Text) : MemoryCache :=
  tags.foldl (fun c tag => { c with versions := c.versions.insert tag (c.version tag + 1) }) c

def size (c : MemoryCache) : Nat := c.entries.size

def asCache {m : Type → Type} [Monad m] [MonadStateOf MemoryCache m] (now : m Nat) : Cache m where
  get key := do
    let now ← now
    modifyGetThe MemoryCache (·.get now key)
  set key value ttl dependency := do
    let now ← now
    modifyThe MemoryCache (·.set now key value ttl dependency)
  invalidate tags := modifyThe MemoryCache (·.invalidate tags)

end MemoryCache
end ContentWeave
