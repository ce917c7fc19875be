import ContentWeave.Files.Error
import ContentWeave.Json.Codec

/-!
Caches keep texts under keys for a time.  An entry depends on tags; invalidating a tag makes every
entry that depends on it a miss.
-/

namespace ContentWeave

structure Dependency where
  tags : List Text := []
deriving DecidableEq

namespace Dependency

/-- Dependencies as JSON text: an object with its tags, or a list of its one field. -/
def codec : Json.Codec Dependency where
  toJson d := .object [(some "tags".toList, Json.ofTexts d.tags)]
  ofJson?
    | .object fields =>
      if fields.any (·.1.isNone) then none
      else match fields.filter (·.1 = some "tags".toList) with
        | [(_, value)] => (Json.toList? Json.toText? value).map (⟨·⟩)
        | _ => none
    | .array [value] => (Json.toList? Json.toText? value).map (⟨·⟩)
    | _ => none

end Dependency

inductive CacheError where
  | io (cause : FileError)
  | serialization (reason : Text)
  | backend (reason : Text)
deriving DecidableEq

def CacheError.message : CacheError → Text
  | io cause => "cache I/O error: ".toList ++ cause.message
  | serialization reason => "cache serialization error: ".toList ++ reason
  | backend reason => "cache backend error: ".toList ++ reason

structure Cache (m : Type → Type) where
  /-- The text under a key, unless its time is over or a tag of it has been invalidated. -/
  get : Text → ExceptT CacheError m (Option Text)
  /-- Keeps a text under a key for `ttl` milliseconds, or without end if that is zero. -/
  set : (key value : Text) → (ttl : Nat) → Dependency → ExceptT CacheError m Unit
  invalidate : List Text → ExceptT CacheError m Unit

namespace Cache

variable {m : Type → Type} [Monad m] {α : Type}

def never : Cache m where
  get _ := return none
  set _ _ _ _ := return
  invalidate _ := return

def getAs (cache : Cache m) (codec : Json.Codec α) (key : Text) :
    ExceptT CacheError m (Option α) := do
  match ← cache.get key with
  | some t => return codec.decode? t
  | none => return none

def setAs (cache : Cache m) (codec : Json.Codec α) (key : Text) (value : α) (ttl : Nat)
    (dependency : Dependency) : ExceptT CacheError m Unit :=
  cache.set key (codec.encode value) ttl dependency

end Cache
end ContentWeave
