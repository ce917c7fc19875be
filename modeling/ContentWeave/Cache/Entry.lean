import ContentWeave.Cache.Basic

/-!
The file form of a cache entry: eight bytes of expiry, four bytes with the length of the tags, the
tags as JSON text, and the value.  Numbers have their lowest byte first.
-/

namespace ContentWeave

structure CacheEntry where
  /-- The second from which on the entry no longer counts, or zero if it always counts. -/
  expires : Nat
  tags : List (Text × Nat)
  value : Bytes
deriving DecidableEq

namespace CacheEntry

def maxNumber : Nat := 0xffffffffffffffff

def maxTagsLength : Nat := 0xffffffff

def versionedTag? : Json → Option (Text × Nat)
  | .array [tag, version] =>
    match Json.toText? tag, Json.toNat? maxNumber version with
    | some tag, some version => some (tag, version)
    | _, _ => none
  | _ => none

def tagsCodec : Json.Codec (List (Text × Nat)) where
  toJson tags := .array (tags.map fun (tag, version) => .array [.string tag, Json.ofNat version])
  ofJson? := Json.toList? versionedTag?

def tagBytes (tags : List (Text × Nat)) : Bytes := (tagsCodec.encode tags).toUtf8

def encode (e : CacheEntry) : Bytes :=
  Bytes.ofNat 8 e.expires ++ Bytes.ofNat 4 (tagBytes e.tags).length ++ tagBytes e.tags ++ e.value

def cut? (count : Nat) (bytes : Bytes) : Option (Bytes × Bytes) :=
  if count ≤ bytes.length then some (bytes.take count, bytes.drop count) else none

def decode? (bytes : Bytes) : Option CacheEntry := do
  let (expires, bytes) ← cut? 8 bytes
  let (length, bytes) ← cut? 4 bytes
  let (tags, value) ← cut? (Bytes.toNat length) bytes
  let tags ← tagsCodec.decode? (← Text.ofUtf8? tags)
  return ⟨Bytes.toNat expires, tags, value⟩

end CacheEntry
end ContentWeave
