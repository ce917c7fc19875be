import ContentWeave.Proofs.Cache.OnDisk
import ContentWeave.Proofs.Json.Lists
import ContentWeave.Proofs.Text.Blanks

/-!
# The files of a cache are read back

An entry that was written is read back whole, with the versions of its tags, and the version of a
tag is read back from its file, as long as the numbers fit.
-/

namespace ContentWeave

namespace CacheEntry

variable {tags : List (Text × ℕ)}

def tagItem (entry : Text × ℕ) : Json := .array [.string entry.1, Json.ofNat entry.2]

theorem readsBack_tagItem (entry : Text × ℕ) : Json.ReadsBack 4 (tagItem entry) := by
  have hitems : ∀ item ∈ [Json.string entry.1, Json.ofNat entry.2], Json.ReadsBack 1 item := by
    intro item hitem
    rcases List.mem_cons.1 hitem with rfl | hitem
    · exact Json.ReadsBack.string entry.1
    · rw [List.mem_singleton.1 hitem]
      exact Json.ReadsBack.ofNat entry.2
  exact Json.ReadsBack.array hitems

theorem mapM_versionedTag? (h : ∀ entry ∈ tags, entry.2 ≤ maxNumber) :
    (tags.map tagItem).mapM versionedTag? = some tags := by
  induction tags with
  | nil => rfl
  | cons entry tags ih =>
    have hentry : versionedTag? (tagItem entry) = some entry := by
      simp [versionedTag?, tagItem, Json.toText?, Json.toNat?_ofNat (h entry (by simp))]
    have hrest := ih fun e he => h e (by simp [he])
    rw [List.map_cons, List.mapM_cons, hentry, hrest]
    rfl

theorem decode?_encode_tags (h : ∀ entry ∈ tags, entry.2 ≤ maxNumber) :
    tagsCodec.decode? (tagsCodec.encode tags) = some tags := by
  have hreads : Json.ReadsBack (4 + (tags.map tagItem).length + 1) (.array (tags.map tagItem)) := by
    refine Json.ReadsBack.array fun item hitem => ?_
    obtain ⟨entry, -, rfl⟩ := List.mem_map.1 hitem
    exact readsBack_tagItem entry
  have hitems : (tags.map tagItem).length ≤ (Json.writeItems (tags.map tagItem)).length := by
    refine Json.length_writeItems fun item hitem => ?_
    obtain ⟨entry, -, rfl⟩ := List.mem_map.1 hitem
    exact List.cons_ne_nil _ _
  have hwrite : (Json.write (.array (tags.map tagItem))).length =
      (Json.writeItems (tags.map tagItem)).length + 2 := by
    simp [Json.write]
  have hparse := Json.parse?_of_readsBack hreads (by omega)
  have hjson : tagsCodec.toJson tags = .array (tags.map tagItem) := rfl
  rw [Json.Codec.decode?, Json.Codec.encode, hjson, hparse, Option.bind_some]
  exact mapM_versionedTag? h

theorem decode?_encode {e : CacheEntry} (hexpires : e.expires ≤ maxNumber)
    (htags : ∀ entry ∈ e.tags, entry.2 ≤ maxNumber)
    (hlength : (tagBytes e.tags).length ≤ maxTagsLength) : decode? e.encode = some e := by
  have hseconds : Bytes.toNat (Bytes.ofNat 8 e.expires) = e.expires :=
    Bytes.toNat_ofNat 8 _ (Nat.lt_of_le_of_lt hexpires (by decide))
  have htext : Text.ofUtf8? (tagBytes e.tags) = some (tagsCodec.encode e.tags) :=
    Text.ofUtf8?_toUtf8 _
  rw [(layout_encode hlength).decode?_eq, htext, Option.bind_some, decode?_encode_tags htags,
    hseconds]
  rfl

end CacheEntry

namespace Text

theorem trim_ofNat (n : ℕ) : trim (ofNat n) = ofNat n :=
  trim_eq_self fun _ hc => isBlank_of_isDigit (isDigit_of_mem_ofNat hc)

end Text

theorem DirectoryCache.versionOf_ofNat {n : ℕ} (h : n ≤ CacheEntry.maxNumber) :
    versionOf (Text.ofNat n) = n := by
  obtain ⟨c, s, hcons, hdigit⟩ := Text.ofNat_eq_cons n
  have hsign : Text.stripStart ['+'] (Text.ofNat n) = none := by
    have hc : '+' ≠ c := by
      rintro rfl
      cases hdigit
    simp [hcons, Text.stripStart, hc]
  have hall : (Text.ofNat n).any (fun c => !Number.isDigit c) = false := by
    simpa using fun c hc => Text.isDigit_of_mem_ofNat hc
  have hne : (Text.ofNat n).isEmpty = false := by simp [Text.ofNat_ne_nil]
  have hmax : n ≤ Number.maxNatural := h
  simp [versionOf, Text.trim_ofNat, Number.natural?, hsign, hall, hne, Text.foldDigits_ofNat, hmax]

end ContentWeave
