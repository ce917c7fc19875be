import ContentWeave.Cache.Entry
import Mathlib.Tactic.Common

/-!
# How entry files are laid out

An entry file is cut from the front: the lengths of its first two parts are fixed, the second part
says the length of the third, and the value is the rest. So bytes are cut in one way at most, and what
an entry file says is read off its parts.
-/

namespace ContentWeave.CacheEntry

/-- The bytes of an entry file in four parts, the third as long as the second says. -/
structure Layout (bytes expires length tags value : Bytes) : Prop where
  bytes_eq : bytes = expires ++ length ++ tags ++ value
  length_expires : expires.length = 8
  length_length : length.length = 4
  toNat_length : Bytes.toNat length = tags.length

/-- The parts of an entry file that says `e`, with its tags as they are written there. -/
structure Frames (e : CacheEntry) (bytes expires length : Bytes) (tags : Text) : Prop
    extends Layout bytes expires length tags.toUtf8 e.value where
  toNat_expires : Bytes.toNat expires = e.expires
  decode_tags : tagsCodec.decode? tags = some e.tags

variable {e : CacheEntry} {bytes front rest expires length tags value : Bytes} {count : ℕ}

theorem cut?_append (h : front.length = count) (rest : Bytes) :
    cut? count (front ++ rest) = some (front, rest) := by
  subst h
  simp [cut?]

theorem cut?_eq_some_iff :
    cut? count bytes = some (front, rest) ↔ bytes = front ++ rest ∧ front.length = count := by
  constructor
  · intro h
    unfold cut? at h
    split_ifs at h with hlength
    cases h
    exact ⟨(List.take_append_drop count bytes).symm, List.length_take_of_le hlength⟩
  · rintro ⟨rfl, hlength⟩
    exact cut?_append hlength rest

theorem Layout.decode?_eq (h : Layout bytes expires length tags value) :
    decode? bytes = ((Text.ofUtf8? tags).bind tagsCodec.decode?).map
      fun tags => ⟨Bytes.toNat expires, tags, value⟩ := by
  have hfront := cut?_append h.length_expires (length ++ tags ++ value)
  have hmiddle := cut?_append h.length_length (tags ++ value)
  have hback := cut?_append h.toNat_length.symm value
  simp only [← List.append_assoc] at hfront hmiddle hback
  rw [decode?, h.bytes_eq, hfront]
  simp only [hmiddle, hback, Option.bind_eq_bind, Option.bind_some, Option.bind_assoc,
    Option.map_eq_bind]
  rfl

theorem decode?_eq_some_iff :
    decode? bytes = some e ↔ ∃ expires length tags, e.Frames bytes expires length tags := by
  constructor
  · intro h
    simp only [decode?, Option.bind_eq_bind, Option.bind_eq_some_iff, Option.pure_def,
      Option.some.injEq, Prod.exists, cut?_eq_some_iff] at h
    obtain ⟨expires, _, ⟨rfl, hexpires⟩, length, _, ⟨rfl, hlength⟩, tagBytes, value, ⟨rfl, htags⟩,
      text, htext, tags, hdecode, rfl⟩ := h
    obtain rfl := Text.ofUtf8?_eq_some_iff.1 htext
    exact ⟨expires, length, text, ⟨by simp, hexpires, hlength, htags.symm⟩, rfl, hdecode⟩
  · rintro ⟨expires, length, tags, h⟩
    rw [h.decode?_eq, Text.ofUtf8?_toUtf8, Option.bind_some, h.decode_tags, h.toNat_expires]
    rfl

theorem layout_encode (h : (tagBytes e.tags).length ≤ maxTagsLength) :
    Layout e.encode (Bytes.ofNat 8 e.expires) (Bytes.ofNat 4 (tagBytes e.tags).length)
      (tagBytes e.tags) e.value where
  bytes_eq := rfl
  length_expires := Bytes.length_ofNat 8 _
  length_length := Bytes.length_ofNat 4 _
  toNat_length := Bytes.toNat_ofNat 4 _ (Nat.lt_of_le_of_lt h (by decide))

theorem value_of_decode?_encode {e' : CacheEntry} (hl : (tagBytes e.tags).length ≤ maxTagsLength)
    (h : decode? e.encode = some e') : e'.value = e.value := by
  rw [(layout_encode hl).decode?_eq, Option.map_eq_some_iff] at h
  obtain ⟨tags, -, rfl⟩ := h
  rfl

end ContentWeave.CacheEntry
