import ContentWeave.Text.Basic

/-!
Text as bytes.  Files hold bytes; text is written to them in UTF-8, and bytes that are not UTF-8
are no text.
-/

namespace ContentWeave

abbrev Bytes := List UInt8

namespace Text

def toUtf8 (s : Text) : Bytes := s.flatMap String.utf8EncodeChar

def ofUtf8? (bytes : Bytes) : Option Text := bytes.toByteArray.utf8Decode?.map Array.toList

def byteLength (s : Text) : Nat := s.toUtf8.length

theorem toUtf8_cons (c : Char) (s : Text) : toUtf8 (c :: s) = String.utf8EncodeChar c ++ toUtf8 s :=
  rfl

theorem toUtf8_append (s t : Text) : toUtf8 (s ++ t) = toUtf8 s ++ toUtf8 t := List.flatMap_append

theorem byteLength_cons (c : Char) (s : Text) :
    byteLength (c :: s) = c.utf8Size + byteLength s := by
  rw [byteLength, toUtf8_cons, List.length_append, String.length_utf8EncodeChar, byteLength]

theorem byteLength_append (s t : Text) : byteLength (s ++ t) = byteLength s + byteLength t := by
  rw [byteLength, toUtf8_append, List.length_append, byteLength, byteLength]

theorem ofUtf8?_toUtf8 (s : Text) : ofUtf8? s.toUtf8 = some s := by
  have h := List.utf8Decode?_utf8Encode (l := s)
  rw [List.utf8Encode] at h
  simp [ofUtf8?, toUtf8, h]

theorem toUtf8_of_ofUtf8? {bytes : Bytes} {s : Text} (h : ofUtf8? bytes = some s) :
    s.toUtf8 = bytes := by
  obtain ⟨a, ha, rfl⟩ := Option.map_eq_some_iff.1 h
  have hs : bytes.toByteArray.utf8Decode?.isSome := by simp [ha]
  have he := ByteArray.utf8Encode_get_utf8Decode? (h := hs)
  simp only [ha, Option.get_some, List.utf8Encode] at he
  have := congrArg (fun b : ByteArray => b.data.toList) he
  simpa [toUtf8] using this

theorem ofUtf8?_eq_some_iff {bytes : Bytes} {s : Text} :
    ofUtf8? bytes = some s ↔ bytes = s.toUtf8 :=
  ⟨fun h => (toUtf8_of_ofUtf8? h).symm, fun h => h ▸ ofUtf8?_toUtf8 s⟩

end Text

namespace Bytes

/-- The lowest `count` bytes of a number, the lowest first. -/
def ofNat : (count n : Nat) → Bytes
  | 0, _ => []
  | count + 1, n => UInt8.ofNat (n % 256) :: ofNat count (n / 256)

def toNat : Bytes → Nat
  | [] => 0
  | b :: bytes => b.toNat + 256 * toNat bytes

@[simp] theorem length_ofNat (count n : Nat) : (ofNat count n).length = count := by
  induction count generalizing n with
  | zero => rfl
  | succ count ih => simp [ofNat, ih]

theorem toNat_ofNat (count n : Nat) (h : n < Nat.pow 256 count) : toNat (ofNat count n) = n := by
  induction count generalizing n with
  | zero =>
    have hn : n = 0 := Nat.lt_one_iff.1 h
    simp [ofNat, toNat, hn]
  | succ count ih =>
    have hd : n / 256 < Nat.pow 256 count := by
      rw [Nat.div_lt_iff_lt_mul (by decide)]
      exact h
    rw [ofNat, toNat, ih _ hd]
    have : (UInt8.ofNat (n % 256)).toNat = n % 256 := by
      simp [UInt8.toNat_ofNat']
    omega

def hexDigit (n : Nat) : Char :=
  if n < 10 then Char.ofNat ('0'.toNat + n) else Char.ofNat ('a'.toNat + n - 10)

def hex (bytes : Bytes) : Text :=
  bytes.flatMap fun b => [hexDigit (b.toNat / 16), hexDigit (b.toNat % 16)]

end Bytes
end ContentWeave
