import ContentWeave.Text.Slice
import ContentWeave.Proofs.Text.Brackets
import ContentWeave.Proofs.Text.Runs

/-!
# Cutting text at places

The places where a text can be cut are those where a rest of it begins. Whoever knows which rest
begins at a place can cut there, goes on behind what begins the rest, and never runs past the end.
ASCII characters are single bytes, and no other character has a byte that is one of them, so runs of
them can be told among bytes.
-/

namespace ContentWeave.Text

/-- At a place of a text a rest of it begins. -/
def At (s : Text) (place : ℕ) (rest : Text) : Prop :=
  ∃ front, s = front ++ rest ∧ byteLength front = place

theorem byteLength_nil : byteLength [] = 0 := rfl

theorem byteLength_pos {s : Text} (h : s ≠ []) : 0 < byteLength s := by
  obtain ⟨c, cs, rfl⟩ := List.exists_cons_of_ne_nil h
  have hc := Char.utf8Size_pos c
  rw [byteLength_cons]
  omega

theorem byteLength_eq_zero_iff {s : Text} : byteLength s = 0 ↔ s = [] := by
  constructor
  · intro h
    by_contra hne
    exact absurd h (byteLength_pos hne).ne'
  · rintro rfl
    rfl

namespace At

variable {s run rest : Text} {place : ℕ} {c : Char}

theorem zero (s : Text) : At s 0 s := ⟨[], rfl, rfl⟩

theorem skip (h : At s place (run ++ rest)) : At s (place + byteLength run) rest := by
  obtain ⟨front, rfl, rfl⟩ := h
  exact ⟨front ++ run, by simp, byteLength_append front run⟩

theorem tail (h : At s place (c :: rest)) : At s (place + c.utf8Size) rest := by
  have hcons : At s place ([c] ++ rest) := h
  simpa [byteLength_cons, byteLength_nil] using hcons.skip

theorem cut (h : At s place rest) (p : Char → Bool) :
    At s place (rest.takeWhile p ++ rest.dropWhile p) := by
  rwa [List.takeWhile_append_dropWhile]

theorem trans {k : ℕ} {behind : Text} (h : At s place rest) (hbehind : At rest k behind) :
    At s (place + k) behind := by
  obtain ⟨front, rfl, rfl⟩ := hbehind
  exact h.skip

theorem add_byteLength (h : At s place rest) : place + byteLength rest = byteLength s := by
  obtain ⟨front, rfl, rfl⟩ := h
  exact (byteLength_append front rest).symm

theorem le_byteLength (h : At s place rest) : place ≤ byteLength s := by
  have hend := h.add_byteLength
  omega

theorem drop_toUtf8 (h : At s place rest) : s.toUtf8.drop place = rest.toUtf8 := by
  obtain ⟨front, rfl, rfl⟩ := h
  rw [toUtf8_append, byteLength, List.drop_left]

theorem getElem?_toUtf8 (h : At s place rest) : s.toUtf8[place]? = rest.toUtf8.head? := by
  rw [← h.drop_toUtf8, List.head?_drop]

theorem isBoundary (h : At s place rest) : isBoundary s place = true := by
  have hend := h.add_byteLength
  rw [Text.isBoundary, h.getElem?_toUtf8]
  cases rest with
  | nil =>
    rw [byteLength_nil, Nat.add_zero] at hend
    simp [toUtf8, hend]
  | cons c rest =>
    have hlength : 0 < (String.utf8EncodeChar c).length := by
      rw [String.length_utf8EncodeChar]
      exact Char.utf8Size_pos c
    rw [toUtf8_cons, List.head?_append_of_ne_nil _ (List.ne_nil_of_length_pos hlength),
      List.head?_eq_getElem?, List.getElem?_eq_getElem hlength]
    simp

theorem slice (h : At s place (run ++ rest)) :
    slice s place (place + byteLength run) = .ok run := by
  have hbytes : (s.toUtf8.drop place).take (place + byteLength run - place) = run.toUtf8 := by
    rw [h.drop_toUtf8, toUtf8_append, Nat.add_sub_cancel_left, byteLength, List.take_left]
  rw [Text.slice, if_pos ⟨Nat.le_add_right _ _, h.isBoundary, h.skip.isBoundary⟩, hbytes,
    ofUtf8?_toUtf8]

theorem sliceFrom (h : At s place rest) : sliceFrom s place = .ok rest := by
  have hall : At s place (rest ++ []) := by simpa using h
  rw [Text.sliceFrom, ← h.add_byteLength, hall.slice]

theorem bytesFrom (h : At s place rest) : bytesFrom s place = .ok rest.toUtf8 := by
  rw [Text.bytesFrom, if_pos h.le_byteLength, h.drop_toUtf8]

theorem between {behind : Text} {stop : ℕ} (h : At s place behind) (hstop : At s stop rest)
    (hle : place ≤ stop) : ∃ run, behind = run ++ rest ∧ stop = place + byteLength run := by
  obtain ⟨front, rfl, rfl⟩ := h
  obtain ⟨front', hs, rfl⟩ := hstop
  rcases List.append_eq_append_iff.1 hs with ⟨run, rfl, rfl⟩ | ⟨run, rfl, rfl⟩
  · exact ⟨run, rfl, byteLength_append front run⟩
  · rw [byteLength_append] at hle
    obtain rfl : run = [] := byteLength_eq_zero_iff.1 (by omega)
    exact ⟨[], by simp, by simp [byteLength_nil]⟩

end At

theorem isBoundary_iff {s : Text} {place : ℕ} :
    isBoundary s place = true ↔ ∃ rest, At s place rest := by
  refine ⟨fun h => ?_, fun ⟨_, h⟩ => h.isBoundary⟩
  induction s generalizing place with
  | nil =>
    obtain rfl : place = 0 := by simpa [isBoundary, toUtf8, byteLength] using h
    exact ⟨[], .zero []⟩
  | cons c s ih =>
    have hsize : (String.utf8EncodeChar c).length = c.utf8Size := String.length_utf8EncodeChar c
    rcases Nat.lt_or_ge place c.utf8Size with hin | hbehind
    · -- only the first byte of a character begins one
      have hlt : place < (String.utf8EncodeChar c).length := hsize ▸ hin
      rw [isBoundary, toUtf8_cons, List.getElem?_append_left hlt,
        List.getElem?_eq_getElem hlt] at h
      obtain rfl : place = 0 := by simpa using h
      exact ⟨c :: s, .zero _⟩
    · obtain ⟨k, rfl⟩ := Nat.exists_eq_add_of_le hbehind
      have hrest : isBoundary s k = true := by
        rw [isBoundary, toUtf8_cons, List.getElem?_append_right (hsize ▸ hbehind), hsize,
          Nat.add_sub_cancel_left, byteLength_cons] at h
        rw [isBoundary]
        split at h <;> simp_all
      obtain ⟨rest, front, rfl, rfl⟩ := ih hrest
      exact ⟨rest, c :: front, rfl, byteLength_cons c front⟩

/-- A cut is made exactly if its start is not behind its stop and both are places where the text can be
cut. -/
theorem exists_slice_iff {s : Text} {start stop : ℕ} :
    (∃ t, slice s start stop = .ok t) ↔
      start ≤ stop ∧ isBoundary s start = true ∧ isBoundary s stop = true := by
  constructor
  · rintro ⟨t, h⟩
    unfold slice at h
    split_ifs at h with hcut
    exact hcut
  · rintro ⟨hle, hstart, hstop⟩
    obtain ⟨behind, hbehind⟩ := isBoundary_iff.1 hstart
    obtain ⟨rest, hrest⟩ := isBoundary_iff.1 hstop
    obtain ⟨run, rfl, rfl⟩ := hbehind.between hrest hle
    exact ⟨run, hbehind.slice⟩

/-! What is looked for is told by the characters in front of it. -/

section Finding

theorem find?_eq (p : Char → Bool) (s : Text) :
    find? p s =
      if s.dropWhile (!p ·) = [] then none else some (byteLength (s.takeWhile (!p ·))) := by
  induction s with
  | nil => rfl
  | cons c s ih =>
    by_cases hc : p c = true
    · simp [find?, hc, byteLength_nil]
    · have hdrop : (c :: s).dropWhile (!p ·) = s.dropWhile (!p ·) := by simp [hc]
      have htake : (c :: s).takeWhile (!p ·) = c :: s.takeWhile (!p ·) := by simp [hc]
      rw [find?, if_neg hc, ih, hdrop, htake, byteLength_cons]
      split_ifs <;> rfl

theorem getD_find? (p : Char → Bool) (s : Text) :
    (find? p s).getD (byteLength s) = byteLength (s.takeWhile (!p ·)) := by
  rw [find?_eq]
  split_ifs with h
  · have hcut := List.takeWhile_append_dropWhile (p := (!p ·)) (l := s)
    rw [h, List.append_nil] at hcut
    rw [hcut, Option.getD_none]
  · rfl

theorem find?_of_leads {p : Char → Bool} {run rest : Text} {c : Char}
    (h : Leads (!p ·) run (c :: rest)) : find? p (run ++ c :: rest) = some (byteLength run) := by
  rw [find?_eq, h.dropWhile_append, h.takeWhile_append, if_neg (List.cons_ne_nil c rest)]

theorem getD_find?_not (p : Char → Bool) (s : Text) :
    (find? (!p ·) s).getD (byteLength s) = byteLength (s.takeWhile p) := by
  simpa using getD_find? (!p ·) s

theorem slice_run (p : Char → Bool) (s : Text) :
    slice s 0 (byteLength (s.takeWhile p)) = .ok (s.takeWhile p) := by
  have hrun := ((At.zero s).cut p).slice
  rwa [Nat.zero_add] at hrun

theorem sliceFrom_run (p : Char → Bool) (s : Text) :
    sliceFrom s (byteLength (s.takeWhile p)) = .ok (s.dropWhile p) := by
  have hbehind := ((At.zero s).cut p).skip.sliceFrom
  rwa [Nat.zero_add] at hbehind

end Finding

/-! Some characters can be told by bytes. -/

section Ascii

theorem utf8EncodeChar_of_ascii {c : Char} (h : c.toNat < 128) :
    String.utf8EncodeChar c = [UInt8.ofNat c.toNat] := by
  have hval : c.val.toNat ≤ 0x7f := Nat.le_of_lt_succ h
  rw [String.utf8EncodeChar, if_pos hval]
  rfl

theorem le_ofNat_mod_add {m k : ℕ} (hm : 0 < m) (hk : 128 ≤ k) (hsum : m + k ≤ 256) (x : ℕ) :
    128 ≤ UInt8.ofNat (x % m + k) := by
  have hmod := Nat.mod_lt x hm
  have hbyte : x % m + k < UInt8.size := Nat.lt_of_lt_of_le (Nat.add_lt_add_right hmod k) hsum
  rw [UInt8.le_iff_toNat_le, UInt8.toNat_ofNat_of_lt' hbyte]
  exact Nat.le_add_left_of_le hk

theorem le_of_mem_utf8EncodeChar {c : Char} (h : 128 ≤ c.toNat) {b : UInt8}
    (hb : b ∈ String.utf8EncodeChar c) : 128 ≤ b := by
  have hval : ¬ c.val.toNat ≤ 0x7f := by
    have hcode : c.toNat = c.val.toNat := rfl
    omega
  unfold String.utf8EncodeChar at hb
  simp only [hval, if_false] at hb
  split_ifs at hb <;> simp only [List.mem_cons, List.not_mem_nil, or_false] at hb
  · rcases hb with rfl | rfl <;> exact le_ofNat_mod_add (by decide) (by decide) (by decide) _
  · rcases hb with rfl | rfl | rfl <;>
      exact le_ofNat_mod_add (by decide) (by decide) (by decide) _
  · rcases hb with rfl | rfl | rfl | rfl <;>
      exact le_ofNat_mod_add (by decide) (by decide) (by decide) _

/-- The bytes that `q` takes are the ASCII characters that `p` takes, and `p` takes no others. -/
structure TellsByBytes (q : UInt8 → Bool) (p : Char → Bool) : Prop where
  ascii : ∀ c : Char, c.toNat < 128 → q (UInt8.ofNat c.toNat) = p c
  bytes : ∀ b : UInt8, 128 ≤ b → q b = false
  chars : ∀ c : Char, p c = true → c.toNat < 128

theorem toNat_ofNat_ascii {c : Char} (h : c.toNat < 128) : (UInt8.ofNat c.toNat).toNat = c.toNat :=
  UInt8.toNat_ofNat_of_lt' (Nat.lt_of_lt_of_le h (by decide))

theorem TellsByBytes.between {low high : Char} (hlow : low.toNat < 128) (hhigh : high.toNat < 128) :
    TellsByBytes (fun b => UInt8.ofNat low.toNat ≤ b && b ≤ UInt8.ofNat high.toNat)
      (fun c => low ≤ c && c ≤ high) where
  ascii c hc := by
    simp only [UInt8.le_iff_toNat_le, toNat_ofNat_ascii hlow, toNat_ofNat_ascii hhigh,
      toNat_ofNat_ascii hc]
    rfl
  bytes b hb := by
    rw [UInt8.le_iff_toNat_le] at hb
    have hbyte : 128 ≤ b.toNat := hb
    simp only [UInt8.le_iff_toNat_le, toNat_ofNat_ascii hlow, toNat_ofNat_ascii hhigh]
    simp only [Bool.and_eq_false_iff, decide_eq_false_iff_not]
    omega
  chars c hc := by
    simp only [Bool.and_eq_true, decide_eq_true_eq] at hc
    have hle : c.toNat ≤ high.toNat := hc.2
    omega

theorem TellsByBytes.single {d : Char} (hd : d.toNat < 128) :
    TellsByBytes (· == UInt8.ofNat d.toNat) (· == d) where
  ascii c hc := by
    rw [Bool.eq_iff_iff, beq_iff_eq, beq_iff_eq, ← UInt8.toNat_inj, toNat_ofNat_ascii hc,
      toNat_ofNat_ascii hd, Char.toNat_inj]
  bytes b hb := by
    rw [beq_eq_false_iff_ne]
    rintro rfl
    have hbyte : 128 ≤ (UInt8.ofNat d.toNat).toNat := UInt8.le_iff_toNat_le.1 hb
    rw [toNat_ofNat_ascii hd] at hbyte
    omega
  chars c hc := by
    obtain rfl : c = d := by simpa using hc
    exact hd

variable {q q' : UInt8 → Bool} {p p' : Char → Bool}

theorem TellsByBytes.or (h : TellsByBytes q p) (h' : TellsByBytes q' p') :
    TellsByBytes (fun b => q b || q' b) (fun c => p c || p' c) where
  ascii c hc := by rw [h.ascii c hc, h'.ascii c hc]
  bytes b hb := by rw [h.bytes b hb, h'.bytes b hb, Bool.or_false]
  chars c hc := (Bool.or_eq_true_iff.1 hc).elim (h.chars c) (h'.chars c)

theorem TellsByBytes.cases (h : TellsByBytes q p) (c : Char) :
    (p c = true ∧ ∃ b, String.utf8EncodeChar c = [b] ∧ q b = true) ∨
      (p c = false ∧ ∀ b ∈ String.utf8EncodeChar c, q b = false) := by
  rcases Nat.lt_or_ge c.toNat 128 with hlt | hge
  · have hq := h.ascii c hlt
    rw [utf8EncodeChar_of_ascii hlt]
    cases hc : p c with
    | true => exact .inl ⟨rfl, _, rfl, hq.trans hc⟩
    | false => exact .inr ⟨rfl, by simpa using hq.trans hc⟩
  · exact .inr ⟨Bool.eq_false_iff.2 fun hc => absurd (h.chars c hc) (Nat.not_lt.2 hge),
      fun b hb => h.bytes b (le_of_mem_utf8EncodeChar hge hb)⟩

theorem TellsByBytes.takeWhile (h : TellsByBytes q p) (s : Text) :
    s.toUtf8.takeWhile q = toUtf8 (s.takeWhile p) := by
  induction s with
  | nil => rfl
  | cons c s ih =>
    rcases h.cases c with ⟨hc, b, hb, hq⟩ | ⟨hc, hall⟩
    · rw [toUtf8_cons, hb, List.singleton_append, List.takeWhile_cons_of_pos hq, ih,
        List.takeWhile_cons_of_pos hc, toUtf8_cons, hb]
      rfl
    · obtain ⟨b, bs, hb⟩ := List.exists_cons_of_ne_nil (String.utf8EncodeChar_ne_nil (c := c))
      have hq : ¬ q b = true := by simp [hall b (by simp [hb])]
      rw [toUtf8_cons, hb, List.cons_append, List.takeWhile_cons_of_neg hq,
        List.takeWhile_cons_of_neg (by simp [hc])]
      rfl

theorem TellsByBytes.any_head? (h : TellsByBytes q p) (s : Text) :
    s.toUtf8.head?.any q = s.head?.any p := by
  cases s with
  | nil => rfl
  | cons c s =>
    rcases h.cases c with ⟨hc, b, hb, hq⟩ | ⟨hc, hall⟩
    · rw [toUtf8_cons, hb]
      simp [hc, hq]
    · obtain ⟨b, bs, hb⟩ := List.exists_cons_of_ne_nil (String.utf8EncodeChar_ne_nil (c := c))
      rw [toUtf8_cons, hb]
      simp [hc, hall b (by simp [hb])]

theorem TellsByBytes.findIdx? (h : TellsByBytes q p) (s : Text) :
    s.toUtf8.findIdx? q = find? p s := by
  induction s with
  | nil => rfl
  | cons c s ih =>
    rw [toUtf8_cons, List.findIdx?_append, find?]
    rcases h.cases c with ⟨hc, b, hb, hq⟩ | ⟨hc, hall⟩
    · simp [hb, hq, hc]
    · rw [List.findIdx?_eq_none_iff.2 hall, ih, String.length_utf8EncodeChar]
      simp [hc, Nat.add_comm]

theorem ofNat_toNat_ne {c d : Char} (hc : c.toNat < 128) (hne : c ≠ d) {b : UInt8}
    (hb : b ∈ String.utf8EncodeChar d) : UInt8.ofNat c.toNat ≠ b := by
  rintro rfl
  rcases (TellsByBytes.single hc).cases d with ⟨hd, -⟩ | ⟨-, hall⟩
  · exact hne (beq_iff_eq.1 hd).symm
  · exact absurd (hall _ hb) (by simp)

theorem isPrefixOf_toUtf8 {word : Text} (h : ∀ c ∈ word, c.toNat < 128) (s : Text) :
    word.toUtf8.isPrefixOf s.toUtf8 = startsWith word s := by
  induction word generalizing s with
  | nil => rfl
  | cons c word ih =>
    obtain ⟨hc, hword⟩ := List.forall_mem_cons.1 h
    rw [toUtf8_cons, utf8EncodeChar_of_ascii hc, List.singleton_append]
    cases s with
    | nil => rfl
    | cons d s =>
      by_cases hd : c = d
      · subst hd
        rw [toUtf8_cons, utf8EncodeChar_of_ascii hc, List.singleton_append, List.isPrefixOf_cons_cons_self,
          ih hword, startsWith, startsWith, stripStart, if_pos rfl]
      · obtain ⟨b, bs, hb⟩ := List.exists_cons_of_ne_nil (String.utf8EncodeChar_ne_nil (c := d))
        have hne : UInt8.ofNat c.toNat ≠ b := ofNat_toNat_ne hc hd (by simp [hb])
        rw [toUtf8_cons, hb, List.cons_append, startsWith, stripStart, if_neg hd]
        simp [List.isPrefixOf, hne]

end Ascii

end ContentWeave.Text
