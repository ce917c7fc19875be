import ContentWeave.InPlace.Numeral
import ContentWeave.Proofs.Number.Decimals
import ContentWeave.Proofs.Number.Spelling
import ContentWeave.Proofs.Text.Slices

/-!
# Bare literals in place

A bare literal is looked through byte by byte. What ends the numeral that it begins with is found where
scanning finds it, so the literal can be cut there, and what is cut off is the longest numeral and reads
as one.
-/

namespace ContentWeave.Number

open Text (At TellsByBytes byteLength)

section Bytes

theorem tells_isDigit : TellsByBytes isDigitByte isDigit :=
  TellsByBytes.between (by decide : '0'.toNat < 128) (by decide : '9'.toNat < 128)

theorem tells_isSign : TellsByBytes isSignByte fun c => c == '+' || c == '-' :=
  (TellsByBytes.single (by decide : '+'.toNat < 128)).or
    (TellsByBytes.single (by decide : '-'.toNat < 128))

theorem tells_isPoint : TellsByBytes isPointByte (· == '.') :=
  TellsByBytes.single (by decide : '.'.toNat < 128)

theorem tells_isMark : TellsByBytes isMarkByte fun c => c == 'e' || c == 'E' :=
  (TellsByBytes.single (by decide : 'e'.toNat < 128)).or
    (TellsByBytes.single (by decide : 'E'.toNat < 128))

end Bytes

section Ends

variable {s rest : Text} {place : ℕ}

theorem digitsEnd_eq (h : At s place rest) :
    digitsEnd s.toUtf8 place = place + byteLength (rest.takeWhile isDigit) := by
  rw [digitsEnd, h.drop_toUtf8, tells_isDigit.takeWhile, byteLength]

theorem at_digitsEnd (h : At s place rest) :
    At s (digitsEnd s.toUtf8 place) (rest.dropWhile isDigit) := by
  rw [digitsEnd_eq h]
  exact (h.cut isDigit).skip

theorem at_signEnd (h : At s place rest) : At s (signEnd s.toUtf8 place) (scanSign rest).2 := by
  rw [signEnd, h.getElem?_toUtf8, tells_isSign.any_head?]
  cases rest with
  | nil => exact h
  | cons c rest =>
    by_cases hc : c = '+' ∨ c = '-'
    · rw [if_pos (by simpa using hc)]
      rcases hc with rfl | rfl <;> exact h.tail
    · have hnone := SpellsSign.none.scanSign_append (s := c :: rest)
        (by simpa [not_or, and_comm] using hc)
      rw [List.nil_append] at hnone
      rw [if_neg (by simpa using hc), hnone]
      exact h

theorem fractionEnd?_eq (h : At s place rest) :
    (∃ stop, fractionEnd? s.toUtf8 place = some stop ∧ At s stop (scanFraction rest).2 ∧
        stop = place + 1 + byteLength (scanFraction rest).1) ∨
      (fractionEnd? s.toUtf8 place = none ∧ scanFraction rest = ([], rest)) := by
  rw [fractionEnd?, h.getElem?_toUtf8, tells_isPoint.any_head?]
  cases rest with
  | nil => exact .inr ⟨rfl, rfl⟩
  | cons c rest =>
    by_cases hc : c = '.'
    · subst hc
      have htail : At s (place + 1) rest := h.tail
      exact .inl ⟨_, rfl, at_digitsEnd htail, digitsEnd_eq htail⟩
    · exact .inr ⟨if_neg (by simpa using hc), by simp [scanFraction, hc]⟩

theorem at_exponentEnd (h : At s place rest) :
    At s (exponentEnd s.toUtf8 place) (scanExponent rest).2 := by
  rw [exponentEnd, h.getElem?_toUtf8, tells_isMark.any_head?]
  cases rest with
  | nil => simpa [scanExponent] using h
  | cons c rest =>
    by_cases hc : c = 'e' ∨ c = 'E'
    · have htail : At s (place + 1) rest := by
        rcases hc with rfl | rfl <;> exact h.tail
      have hsign := at_signEnd htail
      have hstop := digitsEnd_eq hsign
      have hmark : (c :: rest).head?.any (fun c => c == 'e' || c == 'E') = true := by simpa using hc
      rw [if_pos hmark, scanExponent_cons rest hc]
      dsimp only
      by_cases hdigits : (scanSign rest).2.takeWhile isDigit = []
      · rw [hdigits, Text.byteLength_nil, Nat.add_zero] at hstop
        rw [if_pos hdigits, if_neg (by omega)]
        exact h
      · have hpos := Text.byteLength_pos hdigits
        rw [if_neg hdigits, if_pos (by omega)]
        exact at_digitsEnd hsign
    · rw [if_neg (by simpa using hc)]
      simpa [scanExponent, hc] using h

end Ends

theorem numeralEnd?_eq (s : Text) :
    (∃ n rest stop, Numeral.scan s = some (n, rest) ∧ numeralEnd? s.toUtf8 = some stop ∧
        At s stop rest) ∨
      (Numeral.scan s = none ∧ numeralEnd? s.toUtf8 = none) := by
  have hsign := at_signEnd (At.zero s)
  have hwhole := at_digitsEnd hsign
  have hwholeEnd := digitsEnd_eq hsign
  have hnil : ∀ t : Text, byteLength t = 0 ↔ t = [] := fun t => Text.byteLength_eq_zero_iff
  rw [Numeral.scan_eq, numeralEnd?]
  dsimp only
  generalize digitsEnd s.toUtf8 (signEnd s.toUtf8 0) = wholeEnd at hwhole hwholeEnd ⊢
  rcases fractionEnd?_eq hwhole with ⟨stop, hfound, hstop, hlength⟩ | ⟨hnone, hfraction⟩
  · have hdigits : wholeEnd - signEnd s.toUtf8 0 + (stop - (wholeEnd + 1)) = 0 ↔
        (scanSign s).2.takeWhile isDigit = [] ∧
          (scanFraction ((scanSign s).2.dropWhile isDigit)).1 = [] := by
      rw [← hnil, ← hnil]
      omega
    rw [hfound]
    dsimp only
    by_cases hempty : (scanSign s).2.takeWhile isDigit = [] ∧
        (scanFraction ((scanSign s).2.dropWhile isDigit)).1 = []
    · exact .inr ⟨if_pos hempty, if_pos (hdigits.2 hempty)⟩
    · have hpos := mt hdigits.1 hempty
      rw [if_neg hempty, if_neg hpos, if_pos (Nat.pos_of_ne_zero hpos)]
      exact .inl ⟨_, _, _, rfl, rfl, at_exponentEnd hstop⟩
  · have hdigits : wholeEnd - signEnd s.toUtf8 0 = 0 ↔ (scanSign s).2.takeWhile isDigit = [] := by
      rw [← hnil]
      omega
    rw [hnone, hfraction]
    dsimp only
    by_cases hempty : (scanSign s).2.takeWhile isDigit = []
    · exact .inr ⟨if_pos ⟨hempty, rfl⟩, if_pos (hdigits.2 hempty)⟩
    · rw [if_neg fun h => hempty h.1, if_neg (mt hdigits.1 hempty)]
      exact .inl ⟨_, _, _, rfl, rfl, at_exponentEnd hwhole⟩

/-- What is cut off a text is the longest numeral that it begins with. -/
theorem cutNumeral?_eq (s : Text) :
    (∃ p n rest, Numeral.scan s = some (n, rest) ∧ Numeral.LongestOf s p n ∧
        cutNumeral? s = .ok (some p)) ∨
      (Numeral.scan s = none ∧ cutNumeral? s = .ok none) := by
  rcases numeralEnd?_eq s with ⟨n, rest, stop, hscan, hend, hstop⟩ | ⟨hscan, hend⟩
  · obtain ⟨p, hs, hlongest⟩ := Numeral.longestOf_of_scan hscan
    have hfront : At s 0 (p ++ rest) := hs ▸ At.zero s
    obtain ⟨run, hrun, rfl⟩ := hfront.between hstop (Nat.zero_le stop)
    obtain rfl := List.append_cancel_right hrun
    refine .inl ⟨p, n, rest, hscan, hlongest, ?_⟩
    rw [cutNumeral?, hend]
    dsimp only
    rw [hfront.slice]
    rfl
  · exact .inr ⟨hscan, by rw [cutNumeral?, hend]; rfl⟩

end ContentWeave.Number

namespace ContentWeave.Value

open Number (Numeral cutNumeral? cutNumeral?_eq)

theorem ofBareInPlace_eq (raw : Text) : ofBareInPlace raw = .ok (ofBare raw) := by
  rw [ofBareInPlace, ofBare]
  rcases cutNumeral?_eq (Text.trimStart raw) with ⟨p, n, rest, hscan, hlongest, hcut⟩ | ⟨hscan, hcut⟩
  · rw [hscan, hcut]
    simp [bind, Except.bind, pure, Except.pure, Number.read?_of_spells hlongest.spells]
  · rw [hscan, hcut]
    rfl

/-- A bare literal is the longest numeral behind its blanks. That numeral is what is cut off in place,
and it always reads as a number, the one nearest to its value, so a literal counts as zero only if it
begins with no numeral. What reads as a number is a numeral as a whole, or a name. -/
theorem ofBare_longest :
    (∀ s, (∃ x, Number.read? s = some x) ↔ (∃ n, Numeral.Spells n s) ∨ Number.SpellsName s) ∧
      ∀ raw, ofBareInPlace raw = .ok (ofBare raw) ∧
        ∃ blanks s, raw = blanks ++ s ∧ Text.Leads Text.isBlank blanks s ∧
          ((∃ p n, Numeral.LongestOf s p n ∧ cutNumeral? s = .ok (some p) ∧
              Number.read? p = some n.toFloat ∧
              Number.RoundsTo n.negative n.magnitude n.toFloat ∧ ofBare raw = .number n.toFloat) ∨
            ((∀ p n, p <+: s → ¬ Numeral.Spells n p) ∧ cutNumeral? s = .ok none ∧
              ofBare raw = .number 0)) := by
  refine ⟨fun s => Number.exists_read?_iff, fun raw => ⟨ofBareInPlace_eq raw,
    raw.takeWhile Text.isBlank, Text.trimStart raw, (List.takeWhile_append_dropWhile).symm,
    Text.leads_cut _ raw, ?_⟩⟩
  rw [ofBare]
  rcases cutNumeral?_eq (Text.trimStart raw) with ⟨p, n, rest, hscan, hlongest, hcut⟩ | ⟨hscan, hcut⟩
  · refine .inl ⟨p, n, hlongest, hcut, Number.read?_of_spells hlongest.spells, n.toFloat_roundsTo, ?_⟩
    rw [hscan]
  · refine .inr ⟨Numeral.scan_eq_none_iff.1 hscan, hcut, ?_⟩
    rw [hscan]

example : Number.cutNumeral? "-12.e+px".toList = .ok (some "-12.".toList) := by decide +kernel

end ContentWeave.Value
