import ContentWeave.Proofs.Number.Numerals
import ContentWeave.Proofs.Text.Runs

/-!
# How numbers are spelled

A numeral is an optional sign, digits with an optional point and more digits, or a point with digits
behind it, and an optional exponent. Scanning a text cuts off a numeral that is spelled so, and one that
is spelled so is scanned as a whole, so scanning finds the longest one that the text begins with.
-/

namespace ContentWeave.Number

def Digits (s : Text) : Prop := ∀ c ∈ s, isDigit c = true

inductive SpellsSign : Bool → Text → Prop
  | none : SpellsSign false []
  | plus : SpellsSign false ['+']
  | minus : SpellsSign true ['-']

/-- The digits in front of a point and those behind it, as they are spelled. -/
inductive SpellsDecimal : (whole fraction : Text) → Text → Prop
  | whole {whole : Text} (hne : whole ≠ []) (hwhole : Digits whole) : SpellsDecimal whole [] whole
  | point {whole fraction : Text} (hne : whole ≠ []) (hwhole : Digits whole)
      (hfraction : Digits fraction) : SpellsDecimal whole fraction (whole ++ '.' :: fraction)
  | fraction {fraction : Text} (hne : fraction ≠ []) (hfraction : Digits fraction) :
      SpellsDecimal [] fraction ('.' :: fraction)

inductive SpellsExponent : ℤ → Text → Prop
  | none : SpellsExponent 0 []
  | some {mark : Char} {negative : Bool} {sign digits : Text} (hmark : mark = 'e' ∨ mark = 'E')
      (hsign : SpellsSign negative sign) (hne : digits ≠ []) (hdigits : Digits digits) :
      SpellsExponent
        (if negative then -(Text.foldDigits 0 digits : ℤ) else (Text.foldDigits 0 digits : ℤ))
        (mark :: (sign ++ digits))

/-- A text is a numeral as a whole. -/
inductive Numeral.Spells (n : Numeral) : Text → Prop
  | intro {sign decimal exponent : Text} (hsign : SpellsSign n.negative sign)
      (hdecimal : SpellsDecimal n.whole n.fraction decimal)
      (hexponent : SpellsExponent n.exponent exponent) : n.Spells (sign ++ decimal ++ exponent)

/-! What the scanners cut off is spelled as it should be. -/

section Cutting

theorem exists_sign (s : Text) :
    ∃ sign, s = sign ++ (scanSign s).2 ∧ SpellsSign (scanSign s).1 sign := by
  unfold scanSign
  split
  · exact ⟨['-'], rfl, .minus⟩
  · exact ⟨['+'], rfl, .plus⟩
  · exact ⟨[], rfl, .none⟩

theorem digits_takeWhile (s : Text) : Digits (s.takeWhile isDigit) :=
  (Text.leads_cut isDigit s).all

theorem exists_decimal {s : Text}
    (h : ¬ (s.takeWhile isDigit = [] ∧ (scanFraction (s.dropWhile isDigit)).1 = [])) :
    ∃ decimal, s = decimal ++ (scanFraction (s.dropWhile isDigit)).2 ∧
      SpellsDecimal (s.takeWhile isDigit) (scanFraction (s.dropWhile isDigit)).1 decimal := by
  have hcut := List.takeWhile_append_dropWhile (p := isDigit) (l := s)
  have hwhole := digits_takeWhile s
  generalize s.takeWhile isDigit = whole at h hcut hwhole ⊢
  generalize s.dropWhile isDigit = behind at h hcut ⊢
  subst hcut
  unfold scanFraction at h ⊢
  split
  · rename_i t
    have hpoint : whole ++ '.' :: t =
        whole ++ '.' :: t.takeWhile isDigit ++ t.dropWhile isDigit := by simp
    by_cases hne : whole = []
    · subst hne
      exact ⟨'.' :: t.takeWhile isDigit, hpoint, .fraction (by simpa using h) (digits_takeWhile t)⟩
    · exact ⟨_, hpoint, .point hne hwhole (digits_takeWhile t)⟩
  · have hne : whole ≠ [] := fun hnil => h ⟨hnil, by simp⟩
    exact ⟨whole, rfl, .whole hne hwhole⟩

theorem exists_exponent (s : Text) :
    ∃ exponent, s = exponent ++ (scanExponent s).2 ∧ SpellsExponent (scanExponent s).1 exponent := by
  cases s with
  | nil => exact ⟨[], rfl, .none⟩
  | cons c s =>
    by_cases hc : c = 'e' ∨ c = 'E'
    · rw [scanExponent_cons s hc]
      by_cases hdigits : (scanSign s).2.takeWhile isDigit = []
      · rw [if_pos hdigits]
        exact ⟨[], rfl, .none⟩
      · rw [if_neg hdigits]
        obtain ⟨sign, hsign, hspells⟩ := exists_sign s
        refine ⟨c :: (sign ++ (scanSign s).2.takeWhile isDigit), ?_,
          .some hc hspells hdigits (digits_takeWhile _)⟩
        dsimp only
        rw [List.cons_append, List.append_assoc, List.takeWhile_append_dropWhile, ← hsign]
    · exact ⟨[], by simp [scanExponent, hc], by simpa [scanExponent, hc] using .none⟩

end Cutting

/-! What is spelled as it should be is scanned as a whole. -/

section Reading

theorem SpellsSign.scanSign_append {negative : Bool} {sign s : Text} (h : SpellsSign negative sign)
    (hs : ∀ c ∈ s.head?, c ≠ '-' ∧ c ≠ '+') : scanSign (sign ++ s) = (negative, s) := by
  cases h with
  | none =>
    rw [List.nil_append]
    unfold scanSign
    split
    · exact absurd rfl (hs '-' rfl).1
    · exact absurd rfl (hs '+' rfl).2
    · rfl
  | plus => rfl
  | minus => rfl

theorem ne_sign_of_isDigit {c : Char} (h : isDigit c = true) : c ≠ '-' ∧ c ≠ '+' := by
  constructor <;> rintro rfl <;> exact absurd h (by decide)

theorem Digits.head_ne_sign {digits : Text} (h : Digits digits) (hne : digits ≠ []) (s : Text) :
    ∀ c ∈ (digits ++ s).head?, c ≠ '-' ∧ c ≠ '+' := by
  obtain ⟨d, ds, rfl⟩ := List.exists_cons_of_ne_nil hne
  rintro c ⟨⟩
  exact ne_sign_of_isDigit (h d (by simp))

theorem SpellsDecimal.head_ne_sign {whole fraction decimal : Text}
    (h : SpellsDecimal whole fraction decimal) (s : Text) :
    ∀ c ∈ (decimal ++ s).head?, c ≠ '-' ∧ c ≠ '+' := by
  cases h with
  | whole hne hwhole => exact hwhole.head_ne_sign hne s
  | point hne hwhole _ =>
    rw [List.append_assoc]
    exact hwhole.head_ne_sign hne _
  | fraction =>
    rintro c ⟨⟩
    decide

theorem SpellsDecimal.some_digit {whole fraction decimal : Text}
    (h : SpellsDecimal whole fraction decimal) : ¬ (whole = [] ∧ fraction = []) := by
  cases h with
  | whole hne _ => exact fun hnil => hne hnil.1
  | point hne _ _ => exact fun hnil => hne hnil.1
  | fraction hne _ => exact fun hnil => hne hnil.2

theorem SpellsExponent.head_eq {x : ℤ} {exponent : Text} (h : SpellsExponent x exponent) :
    ∀ c ∈ exponent.head?, c = 'e' ∨ c = 'E' := by
  cases h with
  | none => simp
  | some hmark =>
    rintro c ⟨⟩
    exact hmark

theorem Digits.leads {digits s : Text} (h : Digits digits)
    (hs : ∀ c ∈ s.head?, isDigit c = false) : Text.Leads isDigit digits s := ⟨h, hs⟩

theorem SpellsDecimal.scan_append {whole fraction decimal s : Text}
    (h : SpellsDecimal whole fraction decimal)
    (hs : ∀ c ∈ s.head?, isDigit c = false ∧ c ≠ '.') :
    (decimal ++ s).takeWhile isDigit = whole ∧
      scanFraction ((decimal ++ s).dropWhile isDigit) = (fraction, s) := by
  have hend : ∀ c ∈ s.head?, isDigit c = false := fun c hc => (hs c hc).1
  cases h with
  | whole hne hwhole =>
    have hrun := hwhole.leads hend
    refine ⟨hrun.takeWhile_append, ?_⟩
    rw [hrun.dropWhile_append]
    unfold scanFraction
    split
    · exact absurd rfl (hs '.' rfl).2
    · rfl
  | point hne hwhole hfraction =>
    have hpoint : Text.Leads isDigit whole ('.' :: (fraction ++ s)) := .cons hwhole (by decide)
    have hrun := hfraction.leads hend
    rw [List.append_assoc, List.cons_append]
    refine ⟨hpoint.takeWhile_append, ?_⟩
    rw [hpoint.dropWhile_append, scanFraction, hrun.takeWhile_append, hrun.dropWhile_append]
  | fraction hne hfraction =>
    have hpoint : Text.Leads isDigit [] ('.' :: (fraction ++ s)) := .cons (by simp) (by decide)
    have hrun := hfraction.leads hend
    refine ⟨hpoint.takeWhile_append, ?_⟩
    have hdrop := hpoint.dropWhile_append
    rw [List.nil_append] at hdrop
    rw [List.cons_append, hdrop, scanFraction, hrun.takeWhile_append, hrun.dropWhile_append]

theorem SpellsExponent.scan {x : ℤ} {exponent : Text} (h : SpellsExponent x exponent) :
    scanExponent exponent = (x, []) := by
  cases h with
  | none => rfl
  | @some mark negative sign digits hmark hsign hne hdigits =>
    have hfront := hdigits.head_ne_sign hne []
    rw [List.append_nil] at hfront
    have hrun : Text.Leads isDigit digits [] := hdigits.leads (by simp)
    have htake := hrun.takeWhile_append
    have hdrop := hrun.dropWhile_append
    rw [List.append_nil] at htake hdrop
    rw [scanExponent_cons _ hmark, hsign.scanSign_append hfront, htake, hdrop, if_neg hne]

end Reading

namespace Numeral

variable {n : Numeral} {s p : Text}

theorem exists_spells_of_scan {rest : Text} (h : scan s = some (n, rest)) :
    ∃ p, s = p ++ rest ∧ n.Spells p := by
  rw [scan_eq] at h
  split_ifs at h with hdigits
  cases h
  obtain ⟨sign, hs, hsign⟩ := exists_sign s
  obtain ⟨decimal, hbehind, hdecimal⟩ := exists_decimal hdigits
  obtain ⟨exponent, hrest, hexponent⟩ :=
    exists_exponent (scanFraction ((scanSign s).2.dropWhile isDigit)).2
  refine ⟨sign ++ decimal ++ exponent, ?_, hsign, hdecimal, hexponent⟩
  rw [List.append_assoc, ← hrest, List.append_assoc, ← hbehind, ← hs]

theorem Spells.scan (h : n.Spells p) : scan p = some (n, []) := by
  cases h with
  | @intro sign decimal exponent hsign hdecimal hexponent =>
    have hends : ∀ c ∈ exponent.head?, isDigit c = false ∧ c ≠ '.' := by
      intro c hc
      rcases hexponent.head_eq c hc with rfl | rfl <;> decide
    obtain ⟨hwhole, hfraction⟩ := hdecimal.scan_append hends
    rw [scan_eq, List.append_assoc, hsign.scanSign_append (hdecimal.head_ne_sign exponent)]
    dsimp only
    rw [hwhole, hfraction, if_neg hdecimal.some_digit, hexponent.scan]

theorem scan_eq_some_nil_iff : Numeral.scan p = some (n, []) ↔ n.Spells p := by
  constructor
  · intro h
    obtain ⟨q, hp, hq⟩ := exists_spells_of_scan h
    rw [List.append_nil] at hp
    exact hp ▸ hq
  · intro h
    exact h.scan

/-- The longest numeral that a text begins with. -/
structure LongestOf (s p : Text) (n : Numeral) : Prop where
  begins : p <+: s
  spells : n.Spells p
  longest : ∀ q m, q <+: s → Spells m q → q.length ≤ p.length

theorem exists_scan_append (h : Numeral.scan p = some (n, [])) (t : Text) :
    ∃ m rest, Numeral.scan (p ++ t) = some (m, rest) ∧ rest.length ≤ t.length := by
  induction t using List.reverseRecOn with
  | nil => exact ⟨n, [], by rwa [List.append_nil], Nat.le_refl 0⟩
  | append_singleton t a ih =>
    obtain ⟨m, rest, hscan, hlength⟩ := ih
    rw [← List.append_assoc]
    rcases scan_concat (p ++ t) a with ⟨m', hall⟩ | hmore
    · exact ⟨m', [], hall, Nat.zero_le _⟩
    · rw [hscan] at hmore
      exact ⟨m, rest ++ [a], hmore, by simpa using hlength⟩

/-- What scanning cuts off is the longest numeral that the text begins with. -/
theorem longestOf_of_scan {rest : Text} (h : Numeral.scan s = some (n, rest)) :
    ∃ p, s = p ++ rest ∧ LongestOf s p n := by
  obtain ⟨p, rfl, hp⟩ := exists_spells_of_scan h
  refine ⟨p, rfl, List.prefix_append p rest, hp, ?_⟩
  rintro q m ⟨t, ht⟩ hq
  obtain ⟨m', rest', hscan, hlength⟩ := exists_scan_append hq.scan t
  rw [ht, h] at hscan
  cases hscan
  have htotal := congrArg List.length ht
  rw [List.length_append, List.length_append] at htotal
  omega

theorem scan_eq_none_iff : Numeral.scan s = none ↔ ∀ p n, p <+: s → ¬ Spells n p := by
  constructor
  · rintro h p n ⟨t, rfl⟩ hp
    obtain ⟨m, rest, hscan, -⟩ := exists_scan_append hp.scan t
    rw [h] at hscan
    cases hscan
  · intro h
    refine Option.eq_none_iff_forall_ne_some.2 fun ⟨n, rest⟩ hscan => ?_
    obtain ⟨p, hs, hp⟩ := exists_spells_of_scan hscan
    exact h p n ⟨rest, hs.symm⟩ hp

end Numeral

def IsNumberWord (s : Text) : Prop :=
  (s = "inf".toList ∨ s = "infinity".toList) ∨ s = "nan".toList

/-- Infinity and what is no number have names, in letters of either case. -/
inductive SpellsName : Text → Prop
  | intro {negative : Bool} {sign name : Text} (hsign : SpellsSign negative sign)
      (hname : IsNumberWord (name.map Char.toLower)) : SpellsName (sign ++ name)

theorem IsNumberWord.head_ne_sign {name : Text} (h : IsNumberWord (name.map Char.toLower)) :
    ∀ c ∈ name.head?, c ≠ '-' ∧ c ≠ '+' := by
  have hletter : (name.map Char.toLower).head? = some 'i' ∨
      (name.map Char.toLower).head? = some 'n' := by
    rcases h with (h | h) | h <;> rw [h] <;> decide
  intro c hc
  rw [List.head?_map, Option.mem_def.1 hc, Option.map_some] at hletter
  constructor <;> rintro rfl <;> exact absurd hletter (by decide)

theorem named?_ne_none_iff {s : Text} :
    named? s ≠ none ↔ IsNumberWord ((scanSign s).2.map Char.toLower) := by
  unfold named? IsNumberWord
  dsimp only
  split
  · rename_i hinfinite
    exact ⟨fun _ => .inl hinfinite, fun _ => Option.some_ne_none _⟩
  · rename_i hfinite
    split
    · rename_i hnan
      exact ⟨fun _ => .inr hnan, fun _ => Option.some_ne_none _⟩
    · rename_i hnumber
      exact ⟨fun h => absurd rfl h, fun h => absurd h (not_or.2 ⟨hfinite, hnumber⟩)⟩

theorem spellsName_iff {s : Text} : SpellsName s ↔ named? s ≠ none := by
  rw [named?_ne_none_iff]
  constructor
  · rintro ⟨hsign, hname⟩
    rwa [hsign.scanSign_append hname.head_ne_sign]
  · intro hname
    obtain ⟨sign, hs, hsign⟩ := exists_sign s
    rw [hs]
    exact ⟨hsign, hname⟩

theorem read?_of_spells {n : Numeral} {p : Text} (h : n.Spells p) : read? p = some n.toFloat := by
  rw [read?, h.scan]

/-- A text reads as a number exactly if it is a numeral as a whole, or the name of a number. -/
theorem exists_read?_iff {s : Text} :
    (∃ x, read? s = some x) ↔ (∃ n, Numeral.Spells n s) ∨ SpellsName s := by
  rw [spellsName_iff, ← Option.isSome_iff_exists]
  unfold read?
  split
  · rename_i n hscan
    simpa using .inl ⟨n, Numeral.scan_eq_some_nil_iff.1 hscan⟩
  · rename_i hnone
    have hplain : ¬ ∃ n, Numeral.Spells n s := fun ⟨n, hn⟩ => hnone n hn.scan
    rw [Option.isSome_iff_ne_none]
    exact ⟨.inr, fun h => h.resolve_left hplain⟩

end ContentWeave.Number
