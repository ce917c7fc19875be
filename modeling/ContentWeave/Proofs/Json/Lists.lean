import ContentWeave.Proofs.Json.RoundTrip
import ContentWeave.Proofs.Text.Digits
import ContentWeave.Proofs.Text.Runs

/-!
# Reading back numbers and lists

A document that is read back wherever a list can stop or go on, as a natural number is, is read back
as an item of a list. So lists of such documents are read back, and lists of those.
-/

namespace ContentWeave

namespace Json

def Stops (rest : Text) : Prop := ∀ c ∈ rest.head?, c = ',' ∨ c = ']'

theorem Stops.not_isDigit {rest : Text} (h : Stops rest) {c : Char} (hc : c ∈ rest.head?) :
    Number.isDigit c = false := by
  rcases h c hc with rfl | rfl <;> rfl

theorem readDigits?_append {s rest : Text} (hne : s ≠ [])
    (hs : ∀ c ∈ s, Number.isDigit c = true) (hrest : Stops rest) :
    readDigits? (s ++ rest) = some (s, rest) := by
  have hrun : Text.Leads Number.isDigit s rest := ⟨hs, fun _ hc => hrest.not_isDigit hc⟩
  rw [readDigits?, hrun.takeWhile_append, hrun.dropWhile_append]
  cases s with
  | nil => exact absurd rfl hne
  | cons c s => rfl

theorem readWhole?_ofNat (n : ℕ) {rest : Text} (hrest : Stops rest) :
    readWhole? (Text.ofNat n ++ rest) = some (Text.ofNat n, rest) := by
  have hdigits := readDigits?_append (Text.ofNat_ne_nil n)
    (fun c hc => Text.isDigit_of_mem_ofNat hc) hrest
  by_cases hn : n = 0
  · subst hn
    rfl
  · obtain ⟨c, s, hcons, -⟩ := Text.ofNat_eq_cons n
    have hc : c ≠ '0' := by
      rintro rfl
      exact Text.ofNat_ne_zero_cons hn s hcons
    rw [hcons] at hdigits ⊢
    rw [readWhole?]
    · exact hdigits
    · rintro t ht
      exact hc (List.cons.inj ht).1

theorem readFraction?_of_stops {rest : Text} (h : Stops rest) :
    readFraction? rest = some ([], rest) := by
  cases rest with
  | nil => rfl
  | cons c rest => rcases h c (by simp) with rfl | rfl <;> rfl

theorem readExponent?_of_stops {rest : Text} (h : Stops rest) :
    readExponent? rest = some ([], rest) := by
  cases rest with
  | nil => rfl
  | cons c rest => rcases h c (by simp) with rfl | rfl <;> rfl

theorem readNumber?_ofNat (n : ℕ) {rest : Text} (h : Stops rest) :
    readNumber? (Text.ofNat n ++ rest) = some (Text.ofNat n, rest) := by
  have hwhole := readWhole?_ofNat n h
  obtain ⟨c, s, hcons, hdigit⟩ := Text.ofNat_eq_cons n
  rw [hcons] at hwhole ⊢
  have hsign : c ≠ '-' := by
    rintro rfl
    cases hdigit
  rw [readNumber?, hwhole]
  · simp [readFraction?_of_stops h, readExponent?_of_stops h]
  · intro t ht
    exact hsign (List.cons.inj ht).1

/-- In `steps` steps and more, a document is read back in front of all that can follow an item of a
list, and it does not look like the end of one. -/
structure ReadsBack (steps : ℕ) (j : Json) : Prop where
  first : ∃ c s, write j = c :: s ∧ isSpace c = false ∧ c ≠ ']'
  read : ∀ fuel rest, Stops rest → readValue? (fuel + steps) (write j ++ rest) = some (j, rest)

namespace ReadsBack

theorem string (s : Text) : ReadsBack 1 (.string s) where
  first := ⟨'"', s.flatMap escapeChar ++ ['"'], rfl, rfl, by decide⟩
  read fuel rest _ := readValue?_writeString fuel s rest

theorem ofNat (n : ℕ) : ReadsBack 1 (Json.ofNat n) where
  first := by
    obtain ⟨c, s, hcons, hdigit⟩ := Text.ofNat_eq_cons n
    refine ⟨c, s, hcons, ?_, ?_⟩
    · cases hspace : isSpace c with
      | false => rfl
      | true =>
        simp only [isSpace, Bool.or_eq_true, beq_iff_eq] at hspace
        rcases hspace with ((rfl | rfl) | rfl) | rfl <;> cases hdigit
    · rintro rfl
      cases hdigit
  read fuel rest h := by
    have hnumber := readNumber?_ofNat n h
    obtain ⟨c, s, hcons, hdigit⟩ := Text.ofNat_eq_cons n
    have hother : ∀ d, Number.isDigit d = false → d ≠ c := by
      rintro d hd rfl
      rw [hdigit] at hd
      cases hd
    have hspace : isSpace c = false := by
      simp only [isSpace, Bool.or_eq_false_iff, beq_eq_false_iff_ne, ne_eq]
      exact ⟨⟨⟨(hother _ rfl).symm, (hother _ rfl).symm⟩, (hother _ rfl).symm⟩, (hother _ rfl).symm⟩
    have hwrite : write (Json.ofNat n) = Text.ofNat n := rfl
    rw [hwrite, hcons, List.cons_append, readValue?, skipSpace_cons hspace]
    rw [hcons, List.cons_append] at hnumber
    split
    · rename_i heq
      exact absurd (List.cons.inj heq).1.symm (hother _ rfl)
    · rename_i heq
      exact absurd (List.cons.inj heq).1.symm (hother _ rfl)
    · rename_i heq
      exact absurd (List.cons.inj heq).1.symm (hother _ rfl)
    · have hnull : Text.stripStart "null".toList (c :: (s ++ rest)) = none := by
        simp [Text.stripStart, hother 'n' rfl]
      have htrue : Text.stripStart "true".toList (c :: (s ++ rest)) = none := by
        simp [Text.stripStart, hother 't' rfl]
      have hfalse : Text.stripStart "false".toList (c :: (s ++ rest)) = none := by
        simp [Text.stripStart, hother 'f' rfl]
      rw [hnull, htrue, hfalse, hnumber, ← hcons]
      rfl

variable {steps : ℕ} {items : List Json}

theorem readItems? (hne : items ≠ []) (h : ∀ item ∈ items, ReadsBack steps item) (fuel : ℕ)
    (rest : Text) :
    Json.readItems? (fuel + steps + items.length) (writeItems items ++ ']' :: rest) =
      some (items, rest) := by
  induction items generalizing fuel with
  | nil => exact absurd rfl hne
  | cons item items ih =>
    have hitem := (h item (by simp)).read
    cases items with
    | nil =>
      have hend : skipSpace (']' :: rest) = ']' :: rest := skipSpace_cons rfl rest
      rw [List.length_singleton, Json.readItems?, writeItems,
        hitem fuel (']' :: rest) (by simp [Stops])]
      simp [hend]
    | cons next items =>
      have hcomma : ∀ s, skipSpace (',' :: s) = ',' :: s := skipSpace_cons rfl
      have hrest := ih (by simp) (fun i hi => h i (by simp [hi])) fuel
      have hfuel : fuel + steps + (item :: next :: items).length =
          fuel + (next :: items).length + steps + 1 := by
        simp only [List.length_cons]
        omega
      have hfuel' : fuel + steps + (next :: items).length =
          fuel + (next :: items).length + steps := by omega
      rw [hfuel'] at hrest
      rw [hfuel, Json.readItems?, writeItems, List.append_assoc, List.cons_append,
        hitem _ _ (by simp [Stops])]
      simp only [hcomma, hrest, Option.map_some]

theorem array (h : ∀ item ∈ items, ReadsBack steps item) :
    ReadsBack (steps + items.length + 1) (.array items) where
  first := ⟨'[', writeItems items ++ [']'], rfl, rfl, by decide⟩
  read fuel rest _ := by
    have hopen : ∀ s, skipSpace ('[' :: s) = '[' :: s := skipSpace_cons rfl
    have hwrite : write (.array items) ++ rest = '[' :: (writeItems items ++ ']' :: rest) := by
      simp [write]
    rw [hwrite, ← Nat.add_assoc, ← Nat.add_assoc, readValue?, hopen]
    cases items with
    | nil =>
      have hend : skipSpace (']' :: rest) = ']' :: rest := skipSpace_cons rfl rest
      simp [writeItems, hend]
    | cons item items =>
      have hread := readItems? (by simp) h fuel rest
      obtain ⟨c, s, hfirst, hspace, hc⟩ := (h item (by simp)).first
      have hbegin : ∃ s', writeItems (item :: items) ++ ']' :: rest = c :: s' := by
        cases items <;> simp [writeItems, hfirst]
      obtain ⟨s', hs'⟩ := hbegin
      rw [hs'] at hread ⊢
      simp only [skipSpace_cons hspace]
      split
      · rename_i heq
        exact absurd (List.cons.inj heq).1 hc
      · rw [hread]
        rfl

end ReadsBack

theorem length_writeItems {items : List Json} (h : ∀ item ∈ items, write item ≠ []) :
    items.length ≤ (writeItems items).length := by
  induction items with
  | nil => simp
  | cons item items ih =>
    have hitem := List.length_pos_iff.2 (h item (by simp))
    cases items with
    | nil =>
      rw [writeItems, List.length_singleton]
      exact hitem
    | cons next items =>
      have hrest := ih fun i hi => h i (by simp [hi])
      simp only [writeItems, List.length_append, List.length_cons] at hrest ⊢
      omega

theorem parse?_of_readsBack {steps : ℕ} {j : Json} (h : ReadsBack steps j)
    (hsteps : steps ≤ 2 * (write j).length + 2) : parse? (write j) = some j := by
  have hread := h.read (2 * (write j).length + 2 - steps) [] (by simp [Stops])
  rw [Nat.sub_add_cancel hsteps, List.append_nil] at hread
  simp [parse?, hread, skipSpace]

theorem toNat?_ofNat {limit n : ℕ} (h : n ≤ limit) : toNat? limit (ofNat n) = some n := by
  have hdigits : (Text.ofNat n).all Number.isDigit = true :=
    List.all_eq_true.2 fun c hc => Text.isDigit_of_mem_ofNat hc
  have hne : (Text.ofNat n).isEmpty = false := by simp [Text.ofNat_ne_nil]
  simp [toNat?, ofNat, hdigits, hne, Text.foldDigits_ofNat, h]

end Json
end ContentWeave
