import ContentWeave.Form
import ContentWeave.Proofs.Text.Blanks
import ContentWeave.Proofs.Text.Digits
import ContentWeave.Proofs.Text.Runs
import Mathlib.Data.List.Forall2

/-!
# What the key of a form spells

A key spells a form number in decimal digits, behind `#` an element id if it asks for one, and
behind `;` the word for a form that opens by itself, in letters that count as those of the word
whatever their case. Each part ends where no character of it can follow, so there is one way to
read a key and the reader finds it.
-/

namespace ContentWeave.FormSpec

open Text (Leads)

/-- The characters whose simple case folding is a small letter of the Latin alphabet: the letter,
its capital, and for two letters another form of it. -/
inductive FoldsTo : (letter c : Char) → Prop
  | small (letter : Char) : FoldsTo letter letter
  | capital (letter : Char) : FoldsTo letter letter.toUpper
  | longS : FoldsTo 's' 'ſ'
  | kelvin : FoldsTo 'k' '\u212a'

def part (mark : Char) : Option Text → Text
  | some s => mark :: s
  | none => []

structure Spells (key digits : Text) (elementId modal : Option Text) : Prop where
  key_eq : key = digits ++ (part '#' elementId ++ part ';' modal)
  digits_ne_nil : digits ≠ []
  digits : ∀ c ∈ digits, '0' ≤ c ∧ c ≤ '9'
  elementId_ne_nil : elementId ≠ some []
  elementId : ∀ id ∈ elementId, ∀ c ∈ id, Text.isIdentifierChar c = true ∨ c = '-'
  modal : ∀ word ∈ modal, List.Forall₂ FoldsTo "ismodal".toList word

section Folding

variable {letter c : Char}

theorem foldCase_letter : ∀ k < 26,
    foldCase (Char.ofNat ('a'.toNat + k)) = Char.ofNat ('a'.toNat + k) ∧
      foldCase (Char.ofNat ('a'.toNat + k)).toUpper = Char.ofNat ('a'.toNat + k) := by decide

theorem toUpper_toLower_capital : ∀ k < 26,
    (Char.ofNat ('A'.toNat + k)).toLower.toUpper = Char.ofNat ('A'.toNat + k) := by decide

theorem foldsTo_toLower (c : Char) : FoldsTo c.toLower c := by
  by_cases h : 'A' ≤ c ∧ c ≤ 'Z'
  · obtain ⟨k, hk, rfl⟩ := Text.exists_offset h.1 h.2
    have hcapital := FoldsTo.capital (Char.ofNat ('A'.toNat + k)).toLower
    rwa [toUpper_toLower_capital k hk] at hcapital
  · have hsame : c.toLower = c := dif_neg h
    rw [hsame]
    exact .small c

theorem foldCase_eq_iff (hfirst : 'a' ≤ letter) (hlast : letter ≤ 'z') (hk : letter ≠ 'k') :
    foldCase c = letter ↔ FoldsTo letter c := by
  constructor
  · rintro rfl
    unfold foldCase
    split_ifs with hc
    · rw [hc]
      exact .longS
    · exact foldsTo_toLower c
  · obtain ⟨k, hlt, rfl⟩ := Text.exists_offset hfirst hlast
    intro h
    generalize hletter : Char.ofNat ('a'.toNat + k) = letter at h hk
    cases h with
    | small => exact hletter ▸ (foldCase_letter k hlt).1
    | capital => exact hletter ▸ (foldCase_letter k hlt).2
    | longS => rfl
    | kelvin => exact absurd rfl hk

theorem map_foldCase_eq_iff {word s : Text}
    (hword : ∀ letter ∈ word, 'a' ≤ letter ∧ letter ≤ 'z' ∧ letter ≠ 'k') :
    s.map foldCase = word ↔ List.Forall₂ FoldsTo word s := by
  induction word generalizing s with
  | nil => simp
  | cons letter word ih =>
    obtain ⟨hfirst, hlast, hk⟩ := hword letter (by simp)
    cases s with
    | nil => simp
    | cons c s =>
      rw [List.map_cons, List.cons.injEq, List.forall₂_cons, foldCase_eq_iff hfirst hlast hk,
        ih fun l hl => hword l (by simp [hl])]

end Folding

section Parts

variable {s rest id : Text} {elementId modal : Option Text} {isModal : Bool}

theorem isDigit_iff {c : Char} : Number.isDigit c = true ↔ '0' ≤ c ∧ c ≤ '9' := by
  simp [Number.isDigit]

theorem isElementIdChar_iff {c : Char} :
    isElementIdChar c = true ↔ Text.isIdentifierChar c = true ∨ c = '-' := by
  simp [isElementIdChar]

theorem modalWord_small : ∀ letter ∈ modalWord, 'a' ≤ letter ∧ letter ≤ 'z' ∧ letter ≠ 'k' := by
  have hall : modalWord.all (fun c => 'a' ≤ c ∧ c ≤ 'z' ∧ c ≠ 'k') = true := by decide
  simpa using hall

theorem modal?_eq_some_iff :
    modal? s = some isModal ↔ ∃ modal : Option Text, s = part ';' modal ∧
      (∀ word ∈ modal, List.Forall₂ FoldsTo modalWord word) ∧ isModal = modal.isSome := by
  constructor
  · intro h
    unfold modal? at h
    split at h
    · cases h
      exact ⟨none, rfl, by simp, rfl⟩
    · rename_i word
      split_ifs at h with hword
      cases h
      refine ⟨some word, rfl, ?_, rfl⟩
      simpa using (map_foldCase_eq_iff modalWord_small).1 hword
    · cases h
  · rintro ⟨modal, rfl, hmodal, rfl⟩
    cases modal with
    | none => rfl
    | some word =>
      have hword := (map_foldCase_eq_iff modalWord_small).2 (hmodal word rfl)
      simp [part, modal?, hword]

theorem elementIdAt?_some (hne : id ≠ []) (hrun : Leads isElementIdChar id rest) :
    elementIdAt? ('#' :: (id ++ rest)) = some (some id, rest) := by
  rw [elementIdAt?, hrun.takeWhile_append, hrun.dropWhile_append]
  cases id with
  | nil => exact absurd rfl hne
  | cons c cs => rfl

theorem elementIdAt?_none (h : rest.head? ≠ some '#') : elementIdAt? rest = some (none, rest) := by
  unfold elementIdAt?
  split
  · simp at h
  · rfl

theorem of_elementIdAt? (h : elementIdAt? s = some (elementId, rest)) :
    s = part '#' elementId ++ rest ∧ elementId ≠ some [] ∧
      ∀ id ∈ elementId, ∀ c ∈ id, isElementIdChar c = true := by
  unfold elementIdAt? at h
  split at h
  · rename_i t
    have hrun := Text.leads_cut isElementIdChar t
    split at h
    · cases h
    · rename_i hne
      cases h
      refine ⟨?_, by simpa using hne, by simpa using hrun.all⟩
      simp [part, List.takeWhile_append_dropWhile]
  · cases h
    exact ⟨rfl, by simp, by simp⟩

theorem elementIdAt?_part (hne : elementId ≠ some [])
    (hid : ∀ id ∈ elementId, ∀ c ∈ id, isElementIdChar c = true) (modal : Option Text) :
    elementIdAt? (part '#' elementId ++ part ';' modal) = some (elementId, part ';' modal) := by
  cases elementId with
  | none =>
    refine elementIdAt?_none ?_
    cases modal <;> simp [part]
  | some id =>
    refine elementIdAt?_some (by simpa using hne) ⟨hid id rfl, ?_⟩
    cases modal with
    | none => simp [part]
    | some word =>
      simp only [part, List.head?_cons, Option.mem_def, Option.some.injEq, forall_eq']
      decide +kernel

end Parts

def numberOf (digits : Text) : ℕ := min (Nat.ofDigitChars 10 digits 0) (Nat.pow 2 63 - 1)

theorem min_foldDigits {digits : Text} (h : ∀ c ∈ digits, Number.isDigit c = true) :
    min (Text.foldDigits 0 digits) maxFormId = numberOf digits := by
  rw [numberOf, Text.foldDigits_eq_ofDigitChars h]
  rfl

theorem parse_of_spells {key digits : Text} {elementId modal : Option Text}
    (h : Spells key digits elementId modal) :
    parse key = some ⟨numberOf digits, elementId, modal.isSome⟩ := by
  have hdigits : ∀ c ∈ digits, Number.isDigit c = true := fun c hc =>
    isDigit_iff.2 (h.digits c hc)
  have hrun : Leads Number.isDigit digits (part '#' elementId ++ part ';' modal) := by
    refine ⟨hdigits, ?_⟩
    cases elementId <;> cases modal <;> simp [part, Number.isDigit]
  have hid := elementIdAt?_part h.elementId_ne_nil
    (fun id hid c hc => isElementIdChar_iff.2 (h.elementId id hid c hc)) modal
  have hmodal : modal? (part ';' modal) = some modal.isSome :=
    modal?_eq_some_iff.2 ⟨modal, rfl, h.modal, rfl⟩
  rw [h.key_eq, parse, hrun.takeWhile_append, hrun.dropWhile_append]
  split
  · exact absurd rfl h.digits_ne_nil
  · simp [hid, hmodal, min_foldDigits hdigits]

theorem exists_spells_of_parse {key : Text} {spec : FormSpec} (h : parse key = some spec) :
    ∃ digits modal, Spells key digits spec.elementId modal ∧ spec.formId = numberOf digits ∧
      spec.isModal = modal.isSome := by
  have hdigits := Text.leads_cut Number.isDigit key
  unfold parse at h
  split at h
  · cases h
  · rename_i hne
    simp only [Option.bind_eq_bind, Option.bind_eq_some_iff, Option.pure_def,
      Option.some.injEq] at h
    obtain ⟨⟨elementId, rest⟩, hidRead, isModal, hmodalRead, rfl⟩ := h
    obtain ⟨hrest, hid_ne, hid⟩ := of_elementIdAt? hidRead
    obtain ⟨modal, rfl, hmodal, rfl⟩ := modal?_eq_some_iff.1 hmodalRead
    refine ⟨key.takeWhile Number.isDigit, modal, ⟨?_, by simpa using hne, ?_, hid_ne, ?_, hmodal⟩,
      by rw [min_foldDigits hdigits.all], rfl⟩
    · rw [← hrest, List.takeWhile_append_dropWhile]
    · exact fun c hc => isDigit_iff.1 (hdigits.all c hc)
    · exact fun id h c hc => isElementIdChar_iff.1 (hid id h c hc)

/-- The reader accepts what spells a form, and answers with what it spells. -/
theorem parse_eq_some_iff {key : Text} {spec : FormSpec} :
    parse key = some spec ↔ ∃ digits elementId modal, Spells key digits elementId modal ∧
      spec = ⟨numberOf digits, elementId, modal.isSome⟩ := by
  constructor
  · intro h
    obtain ⟨digits, modal, hspells, hformId, hmodal⟩ := exists_spells_of_parse h
    refine ⟨digits, spec.elementId, modal, hspells, ?_⟩
    rw [← hformId, ← hmodal]
  · rintro ⟨digits, elementId, modal, hspells, rfl⟩
    exact parse_of_spells hspells

example : parse "7;\u0131smodal".toList = none := by decide

end ContentWeave.FormSpec
