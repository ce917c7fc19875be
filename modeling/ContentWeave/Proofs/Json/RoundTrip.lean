import ContentWeave.Proofs.Table
import Mathlib.Tactic.Common

/-!
# Reading back what codecs write

A written string is read back character by character, whatever follows it, and so are the fields of
an object whose values are strings. A table is written in the order of its keys; what is read back
is a table in which every key has the value that it had.
-/

namespace ContentWeave

namespace Json

theorem hexValue?_hexDigit : ∀ n < 16, hexValue? (Bytes.hexDigit n) = some n := by decide

theorem readUnits_escapeChar (c : Char) (rest : Text) :
    readUnits (escapeChar c ++ rest) =
      (readUnits rest).map fun read => (c.toNat :: read.1, read.2) := by
  unfold escapeChar
  split_ifs with h₁ h₂ h₃ h₄ h₅ h₆ h₇ h₈
  · subst h₁
    cases h : readUnits rest <;> simp [readUnits, escaped?, h]
  · subst h₂
    cases h : readUnits rest <;> simp [readUnits, escaped?, h]
  · subst h₃
    cases h : readUnits rest <;> simp [readUnits, escaped?, h]
  · subst h₄
    cases h : readUnits rest <;> simp [readUnits, escaped?, h]
  · subst h₅
    cases h : readUnits rest <;> simp [readUnits, escaped?, h]
  · subst h₆
    cases h : readUnits rest <;> simp [readUnits, escaped?, h]
  · subst h₇
    cases h : readUnits rest <;> simp [readUnits, escaped?, h]
  · have hhigh := hexValue?_hexDigit (c.toNat / 16) (by omega)
    have hlow := hexValue?_hexDigit (c.toNat % 16) (by omega)
    have hzero : hexValue? '0' = some 0 := by decide
    have hnumber : hexNumber? ['0', '0', Bytes.hexDigit (c.toNat / 16),
        Bytes.hexDigit (c.toNat % 16)] = some c.toNat := by
      simp only [hexNumber?, List.foldlM_cons, List.foldlM_nil, hzero, hhigh, hlow,
        Option.map_some, Option.bind_eq_bind, Option.bind_some, Option.pure_def]
      congr 1
      omega
    cases h : readUnits rest <;> simp [readUnits, hnumber, h]
  · rw [List.singleton_append, readUnits]
    · cases h : readUnits rest <;> simp [h₂, h₈]
    · exact h₁
    · intro a b c' d s hc
      exact absurd hc h₂
    · intro d s hc
      exact absurd hc h₂

theorem readUnits_write (s rest : Text) :
    readUnits (s.flatMap escapeChar ++ '"' :: rest) = some (s.map Char.toNat, rest) := by
  induction s with
  | nil => simp [readUnits]
  | cons c s ih =>
    rw [List.flatMap_cons, List.append_assoc, readUnits_escapeChar, ih]
    rfl

theorem not_surrogate (c : Char) :
    isHighSurrogate c.toNat = false ∧ isLowSurrogate c.toNat = false := by
  have hvalid : c.toNat < 0xd800 ∨ (0xdfff < c.toNat ∧ c.toNat < 0x110000) := c.valid
  simp only [isHighSurrogate, isLowSurrogate, Bool.and_eq_false_iff, decide_eq_false_iff_not]
  omega

theorem textOfUnits?_map_toNat (s : Text) : textOfUnits? (s.map Char.toNat) = some s := by
  induction s with
  | nil => rfl
  | cons c s ih =>
    obtain ⟨hhigh, hlow⟩ := not_surrogate c
    cases s with
    | nil => simp [textOfUnits?, hhigh, hlow, Char.ofNat_toNat]
    | cons d s =>
      rw [List.map_cons, List.map_cons, textOfUnits?, hhigh, hlow, ← List.map_cons, ih]
      simp [Char.ofNat_toNat]

theorem readString?_write (s rest : Text) :
    readString? (s.flatMap escapeChar ++ '"' :: rest) = some (some s, rest) := by
  simp [readString?, readUnits_write, textOfUnits?_map_toNat]

theorem skipSpace_cons {c : Char} (h : isSpace c = false) (s : Text) :
    skipSpace (c :: s) = c :: s := by
  simp [skipSpace, h]

theorem readValue?_writeString (fuel : Nat) (s rest : Text) :
    readValue? (fuel + 1) (writeString s ++ rest) = some (string s, rest) := by
  have hspace : skipSpace (writeString s ++ rest) = '"' :: (s.flatMap escapeChar ++ '"' :: rest) := by
    rw [writeString, List.cons_append, List.cons_append, List.append_assoc, List.singleton_append]
    exact skipSpace_cons rfl _
  rw [readValue?, hspace]
  simp [readString?_write]

def textField (pair : Text × Text) : Option Text × Json := (some pair.1, string pair.2)

theorem readFields?_write {fuel : Nat} {pairs : List (Text × Text)} (hne : pairs ≠ [])
    (hfuel : pairs.length < fuel) (rest : Text) :
    readFields? fuel (writeFields (pairs.map textField) ++ '\x7d' :: rest) =
      some (pairs.map textField, rest) := by
  induction pairs generalizing fuel with
  | nil => exact absurd rfl hne
  | cons pair pairs ih =>
    obtain ⟨name, value⟩ := pair
    obtain ⟨fuel, rfl⟩ : ∃ n, fuel = n + 2 := ⟨fuel - 2, by simp at hfuel; omega⟩
    have hopen : ∀ s : Text, skipSpace ('"' :: s) = '"' :: s := skipSpace_cons rfl
    have hcolon : ∀ s : Text, skipSpace (':' :: s) = ':' :: s := skipSpace_cons rfl
    cases pairs with
    | nil =>
      have hend : skipSpace ('\x7d' :: rest) = '\x7d' :: rest := skipSpace_cons rfl rest
      have hvalue := readValue?_writeString fuel value ('\x7d' :: rest)
      simp only [List.map_cons, List.map_nil, textField, writeFields, writeName, Option.map_some,
        Option.getD_some, writeString, write, List.cons_append, List.append_assoc, List.nil_append]
      rw [readFields?, hopen]
      simp only [writeString, List.cons_append, List.append_assoc, List.nil_append] at hvalue
      simp [readString?_write, hcolon, hvalue, hend]
    | cons next pairs =>
      have hcomma : ∀ s : Text, skipSpace (',' :: s) = ',' :: s := skipSpace_cons rfl
      have hfew : (next :: pairs).length < fuel + 1 := by
        simp only [List.length_cons] at hfuel ⊢
        omega
      have hrest := ih (by simp) hfew
      have hvalue := readValue?_writeString fuel value
        (',' :: (writeFields ((next :: pairs).map textField) ++ '\x7d' :: rest))
      simp only [List.map_cons, textField, writeFields, writeName, Option.map_some,
        Option.getD_some, writeString, write, List.cons_append, List.append_assoc,
        List.nil_append] at hrest hvalue ⊢
      rw [readFields?, hopen]
      simp [readString?_write, hcolon, hvalue, hcomma, hrest]

theorem length_writeFields (pairs : List (Text × Text)) :
    pairs.length ≤ (writeFields (pairs.map textField)).length := by
  induction pairs with
  | nil => simp
  | cons pair pairs ih =>
    cases pairs with
    | nil =>
      simp only [List.map_cons, List.map_nil, writeFields, List.length_append, List.length_cons,
        List.length_nil]
      omega
    | cons next pairs =>
      simp only [List.map_cons, textField, writeFields, List.length_append, List.length_cons] at ih ⊢
      omega

theorem parse?_writeString (s : Text) : parse? (writeString s) = some (string s) := by
  have h := readValue?_writeString (2 * (writeString s).length + 1) s []
  rw [List.append_nil] at h
  simp [parse?, h, skipSpace]

theorem readValue?_writeObject (fuel : Nat) (s : Text) :
    readValue? (fuel + 1) ('\x7b' :: '"' :: s) =
      (readFields? fuel ('"' :: s)).map fun read => (object read.1, read.2) := by
  rw [readValue?]
  simp [skipSpace, isSpace]

theorem parse?_writeObject (pairs : List (Text × Text)) :
    parse? (write (object (pairs.map textField))) = some (object (pairs.map textField)) := by
  cases pairs with
  | nil => rfl
  | cons pair pairs =>
    have hlen := length_writeFields (pair :: pairs)
    set body := writeFields ((pair :: pairs).map textField) with hbody
    have hquote : ∃ s, body ++ ['\x7d'] = '"' :: s := by
      rw [hbody]
      cases pairs <;>
        exact ⟨_, by simp [textField, writeFields, writeName, writeString]; rfl⟩
    have hfew : (pair :: pairs).length < 2 * (body.length + 2) + 1 := by omega
    have hread := readFields?_write (by simp) hfew []
    have hwrite : write (object ((pair :: pairs).map textField)) = '\x7b' :: (body ++ ['\x7d']) := by
      rw [write, hbody]
      rfl
    have hlength : (body ++ ['\x7d']).length + 1 = body.length + 2 := by simp
    obtain ⟨s, hs⟩ := hquote
    rw [← hbody, hs] at hread
    rw [parse?, hwrite, List.length_cons, hlength, hs, readValue?_writeObject, hread]
    rfl

namespace Codec

theorem decode?_encode_optionalText (value : Option Text) :
    optionalText.decode? (optionalText.encode value) = some value := by
  cases value with
  | none => rfl
  | some s =>
    have h := parse?_writeString s
    simp [decode?, encode, optionalText, write, h]

theorem mapM_namedText?_textField (pairs : List (Text × Text)) :
    (pairs.map textField).mapM namedText? = some pairs := by
  induction pairs with
  | nil => rfl
  | cons pair pairs ih => simp [textField, namedText?, ih]

theorem decode?_encode_texts (t : Table Text Text) :
    texts.decode? (texts.encode t) = some (Table.ofList t.sorted) := by
  have h := parse?_writeObject t.sorted
  have hm := mapM_namedText?_textField t.sorted
  have hj : texts.toJson t = object (t.sorted.map textField) := rfl
  rw [decode?, encode, hj, h, Option.bind_some]
  simp only [texts, hm, Option.map_some]

theorem get?_of_decode?_encode_texts {t t' : Table Text Text}
    (h : texts.decode? (texts.encode t) = some t') (k : Text) : t'.get? k = t.get? k := by
  rw [decode?_encode_texts] at h
  cases h
  exact t.get?_ofList_sorted k

end Codec
end Json
end ContentWeave
