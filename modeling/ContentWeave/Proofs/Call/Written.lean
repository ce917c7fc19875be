import ContentWeave.Directive
import ContentWeave.Proofs.Call.Literals
import ContentWeave.Proofs.Directive.Opening
import ContentWeave.Proofs.Number.Numerals
import ContentWeave.Proofs.Table

/-!
# Chunk calls as they are written

A call is written with its key and its assignments, each behind a blank. Scanning finds this one
directive in it, and its arguments are the assignments again: of those to one name, the last that
gives a value counts, and the last that gives a default.
-/

namespace ContentWeave

def Literal.startingNumber (content : Text) : Float :=
  (Number.Numeral.longest? content).elim 0 Number.Numeral.toFloat

/-- What a literal means; nothing is meant by a missing one. -/
def Literal.meaning? : Literal → Option Value
  | .quoted content => some (.text content)
  | .bare [] => none
  | .bare content => some (.number (startingNumber content))

namespace Directive

open Text (BracketFree)

structure WellKeyed (key : Text) : Prop where
  ne_nil : key ≠ []
  plain : ∀ c ∈ key, Text.isBlank c = false ∧ c ≠ '[' ∧ c ≠ ']' ∧ c ≠ '='

instance (key : Text) : Decidable (WellKeyed key) :=
  decidable_of_iff
    (key ≠ [] ∧ (key.all fun c => !Text.isBlank c && (c != '[' && (c != ']' && c != '='))) = true)
    ⟨fun ⟨h₁, h₂⟩ => ⟨h₁, by simpa using h₂⟩, fun ⟨h₁, h₂⟩ => ⟨h₁, by simpa using h₂⟩⟩

def writeArguments (as : List Assignment) : Text := as.flatMap fun a => ' ' :: a.write

def writeCall (key : Text) (as : List Assignment) : Text :=
  enclose ('$' :: key ++ writeArguments as)

theorem scan_enclose_append {body : Text} (hne : body ≠ []) (h : BracketFree body) (rest : Text) :
    scan (enclose body ++ rest) = parse (enclose body) :: scan rest := by
  have hfirst : pattern.first? (enclose body ++ rest) = some (parse (enclose body)) := by
    simp [pattern, bodyAt?_enclose hne h]
  obtain ⟨tail, htail, hpieces⟩ := pattern.pieces_of_first? hfirst
  have hraw : pattern.raw (parse (enclose body)) = enclose body := parse_raw _
  rw [hraw] at htail
  obtain rfl : rest = tail := List.append_cancel_left htail
  rw [scan, Text.Pattern.items, hpieces]
  rfl

theorem writeArguments_append (as : List Assignment) :
    ∃ e rest, writeArguments as ++ [']', ']'] = e :: rest ∧ Assignment.isEnd e = true ∧
      Text.isWordChar e = false ∧ e ≠ '=' := by
  cases as with
  | nil => exact ⟨']', [']'], rfl, by decide, by decide, by decide⟩
  | cons a as =>
    exact ⟨' ', a.write ++ writeArguments as ++ [']', ']'], by simp [writeArguments],
      by decide, by decide, by decide⟩

theorem bracketFree_of_isWordChar {word : Text} (h : ∀ c ∈ word, Text.isWordChar c = true) :
    BracketFree word := by
  intro c hc
  have hword := h c hc
  constructor <;> rintro rfl <;> exact absurd hword (by decide)

theorem bracketFree_write {a : Assignment} (ha : a.Legible) : BracketFree a.write := by
  have hvalue : BracketFree a.value.write := by
    rcases ha.value with hv | hv
    · rw [hv]
      exact BracketFree.nil
    · exact hv.no_bracket
  have hdefault : BracketFree (Assignment.writeDefault a.default) := by
    cases hd : a.default with
    | none => exact BracketFree.nil
    | some d => exact BracketFree.cons (by decide) (ha.default d hd).no_bracket
  have hname := bracketFree_of_isWordChar ha.name_word
  exact hname.append (BracketFree.cons (by decide) (hvalue.append hdefault))

theorem bracketFree_call {key : Text} (hkey : WellKeyed key) {as : List Assignment}
    (has : ∀ a ∈ as, a.Legible) : BracketFree ('$' :: key ++ writeArguments as) := by
  have hplain : BracketFree key := fun c hc =>
    ⟨(hkey.plain c hc).2.1, (hkey.plain c hc).2.2.1⟩
  have harguments : BracketFree (writeArguments as) := by
    intro c hc
    obtain ⟨a, ha, hc⟩ := List.mem_flatMap.1 hc
    exact BracketFree.cons (by decide) (bracketFree_write (has a ha)) c hc
  exact BracketFree.append (BracketFree.cons (by decide) hplain) harguments

theorem parse_writeCall {key : Text} (hkey : WellKeyed key) {as : List Assignment}
    (has : ∀ a ∈ as, a.Legible) :
    parse (writeCall key as) = ⟨writeCall key as, some '$', key⟩ := by
  have hends : ∀ c ∈ (writeArguments as).head?, Text.isBlank c = true := by
    cases as with
    | nil => simp [writeArguments]
    | cons a as => simp [writeArguments, Text.isBlank]
  have hrun : Run key (writeArguments as) :=
    ⟨hkey.ne_nil, fun c hc => (hkey.plain c hc).1, hends⟩
  have hopening : Opening ('$' :: (key ++ writeArguments as)) (some '$') key :=
    .marked (by decide) (by decide) hrun
  exact hopening.parse_enclose (bracketFree_call hkey has)

theorem scan_writeCall {key : Text} (hkey : WellKeyed key) {as : List Assignment}
    (has : ∀ a ∈ as, a.Legible) :
    scan (writeCall key as) = [⟨writeCall key as, some '$', key⟩] := by
  have hscan := scan_enclose_append (by simp) (bracketFree_call hkey has) []
  rw [List.append_nil] at hscan
  have hnil : scan [] = [] := by decide
  rw [writeCall, hscan, hnil, ← writeCall, parse_writeCall hkey has]

end Directive

namespace Assignment

open Directive (writeArguments writeCall)

theorem allFrom_writeArguments {as : List Assignment} (has : ∀ a ∈ as, a.Legible) {e : Char}
    {rest : Text} (h : writeArguments as ++ [']', ']'] = e :: rest) :
    allFrom 0 [] rest = as := by
  induction as generalizing e rest with
  | nil =>
    cases h
    decide
  | cons a as ih =>
    obtain ⟨e', rest', hrest', he', -⟩ := Directive.writeArguments_append as
    have has' := ih (fun b hb => has b (by simp [hb])) hrest'
    have hwritten : rest = a.write ++ e' :: rest' := by
      rw [← hrest', ← (List.cons.inj h).2]
      simp [writeArguments, List.flatMap]
    rw [hwritten, allFrom_write (has a (by simp)) he', has']

theorem all_writeCall {key : Text} (hkey : Directive.WellKeyed key) {as : List Assignment}
    (has : ∀ a ∈ as, a.Legible) : all (writeCall key as) = as := by
  obtain ⟨e, rest, hrest, -, hword, hne⟩ := Directive.writeArguments_append as
  have hcall : writeCall key as = ('[' :: '[' :: '$' :: key) ++ e :: rest := by
    simp [writeCall, Directive.enclose, ← hrest]
  have hpass : ∀ c ∈ '[' :: '[' :: '$' :: key, c ≠ '=' := by
    simpa using fun c hc => (hkey.plain c hc).2.2.2
  rw [all, hcall, allFrom_pass hpass hne hword, allFrom_writeArguments has hrest]

def lastGiven? (given : Assignment → Option Value) (as : List Assignment) (name : Text) :
    Option Value :=
  (as.filterMap fun a => if a.name = name then given a else none).getLast?

def lastValue? (as : List Assignment) (name : Text) : Option Value :=
  lastGiven? (fun a => a.value.meaning?) as name

def lastDefault? (as : List Assignment) (name : Text) : Option Value :=
  lastGiven? (fun a => a.default.bind Literal.meaning?) as name

theorem lastGiven?_concat (given : Assignment → Option Value) (as : List Assignment)
    (a : Assignment) (name : Text) :
    lastGiven? given (as ++ [a]) name =
      (if a.name = name then given a else none).or (lastGiven? given as name) := by
  simp only [lastGiven?, List.filterMap_append, List.getLast?_append, List.filterMap_cons,
    List.filterMap_nil]
  split <;> simp_all

theorem lastValue?_concat (as : List Assignment) (a : Assignment) (name : Text) :
    lastValue? (as ++ [a]) name =
      (if a.name = name then a.value.meaning? else none).or (lastValue? as name) :=
  lastGiven?_concat _ as a name

theorem lastDefault?_concat (as : List Assignment) (a : Assignment) (name : Text) :
    lastDefault? (as ++ [a]) name =
      (if a.name = name then a.default.bind Literal.meaning? else none).or
        (lastDefault? as name) :=
  lastGiven?_concat _ as a name

end Assignment

/-- What a literal is stored as is what it means, if it is no empty text between quotes and no number
behind a blank. -/
theorem Literal.value?_eq_meaning? {l : Literal}
    (hquoted : ∀ content, l = .quoted content → content ≠ [])
    (hbare : ∀ content, l = .bare content → ∀ c ∈ content.head?, Text.isBlank c = false) :
    l.value? = l.meaning? := by
  cases l with
  | quoted content =>
    obtain ⟨c, cs, rfl⟩ := List.exists_cons_of_ne_nil (hquoted content rfl)
    rfl
  | bare content =>
    cases content with
    | nil => rfl
    | cons c cs =>
      have hc : Text.isBlank c = false := hbare _ rfl c rfl
      have htrim : Text.trimStart (c :: cs) = c :: cs := by simp [Text.trimStart, hc]
      simp only [value?, meaning?, Value.ofBare, htrim, startingNumber,
        Number.Numeral.longest?_eq_scan]
      cases Number.Numeral.scan (c :: cs) <;> rfl

theorem Literal.Legible.value?_eq_meaning? {ends : Char → Bool} {l : Literal}
    (h : l.Legible ends) (hblank : ∀ c, Text.isBlank c = true → ends c = true) :
    l.value? = l.meaning? := by
  refine Literal.value?_eq_meaning? ?_ ?_
  · rintro content rfl
    exact Quotable.ne_nil h
  · rintro content rfl c hc
    have hend := Bare.no_end h c (List.mem_of_head? hc)
    exact Bool.eq_false_iff.2 fun hb => by simp [hblank c hb] at hend

namespace Assignment

/-- An assignment to a word whose literals are stored as what they mean. -/
structure Meant (a : Assignment) : Prop where
  name_word : ∀ c ∈ a.name, Text.isWordChar c = true
  value?_eq : a.value.value? = a.value.meaning?
  default?_eq : a.default.bind Literal.value? = a.default.bind Literal.meaning?

theorem Legible.meant {a : Assignment} (ha : a.Legible) : a.Meant where
  name_word := ha.name_word
  value?_eq := by
    rcases ha.value with hv | hv
    · simp [hv, Literal.value?, Literal.meaning?]
    · exact hv.value?_eq_meaning? fun c hc => by simp [endsValue, hc]
  default?_eq := by
    cases hd : a.default with
    | none => rfl
    | some d => exact (ha.default d hd).value?_eq_meaning? fun c hc => hc

end Assignment

namespace ArgumentSet

open Assignment (lastValue? lastDefault?)

theorem get?_assign (s : ArgumentSet) (a : Assignment) (k : Text) :
    (s.assign a).get? k =
      (if defaultName a.name = k then a.default.bind Literal.value? else none).or
        ((if a.name = k then a.value.value? else none).or (s.get? k)) := by
  unfold assign
  cases a.default.bind Literal.value? <;> cases a.value.value? <;>
    simp only [insertDefault, insert, get?, Table.get?_insert, eq_comm (a := k)] <;>
    split_ifs <;> rfl

theorem defaultName_injective {name other : Text} (h : defaultName name = defaultName other) :
    name = other := List.append_cancel_right h

theorem defaultName_ne_word {word : Text} (hword : ∀ c ∈ word, Text.isWordChar c = true)
    (name : Text) : defaultName name ≠ word := by
  intro h
  have hyphen : '-' ∈ word := by
    rw [← h]
    exact List.mem_append_right _ (by decide)
  exact absurd (hword '-' hyphen) (by decide)

structure Holds (s : ArgumentSet) (as : List Assignment) : Prop where
  value : ∀ name : Text, (∀ c ∈ name, Text.isWordChar c = true) →
    s.get? name = lastValue? as name
  default : ∀ name : Text, s.defaultFor? name = lastDefault? as name
  only : ∀ k v, s.get? k = some v → ∃ a ∈ as, k = a.name ∨ k = defaultName a.name

theorem Holds.assign {s : ArgumentSet} {as : List Assignment} (hs : s.Holds as) {a : Assignment}
    (ha : a.Meant) : (s.assign a).Holds (as ++ [a]) where
  value name hname := by
    rw [get?_assign, if_neg (defaultName_ne_word hname _), Option.none_or, hs.value name hname,
      Assignment.lastValue?_concat, ha.value?_eq]
  default name := by
    have hstored : s.get? (defaultName name) = lastDefault? as name := hs.default name
    rw [defaultFor?, get?_assign, if_neg (defaultName_ne_word ha.name_word name).symm,
      Option.none_or, hstored, Assignment.lastDefault?_concat, ha.default?_eq,
      if_congr ⟨defaultName_injective, congrArg defaultName⟩ rfl rfl]
  only k v hv := by
    by_cases hk : k = a.name ∨ k = defaultName a.name
    · exact ⟨a, by simp, hk⟩
    · obtain ⟨hname, hdefault⟩ := not_or.1 hk
      rw [get?_assign, if_neg (Ne.symm hdefault), if_neg (Ne.symm hname), Option.none_or,
        Option.none_or] at hv
      obtain ⟨b, hb, hkb⟩ := hs.only k v hv
      exact ⟨b, by simp [hb], hkb⟩

theorem holds_foldl_of_meant {as : List Assignment} (has : ∀ a ∈ as, a.Meant) :
    (as.foldl assign {}).Holds as := by
  induction as using List.reverseRecOn with
  | nil => exact ⟨fun _ _ => rfl, fun _ => rfl, fun k v hv => by simp [get?, Table.get?] at hv⟩
  | append_singleton as a ih =>
    rw [List.foldl_concat]
    exact (ih fun b hb => has b (by simp [hb])).assign (has a (by simp))

theorem holds_foldl_assign {as : List Assignment} (has : ∀ a ∈ as, a.Legible) :
    (as.foldl assign {}).Holds as :=
  holds_foldl_of_meant fun a ha => (has a ha).meant

end ArgumentSet

/-- A call is read back as it was written: it is one directive with its key, and its arguments are
what its assignments say. -/
theorem read_writeCall {key : Text} (hkey : Directive.WellKeyed key) {as : List Assignment}
    (has : ∀ a ∈ as, a.Legible) :
    Directive.scan (Directive.writeCall key as) =
        [⟨Directive.writeCall key as, some '$', key⟩] ∧
      (ArgumentSet.parse (Directive.writeCall key as)).Holds as := by
  refine ⟨Directive.scan_writeCall hkey has, ?_⟩
  rw [ArgumentSet.parse, Assignment.all_writeCall hkey has]
  exact ArgumentSet.holds_foldl_assign has

def cardArguments : List Assignment :=
  [⟨"title".toList, .quoted "It's a=1 |b= ".toList, some (.quoted "c'|d".toList)⟩,
    ⟨"n".toList, .bare "12px".toList, some (.bare "3|4".toList)⟩,
    ⟨"n".toList, .quoted "'".toList, none⟩,
    ⟨"n".toList, .bare [], some (.quoted "e\\' f".toList)⟩]

theorem read_writeCall_card :
    Directive.writeCall "card".toList cardArguments =
        "[[$card title='It's a=1 |b= '|'c'|d' n=12px|3|4 n=''' n=|'e\\' f']]".toList ∧
      Directive.WellKeyed "card".toList ∧ (∀ a ∈ cardArguments, a.Legible) ∧
      Directive.scan (Directive.writeCall "card".toList cardArguments) =
        [⟨Directive.writeCall "card".toList cardArguments, some '$', "card".toList⟩] ∧
      (ArgumentSet.parse (Directive.writeCall "card".toList cardArguments)).Holds cardArguments := by
  have hkey : Directive.WellKeyed "card".toList := by decide +kernel
  have has : ∀ a ∈ cardArguments, a.Legible := by decide +kernel
  exact ⟨by decide +kernel, hkey, has, read_writeCall hkey has⟩

end ContentWeave
