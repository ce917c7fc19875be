import ContentWeave.Proofs.Form.Grammar

/-!
# The element of a form

The element is written with nothing escaped. An attribute is read up to the next quote, so what is
read is what was meant as long as no value has a quote in it, and for a form that was read from a
key none does: digits and the characters of an element id are no quotes, and no other characters
that mean something in markup.
-/

namespace ContentWeave.FormSpec

open Text (Leads isBlank)

def IsName (name : Text) : Prop := name.all (fun c => c.isAlphanum || c == '-') = true

instance (name : Text) : Decidable (IsName name) := inferInstanceAs (Decidable (_ = _))

/-- The attributes of an empty element, from behind its name on: each is a name and a value between
quotes, which ends at the first of them. -/
inductive Attributes : Text → List (Text × Text) → Prop
  | close : Attributes "></div>".toList []
  | more {name value rest : Text} {attributes : List (Text × Text)} (hname : IsName name)
      (hvalue : '"' ∉ value) (h : Attributes rest attributes) :
      Attributes (' ' :: (name ++ '=' :: '"' :: (value ++ '"' :: rest)))
        ((name, value) :: attributes)

/-- The markup is an empty `div` element with these attributes. -/
def Element (markup : Text) (attributes : List (Text × Text)) : Prop :=
  ∃ rest, markup = "<div".toList ++ rest ∧ Attributes rest attributes

def attributes (spec : FormSpec) : List (Text × Text) :=
  [("class".toList, "cb-form".toList), ("data-form-id".toList, Text.ofInt spec.formId)]
    ++ (spec.elementId.map fun id => ("id".toList, id)).toList
    ++ if spec.isModal then [("data-modal".toList, "true".toList)] else []

def written (a : Text × Text) : Text := ' ' :: (a.1 ++ '=' :: '"' :: (a.2 ++ ['"']))

/-- No character of an id would end the value that it stands in, or be markup there. -/
def Clean (id : Text) : Prop :=
  ∀ c ∈ id, c ≠ '"' ∧ c ≠ '<' ∧ c ≠ '>' ∧ c ≠ '&' ∧ isBlank c = false

section Reading

variable {s markup : Text} {as bs : List (Text × Text)}

theorem IsName.leads {name : Text} (h : IsName name) (rest : Text) :
    Leads (· != '=') name ('=' :: rest) :=
  Text.leads_of_notMem (fun hmem => absurd (List.all_eq_true.1 h '=' hmem) (by decide)) (by simp)

theorem leads_quote {value : Text} (h : '"' ∉ value) (rest : Text) :
    Leads (· != '"') value ('"' :: rest) :=
  Text.leads_of_notMem h (by simp)

theorem Attributes.unique (h : Attributes s as) (h' : Attributes s bs) : as = bs := by
  induction h generalizing bs with
  | close =>
    generalize htext : "></div>".toList = t at h'
    cases h' with
    | close => rfl
    | more => simp at htext
  | @more name value rest attributes hname hvalue _ ih =>
    generalize htext : ' ' :: (name ++ '=' :: '"' :: (value ++ '"' :: rest)) = t at h'
    cases h' with
    | close => simp at htext
    | more hname' hvalue' h' =>
      obtain ⟨rfl, hbehind⟩ := (hname.leads _).unique (hname'.leads _) (List.cons.inj htext).2
      obtain ⟨rfl, hrest⟩ := (leads_quote hvalue _).unique (leads_quote hvalue' _)
        (List.cons.inj (List.cons.inj hbehind).2).2
      obtain rfl := (List.cons.inj hrest).2
      rw [ih h']

/-- Markup is read as one element only. -/
theorem Element.unique (h : Element markup as) (h' : Element markup bs) : as = bs := by
  obtain ⟨rest, rfl, h⟩ := h
  obtain ⟨rest', hrest, h'⟩ := h'
  obtain rfl := List.append_cancel_left hrest
  exact h.unique h'

end Reading

section Writing

variable {key : Text} {spec : FormSpec}

theorem clean_of_elementIdChars {id : Text} (h : ∀ c ∈ id, isElementIdChar c = true) :
    Clean id := by
  intro c hc
  have hne : ∀ d, isElementIdChar d = false → c ≠ d := by
    rintro d hd rfl
    rw [h c hc] at hd
    cases hd
  refine ⟨hne _ (by decide), hne _ (by decide), hne _ (by decide), hne _ (by decide), ?_⟩
  cases hblank : isBlank c with
  | false => rfl
  | true => exact absurd rfl (hne c (Text.eq_false_of_isBlank (by decide +kernel) hblank))

theorem clean_of_parse (h : parse key = some spec) : ∀ id ∈ spec.elementId, Clean id := by
  obtain ⟨digits, modal, hspells, -, -⟩ := exists_spells_of_parse h
  exact fun id hid => clean_of_elementIdChars fun c hc =>
    isElementIdChar_iff.2 (hspells.elementId id hid c hc)

theorem attributes_flatMap_written {as : List (Text × Text)}
    (h : ∀ a ∈ as, IsName a.1 ∧ '"' ∉ a.2) :
    Attributes (as.flatMap written ++ "></div>".toList) as := by
  induction as with
  | nil => exact .close
  | cons a as ih =>
    have ha := h a (by simp)
    have hmore := Attributes.more ha.1 ha.2 (ih fun b hb => h b (by simp [hb]))
    simpa [written] using hmore

theorem mem_attributes {a : Text × Text} :
    a ∈ attributes spec ↔
      a = ("class".toList, "cb-form".toList) ∨ a = ("data-form-id".toList, Text.ofInt spec.formId) ∨
        (∃ id ∈ spec.elementId, a = ("id".toList, id)) ∨
        spec.isModal = true ∧ a = ("data-modal".toList, "true".toList) := by
  simp only [attributes, List.mem_append, List.mem_cons, List.not_mem_nil, or_false,
    Option.mem_toList, Option.map_eq_some_iff, Option.mem_def, eq_comm (a := a)]
  by_cases hmodal : spec.isModal = true
  · simp [hmodal, or_assoc, eq_comm (a := a)]
  · simp [hmodal, or_assoc]

theorem quote_notMem_ofNat (n : ℕ) : '"' ∉ Text.ofNat n := fun h =>
  absurd (Text.isDigit_of_mem_ofNat h) (by decide)

theorem html_eq (spec : FormSpec) :
    html spec = "<div".toList ++ ((attributes spec).flatMap written ++ "></div>".toList) := by
  unfold html attributes
  cases spec.elementId <;> cases spec.isModal <;> simp [written]

theorem element_html {spec : FormSpec} (hnumber : '"' ∉ Text.ofInt spec.formId)
    (hid : ∀ id ∈ spec.elementId, '"' ∉ id) : Element (html spec) (attributes spec) := by
  refine ⟨_, html_eq spec, attributes_flatMap_written fun a ha => ?_⟩
  have hname : IsName "class".toList ∧ IsName "data-form-id".toList ∧ IsName "id".toList ∧
      IsName "data-modal".toList := by decide
  rcases mem_attributes.1 ha with rfl | rfl | ⟨id, h, rfl⟩ | ⟨-, rfl⟩
  · exact ⟨hname.1, by decide⟩
  · exact ⟨hname.2.1, hnumber⟩
  · exact ⟨hname.2.2.1, hid id h⟩
  · exact ⟨hname.2.2.2, by decide⟩

theorem element_html_of_parse (h : parse key = some spec) :
    Element (html spec) (attributes spec) := by
  have hclean := clean_of_parse h
  obtain ⟨digits, modal, -, hformId, -⟩ := exists_spells_of_parse h
  obtain ⟨formId, elementId, isModal⟩ := spec
  obtain rfl : formId = numberOf digits := hformId
  exact element_html (quote_notMem_ofNat _) fun id hid hquote => (hclean id hid '"' hquote).1 rfl

theorem attributes_injective {n m : ℕ} {elementId elementId' : Option Text}
    {isModal isModal' : Bool}
    (h : attributes ⟨n, elementId, isModal⟩ = attributes ⟨m, elementId', isModal'⟩) :
    n = m ∧ elementId = elementId' ∧ isModal = isModal' := by
  simp only [attributes, List.cons_append, List.nil_append, List.cons.injEq, Prod.mk.injEq,
    true_and] at h
  obtain ⟨hnumber, hrest⟩ := h
  refine ⟨?_, ?_⟩
  · rw [← Text.foldDigits_ofNat n, ← Text.foldDigits_ofNat m]
    exact congrArg _ hnumber
  · cases elementId <;> cases elementId' <;> cases isModal <;> cases isModal' <;> simp_all

theorem id_mem_attributes {id : Text} :
    ("id".toList, id) ∈ attributes spec ↔ spec.elementId = some id := by
  rw [mem_attributes]
  simp

theorem eq_of_html_eq {key' : Text} {spec' : FormSpec} (h : parse key = some spec)
    (h' : parse key' = some spec') (heq : html spec = html spec') : spec = spec' := by
  have hsame := (element_html_of_parse h).unique (heq ▸ element_html_of_parse h')
  obtain ⟨digits, -, -, hformId, -⟩ := exists_spells_of_parse h
  obtain ⟨digits', -, -, hformId', -⟩ := exists_spells_of_parse h'
  obtain ⟨formId, elementId, isModal⟩ := spec
  obtain ⟨formId', elementId', isModal'⟩ := spec'
  obtain rfl : formId = numberOf digits := hformId
  obtain rfl : formId' = numberOf digits' := hformId'
  obtain ⟨hnumber, rfl, rfl⟩ := attributes_injective hsame
  rw [hnumber]

end Writing

/-- The reader of form keys accepts exactly what spells a form, and the element of a form that was
read from a key says what the key spells: it is read as one element, whose id is the one of the key
and has no quote, no markup and no blank in it, and no two forms have the same element. -/
theorem parse_spelled_and_html_faithful :
    (∀ key spec, parse key = some spec ↔
      ∃ digits elementId modal, Spells key digits elementId modal ∧
        spec = ⟨numberOf digits, elementId, modal.isSome⟩) ∧
    (∀ key spec, parse key = some spec → ∃ as, (∀ bs, Element (html spec) bs ↔ bs = as) ∧
      ∀ id, (("id".toList, id) ∈ as ↔ spec.elementId = some id) ∧
        (("id".toList, id) ∈ as → Clean id)) ∧
    ∀ key key' spec spec', parse key = some spec → parse key' = some spec' →
      html spec = html spec' → spec = spec' := by
  refine ⟨fun key spec => parse_eq_some_iff, fun key spec h => ?_, fun key key' spec spec' h h' =>
    eq_of_html_eq h h'⟩
  have helement := element_html_of_parse h
  refine ⟨attributes spec, fun bs => ⟨fun hbs => hbs.unique helement, fun hbs => hbs ▸ helement⟩,
    fun id => ?_⟩
  exact ⟨id_mem_attributes, fun hid => clean_of_parse h id (id_mem_attributes.1 hid)⟩

theorem parse_spelled_and_html_faithful_zeros :
    parse "042#side-bar;iſModal".toList = some ⟨42, some "side-bar".toList, true⟩ ∧
    (∃ as, (∀ bs, Element (html ⟨42, some "side-bar".toList, true⟩) bs ↔ bs = as) ∧
      ∀ id, (("id".toList, id) ∈ as ↔ some "side-bar".toList = some id) ∧
        (("id".toList, id) ∈ as → Clean id)) ∧
    ∀ spec, parse "42#side-bar;ISMODAL".toList = some spec →
      spec = ⟨42, some "side-bar".toList, true⟩ := by
  obtain ⟨haccept, helement, hinjective⟩ := parse_spelled_and_html_faithful
  have hread : parse "042#side-bar;iſModal".toList = some ⟨42, some "side-bar".toList, true⟩ := by
    decide +kernel
  have hread' : parse "42#side-bar;ISMODAL".toList = some ⟨42, some "side-bar".toList, true⟩ := by
    decide +kernel
  obtain ⟨digits, elementId, modal, hspells, hspec⟩ := (haccept _ _).1 hread
  refine ⟨(haccept _ _).2 ⟨digits, elementId, modal, hspells, hspec⟩, helement _ _ hread, ?_⟩
  intro spec h
  refine hinjective _ _ _ _ h hread ?_
  rw [Option.some.inj (h.symm.trans hread')]

end ContentWeave.FormSpec
