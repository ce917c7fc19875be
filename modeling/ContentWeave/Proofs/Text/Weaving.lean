import ContentWeave.Replacements
import Mathlib.Data.List.Infix
import Mathlib.Tactic.Common

/-!
# Replacing marks one after the other

A text is woven from gaps and the texts between them. Replacing a word everywhere replaces it
among these texts and nowhere else, if the word cannot begin inside a gap or inside another text.
Marks, which are written between double brackets and hold no bracket inside, and inert texts, in
which no mark can begin whatever follows them, have this property. A queue of replacements of
marks by inert texts is then made position by position.
-/

namespace ContentWeave
namespace Text

theorem startsWith_iff_prefix {start s : Text} : startsWith start s = true ↔ start <+: s := by
  rw [startsWith, Option.isSome_iff_exists]
  constructor
  · rintro ⟨rest, h⟩
    exact ⟨rest, (stripStart_eq_some_iff.1 h).symm⟩
  · rintro ⟨rest, h⟩
    exact ⟨rest, stripStart_eq_some_iff.2 h.symm⟩

theorem contains_iff_infix {part s : Text} : contains part s = true ↔ part <:+: s := by
  induction s with
  | nil => simp [contains]
  | cons c cs ih => rw [contains, Bool.or_eq_true, startsWith_iff_prefix, ih, List.infix_cons_iff]

section Replacing

variable {word new : Text}

@[simp] theorem replaceAll_nil : replaceAll word new [] = [] := by
  unfold replaceAll
  split_ifs with h
  · rfl
  · simp [Pattern.substitute]

theorem replaceAll_append_self (hw : word ≠ []) (rest : Text) :
    replaceAll word new (word ++ rest) = new ++ replaceAll word new rest := by
  have hf : (Pattern.exactly word hw).first? (word ++ rest) = some () := by
    have hp := startsWith_iff_prefix.2 (List.prefix_append word rest)
    simp [Pattern.exactly, hp]
  obtain ⟨tail, ht, hpieces⟩ := (Pattern.exactly word hw).pieces_of_first? hf
  have hrest : tail = rest := (List.append_cancel_left ht).symm
  subst hrest
  simp only [replaceAll, dif_neg hw, Pattern.substitute, hpieces, List.flatMap_cons]

theorem replaceAll_cons {c : Char} {cs : Text} (h : ¬ word <+: c :: cs) :
    replaceAll word new (c :: cs) = c :: replaceAll word new cs := by
  by_cases hw : word = []
  · simp [replaceAll, hw]
  · have hf : (Pattern.exactly word hw).first? (c :: cs) = none := by
      have hs := mt startsWith_iff_prefix.1 h
      simp [Pattern.exactly, hs]
    simp only [replaceAll, dif_neg hw, Pattern.substitute,
      (Pattern.exactly word hw).pieces_cons_of_first?_eq_none hf, List.flatMap_cons]
    rfl

theorem replaceAll_of_not_infix {s : Text} (h : ¬ word <:+: s) : replaceAll word new s = s := by
  induction s with
  | nil => simp
  | cons c s ih =>
    have hfirst : ¬ word <+: c :: s := fun hp => h hp.isInfix
    have hrest : ¬ word <:+: s := fun hs => h (hs.trans (List.suffix_cons c s).isInfix)
    rw [replaceAll_cons hfirst, ih hrest]

end Replacing

/-- Replacing `word` passes over `x`, whatever follows. -/
def Skips (word x : Text) : Prop :=
  ∀ new rest, replaceAll word new (x ++ rest) = x ++ replaceAll word new rest

def Plain (s : Text) : Prop := ¬ ['[', '['] <:+: s

instance (s : Text) : Decidable (Plain s) := inferInstanceAs (Decidable (¬ ['[', '['] <:+: s))

/-- No double bracket opens in the text, whatever follows it. -/
structure Inert (s : Text) : Prop where
  plain : Plain s
  open_end : s.getLast? ≠ some '['

def Mark (s : Text) : Prop :=
  ∃ body : Text, (∀ c ∈ body, c ≠ '[' ∧ c ≠ ']') ∧ s = ['[', '['] ++ body ++ [']', ']']

theorem Plain.tail {c : Char} {s : Text} (h : Plain (c :: s)) : Plain s :=
  fun hs => h (hs.trans (List.suffix_cons c s).isInfix)

theorem Inert.tail {c : Char} {s : Text} (h : Inert (c :: s)) : Inert s := by
  refine ⟨h.plain.tail, fun hl => h.open_end ?_⟩
  cases s with
  | nil => simp at hl
  | cons d s => simpa [List.getLast?_cons_cons] using hl

theorem Inert.of_suffix {s t : Text} (h : Inert s) (ht : t <:+ s) : Inert t := by
  induction s with
  | nil => exact List.suffix_nil.1 ht ▸ h
  | cons c s ih =>
    rcases List.suffix_cons_iff.1 ht with rfl | ht
    · exact h
    · exact ih h.tail ht

theorem Inert.not_prefix {c : Char} {s rest : Text} (h : Inert (c :: s)) :
    ¬ ['[', '['] <+: c :: (s ++ rest) := by
  intro hp
  obtain ⟨hc, hs⟩ := List.cons_prefix_cons.1 hp
  cases s with
  | nil => exact h.open_end (congrArg some hc.symm)
  | cons d s =>
    obtain ⟨hd, -⟩ := List.cons_prefix_cons.1 hs
    rw [← hc, ← hd] at h
    exact h.plain (List.prefix_append ['[', '['] s).isInfix

theorem Mark.opens {w : Text} (hw : Mark w) : ['[', '['] <+: w := by
  obtain ⟨body, -, rfl⟩ := hw
  exact ⟨body ++ [']', ']'], by simp⟩

theorem Mark.ne_nil {w : Text} (hw : Mark w) : w ≠ [] := by
  rintro rfl
  simpa using hw.opens

theorem Mark.not_plain {w : Text} (hw : Mark w) : ¬ Plain w := fun h => h hw.opens.isInfix

theorem Mark.skips_inert {w x : Text} (hw : Mark w) (hx : Inert x) : Skips w x := by
  intro new rest
  induction x with
  | nil => rfl
  | cons c x ih =>
    have hc : ¬ w <+: c :: (x ++ rest) := fun h => hx.not_prefix (hw.opens.trans h)
    rw [List.cons_append, replaceAll_cons hc, ih hx.tail, List.cons_append]

theorem Mark.eq_of_prefix {w x rest : Text} (hw : Mark w) (hx : Mark x) (h : w <+: x ++ rest) :
    w = x := by
  obtain ⟨b, hb, rfl⟩ := hw
  obtain ⟨b', hb', rfl⟩ := hx
  suffices hbb : b = b' by rw [hbb]
  have hp : b ++ [']', ']'] <+: b' ++ ([']', ']'] ++ rest) := by simpa using h
  clear h
  -- both bodies end at the first closing bracket
  induction b generalizing b' with
  | nil =>
    cases b' with
    | nil => rfl
    | cons d b' => exact absurd (List.cons_prefix_cons.1 hp).1.symm (hb' d (by simp)).2
  | cons c b ih =>
    cases b' with
    | nil => exact absurd (List.cons_prefix_cons.1 hp).1 (hb c (by simp)).2
    | cons d b' =>
      obtain ⟨hc, hrest⟩ := List.cons_prefix_cons.1 hp
      rw [hc, ih (fun e he => hb e (by simp [he])) b' (fun e he => hb' e (by simp [he])) hrest]

theorem inert_of_no_bracket {s : Text} (h : ∀ c ∈ s, c ≠ '[') : Inert s := by
  refine ⟨fun hs => ?_, fun hl => h '[' (List.mem_of_getLast? hl) rfl⟩
  exact h '[' (hs.subset (by simp)) rfl

theorem inert_behind_open {body : Text} (hb : ∀ c ∈ body, c ≠ '[' ∧ c ≠ ']') :
    Inert ('[' :: (body ++ [']', ']'])) := by
  have hin : Inert (body ++ [']', ']']) := by
    refine inert_of_no_bracket fun c hc => ?_
    rcases List.mem_append.1 hc with hc | hc
    · exact (hb c hc).1
    · have hc : c = ']' := by simpa using hc
      simp [hc]
  refine ⟨fun hs => ?_, by simp [List.getLast?_cons]⟩
  rcases List.infix_cons_iff.1 hs with hs | hs
  · obtain ⟨-, hs⟩ := List.cons_prefix_cons.1 hs
    cases body with
    | nil => simp at hs
    | cons d body => exact (hb d (by simp)).1 (List.cons_prefix_cons.1 hs).1.symm
  · exact hin.plain hs

theorem Mark.skips_of_ne {w x : Text} (hw : Mark w) (hx : Mark x) (hne : x ≠ w) : Skips w x := by
  intro new rest
  have hfirst : ¬ w <+: x ++ rest := fun h => hne (hw.eq_of_prefix hx h).symm
  obtain ⟨body, hb, rfl⟩ := hx
  have hrest := hw.skips_inert (inert_behind_open hb) new rest
  rw [show ['[', '['] ++ body ++ [']', ']'] ++ rest =
    '[' :: ('[' :: (body ++ [']', ']']) ++ rest) by simp] at hfirst ⊢
  rw [replaceAll_cons hfirst, hrest]
  simp

def weave : (gaps texts : List Text) → Text
  | [], _ => []
  | gap :: gaps, [] => gap ++ weave gaps []
  | gap :: gaps, text :: texts => gap ++ text ++ weave gaps texts

theorem weave_cons_head (c : Char) (texts : List Text) {gaps : List Text} (h : gaps ≠ []) :
    weave (gaps.modifyHead (c :: ·)) texts = c :: weave gaps texts := by
  obtain ⟨gap, gaps, rfl⟩ := List.exists_cons_of_ne_nil h
  cases texts <;> simp [weave]

namespace Pattern

variable {α : Type} (p : Pattern α)

def gapsOf : List (Piece α) → List Text
  | [] => [[]]
  | .gap c :: pieces => (gapsOf pieces).modifyHead (c :: ·)
  | .item _ :: pieces => [] :: gapsOf pieces

def gaps (s : Text) : List Text := gapsOf (p.pieces s)

theorem length_gapsOf (pieces : List (Piece α)) :
    (gapsOf pieces).length = (pieces.filterMap Piece.item?).length + 1 := by
  induction pieces with
  | nil => rfl
  | cons piece pieces ih => cases piece <;> simp [gapsOf, Piece.item?, List.filterMap_cons, ih]

theorem gapsOf_ne_nil (pieces : List (Piece α)) : gapsOf pieces ≠ [] := by
  have h := length_gapsOf pieces
  intro he
  simp [he] at h

theorem weave_gapsOf (pieces : List (Piece α)) :
    weave (gapsOf pieces) ((pieces.filterMap Piece.item?).map p.raw) = pieces.flatMap p.write := by
  induction pieces with
  | nil => rfl
  | cons piece pieces ih =>
    cases piece with
    | gap c =>
      have hc := weave_cons_head c ((pieces.filterMap Piece.item?).map p.raw)
        (gapsOf_ne_nil pieces)
      simpa [gapsOf, Piece.item?, List.filterMap_cons, write, hc] using ih
    | item a => simpa [gapsOf, Piece.item?, write, weave] using ih

theorem length_gaps (s : Text) : (p.gaps s).length = (p.items s).length + 1 :=
  length_gapsOf _

theorem weave_gaps (s : Text) : weave (p.gaps s) ((p.items s).map p.raw) = s := by
  rw [gaps, items, weave_gapsOf, flatMap_write_pieces]

theorem exists_first?_of_mem_piecesFrom {skip : Nat} {s : Text} {a : α}
    (h : .item a ∈ p.piecesFrom skip s) : ∃ t, p.first? t = some a := by
  induction s generalizing skip with
  | nil => simp [piecesFrom] at h
  | cons c cs ih =>
    cases skip with
    | succ skip => exact ih (by simpa [piecesFrom] using h)
    | zero =>
      rw [piecesFrom] at h
      split at h
      · rename_i b hb
        rcases List.mem_cons.1 h with h | h
        · cases h
          exact ⟨c :: cs, hb⟩
        · exact ih h
      · exact ih (by simpa using h)

theorem exists_first?_of_mem_items {s : Text} {a : α} (h : a ∈ p.items s) :
    ∃ t, p.first? t = some a := by
  obtain ⟨piece, hpiece, ha⟩ := List.mem_filterMap.1 h
  cases piece with
  | gap c => simp [Piece.item?] at ha
  | item b =>
    cases ha
    exact p.exists_first?_of_mem_piecesFrom hpiece

theorem items_eq_nil {s : Text} (h : ∀ t, t <:+ s → p.first? t = none) : p.items s = [] := by
  induction s with
  | nil => simp [items]
  | cons c cs ih =>
    have hc := p.pieces_cons_of_first?_eq_none (h (c :: cs) (List.suffix_refl _))
    have hcs := ih fun t ht => h t (ht.trans (List.suffix_cons c cs))
    simpa [items, hc, Piece.item?] using hcs

end Pattern

/-- Gaps between which marks and inert texts can stand without any other bracket pair opening. -/
structure Spaced (gaps : List Text) : Prop where
  plain : ∀ g ∈ gaps, Plain g
  open_end : ∀ g ∈ gaps.dropLast, g.getLast? ≠ some '['

theorem Spaced.tail {g h : Text} {gaps : List Text} (hs : Spaced (g :: h :: gaps)) :
    Spaced (h :: gaps) :=
  ⟨fun x hx => hs.plain x (by simp [hx]), fun x hx => hs.open_end x (by simp [hx])⟩

theorem Spaced.inert {g h : Text} {gaps : List Text} (hs : Spaced (g :: h :: gaps)) : Inert g :=
  ⟨hs.plain g (by simp), hs.open_end g (by simp)⟩

theorem Mark.replaceAll_plain {w s : Text} (hw : Mark w) (hs : Plain s) (new : Text) :
    replaceAll w new s = s :=
  replaceAll_of_not_infix fun h => hs (hw.opens.isInfix.trans h)

theorem exists_two_gaps {gaps texts : List Text} {x : Text}
    (hl : gaps.length = (x :: texts).length + 1) : ∃ g h rest, gaps = g :: h :: rest := by
  match gaps, hl with
  | g :: h :: rest, _ => exact ⟨g, h, rest, rfl⟩

theorem Mark.replaceAll_weave {w : Text} (hw : Mark w) (new : Text) {gaps texts : List Text}
    (hg : Spaced gaps) (hl : gaps.length = texts.length + 1)
    (ht : ∀ x ∈ texts, Mark x ∨ Inert x) :
    replaceAll w new (weave gaps texts) =
      weave gaps (texts.map fun x => if x = w then new else x) := by
  induction texts generalizing gaps with
  | nil =>
    obtain ⟨g, rfl⟩ := List.length_eq_one_iff.1 hl
    simpa [weave] using hw.replaceAll_plain (hg.plain g (by simp)) new
  | cons x texts ih =>
    obtain ⟨g, h, gaps, rfl⟩ := exists_two_gaps hl
    have hrest := ih hg.tail (by simpa using hl) fun y hy => ht y (by simp [hy])
    simp only [weave, List.map_cons, List.append_assoc]
    -- no occurrence of `w` starts in the gap, not even one that would end behind it
    rw [hw.skips_inert hg.inert]
    congr 1
    by_cases hx : x = w
    · subst hx
      rw [replaceAll_append_self hw.ne_nil, hrest]
      simp
    · have hskip : Skips w x := by
        rcases ht x (by simp) with hm | hi
        · exact hw.skips_of_ne hm hx
        · exact hw.skips_inert hi
      rw [hskip, hrest]
      simp [hx]

theorem plain_append {x s : Text} (hx : Inert x) (hs : Plain s) : Plain (x ++ s) := by
  induction x with
  | nil => exact hs
  | cons c x ih =>
    intro h
    rcases List.infix_cons_iff.1 h with h | h
    · exact hx.not_prefix h
    · exact ih hx.tail h

theorem plain_weave {gaps texts : List Text} (hg : Spaced gaps)
    (hl : gaps.length = texts.length + 1) (ht : ∀ x ∈ texts, Inert x) :
    Plain (weave gaps texts) := by
  induction texts generalizing gaps with
  | nil =>
    obtain ⟨g, rfl⟩ := List.length_eq_one_iff.1 hl
    simpa [weave] using hg.plain g (by simp)
  | cons x texts ih =>
    obtain ⟨g, h, gaps, rfl⟩ := exists_two_gaps hl
    have hrest := ih hg.tail (by simpa using hl) fun y hy => ht y (by simp [hy])
    rw [weave, List.append_assoc]
    exact plain_append hg.inert (plain_append (ht x (by simp)) hrest)

end Text

namespace Replacements

def replacementFor (r : Replacements) (word : Text) : Text := (r.pairs.lookup word).getD word

theorem replacementFor_cons (w new x : Text) (pairs : List (Text × Text)) :
    replacementFor ⟨(w, new) :: pairs⟩ x =
      if x = w then new else replacementFor ⟨pairs⟩ x := by
  by_cases hx : x = w
  · simp [replacementFor, hx]
  · simp [replacementFor, hx, List.lookup_cons, beq_eq_false_iff_ne.2 hx]

theorem replacementFor_inert {r : Replacements} (hr : ∀ q ∈ r.pairs, Text.Mark q.1) {x : Text}
    (hx : Text.Inert x) : r.replacementFor x = x := by
  have hnone : r.pairs.lookup x = none := by
    rw [List.lookup_eq_none_iff]
    intro q hq
    have hne : x ≠ q.1 := fun h => (hr q hq).not_plain (h ▸ hx.plain)
    simpa using hne
  simp [replacementFor, hnone]

/-- Marks between gaps are replaced one by one, each by the first replacement queued for it. -/
theorem apply_weave {r : Replacements} (hr : ∀ q ∈ r.pairs, Text.Mark q.1 ∧ Text.Inert q.2)
    {gaps texts : List Text} (hg : Text.Spaced gaps) (hl : gaps.length = texts.length + 1)
    (ht : ∀ x ∈ texts, Text.Mark x ∨ Text.Inert x) :
    r.apply (Text.weave gaps texts) = Text.weave gaps (texts.map r.replacementFor) := by
  obtain ⟨pairs⟩ := r
  induction pairs generalizing texts with
  | nil =>
    have hid : replacementFor ⟨[]⟩ = id := by
      funext x
      simp [replacementFor]
    simp [apply, hid]
  | cons q pairs ih =>
    obtain ⟨w, new⟩ := q
    have hw : Text.Mark w ∧ Text.Inert new := hr (w, new) (by simp)
    have hpairs : ∀ q ∈ pairs, Text.Mark q.1 ∧ Text.Inert q.2 := fun q hq => hr q (by simp [hq])
    -- the rest of the queue meets marks, and inert texts that earlier pairs have put in
    have hnext : ∀ x ∈ texts.map (fun x => if x = w then new else x),
        Text.Mark x ∨ Text.Inert x := by
      intro x hx
      obtain ⟨y, hy, rfl⟩ := List.mem_map.1 hx
      by_cases hyw : y = w
      · simp [hyw, hw.2]
      · simpa [hyw] using ht y hy
    have hrest := ih (by simpa using hl) hnext hpairs
    have hfirst : apply ⟨(w, new) :: pairs⟩ (Text.weave gaps texts) =
        apply ⟨pairs⟩ (Text.replaceAll w new (Text.weave gaps texts)) := rfl
    rw [hfirst, hw.1.replaceAll_weave new hg hl ht, hrest, List.map_map]
    congr 1
    refine List.map_congr_left fun x _ => ?_
    rw [Function.comp_apply, replacementFor_cons]
    by_cases hx : x = w
    · rw [if_pos hx, if_pos hx, replacementFor_inert (fun q hq => (hpairs q hq).1) hw.2]
    · rw [if_neg hx, if_neg hx]

section Items

variable {α : Type} (p : Text.Pattern α) (value : α → Text)

def ofItems (items : List α) : Replacements := ⟨items.map fun a => (p.raw a, value a)⟩

theorem replacementFor_ofItems {items : List α} {a : α} (ha : a ∈ items)
    (hsame : ∀ b ∈ items, p.raw b = p.raw a → value b = value a) :
    (ofItems p value items).replacementFor (p.raw a) = value a := by
  cases h : (ofItems p value items).pairs.lookup (p.raw a) with
  | none =>
    have hmem : (p.raw a, value a) ∈ (ofItems p value items).pairs :=
      List.mem_map.2 ⟨a, ha, rfl⟩
    have hne := List.lookup_eq_none_iff.1 h _ hmem
    simp at hne
  | some new =>
    obtain ⟨front, back, hpairs, -⟩ := List.lookup_eq_some_iff.1 h
    have hmem : (p.raw a, new) ∈ (ofItems p value items).pairs := by simp [hpairs]
    obtain ⟨b, hb, hbnew⟩ := List.mem_map.1 hmem
    obtain ⟨hraw, hvalue⟩ := Prod.ext_iff.1 hbnew
    have hnew : value a = new := (hsame b hb hraw).symm.trans hvalue
    simp [replacementFor, h, hnew]

/-- Where items are marks and those that are written alike have one value, every item gives way to
its value in its own place. -/
theorem apply_ofItems {s : Text} (hmark : ∀ a ∈ p.items s, Text.Mark (p.raw a))
    (hvalue : ∀ a ∈ p.items s, Text.Inert (value a))
    (hsame : ∀ a ∈ p.items s, ∀ b ∈ p.items s, p.raw b = p.raw a → value b = value a)
    (hg : Text.Spaced (p.gaps s)) :
    (ofItems p value (p.items s)).apply s = Text.weave (p.gaps s) ((p.items s).map value) := by
  have hpairs : ∀ q ∈ (ofItems p value (p.items s)).pairs, Text.Mark q.1 ∧ Text.Inert q.2 := by
    intro q hq
    obtain ⟨a, ha, rfl⟩ := List.mem_map.1 hq
    exact ⟨hmark a ha, hvalue a ha⟩
  have hl : (p.gaps s).length = ((p.items s).map p.raw).length + 1 := by
    rw [List.length_map]
    exact p.length_gaps s
  have hmarks : ∀ x ∈ (p.items s).map p.raw, Text.Mark x ∨ Text.Inert x := by
    intro x hx
    obtain ⟨a, ha, rfl⟩ := List.mem_map.1 hx
    exact .inl (hmark a ha)
  have hwoven := apply_weave hpairs hg hl hmarks
  rw [p.weave_gaps, List.map_map] at hwoven
  rw [hwoven]
  congr 1
  exact List.map_congr_left fun a ha => replacementFor_ofItems p value ha (hsame a ha)

end Items

end Replacements
end ContentWeave
