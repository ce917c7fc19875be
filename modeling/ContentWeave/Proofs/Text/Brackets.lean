import ContentWeave.Text.Basic
import Mathlib.Data.List.Infix
import Mathlib.Tactic.Common

/-!
# Text without brackets

Directives and placeholders begin and end with brackets, so a text that holds none can neither begin
one nor end one. What is made of such texts holds none either.
-/

namespace ContentWeave.Text

def BracketFree (s : Text) : Prop := ∀ c ∈ s, c ≠ '[' ∧ c ≠ ']'

instance (s : Text) : Decidable (BracketFree s) :=
  List.decidableBAll (fun c => c ≠ '[' ∧ c ≠ ']') s

namespace BracketFree

variable {s t : Text}

theorem nil : BracketFree [] := List.forall_mem_nil _

theorem cons {c : Char} (hc : c ≠ '[' ∧ c ≠ ']') (hs : BracketFree s) : BracketFree (c :: s) :=
  List.forall_mem_cons.2 ⟨hc, hs⟩

theorem append (hs : BracketFree s) (ht : BracketFree t) : BracketFree (s ++ t) :=
  List.forall_mem_append.2 ⟨hs, ht⟩

theorem of_subset (ht : BracketFree t) (h : s ⊆ t) : BracketFree s := fun c hc => ht c (h hc)

theorem of_infix (ht : BracketFree t) (h : s <:+: t) : BracketFree s := ht.of_subset h.subset

theorem flatMap {f : Char → Text} (hs : BracketFree s)
    (hf : ∀ c, c ≠ '[' ∧ c ≠ ']' → BracketFree (f c)) : BracketFree (s.flatMap f) := by
  intro d hd
  obtain ⟨c, hc, hdc⟩ := List.mem_flatMap.1 hd
  exact hf c (hs c hc) d hdc

theorem joinWith {sep : Text} (hsep : BracketFree sep) {pieces : List Text}
    (h : ∀ piece ∈ pieces, BracketFree piece) : BracketFree (joinWith sep pieces) := by
  induction pieces with
  | nil => exact nil
  | cons piece pieces ih =>
    have hpiece := h piece (by simp)
    cases pieces with
    | nil => exact hpiece
    | cons next pieces =>
      exact (hpiece.append hsep).append (ih fun x hx => h x (by simp [hx]))

theorem splitOn (hs : BracketFree s) (sep : Char) :
    ∀ piece ∈ splitOn sep s, BracketFree piece := by
  induction s with
  | nil => exact List.forall_mem_singleton.2 nil
  | cons c s ih =>
    obtain ⟨hc, hrest⟩ := List.forall_mem_cons.1 hs
    have hpieces := ih hrest
    rw [Text.splitOn]
    split_ifs
    · exact List.forall_mem_cons.2 ⟨nil, hpieces⟩
    · split
      · rename_i hnone
        exact absurd hnone (splitOn_ne_nil sep s)
      · rename_i first pieces hsome
        obtain ⟨hfirst, hothers⟩ := List.forall_mem_cons.1 (hsome ▸ hpieces)
        exact List.forall_mem_cons.2 ⟨hfirst.cons hc, hothers⟩

end BracketFree
end ContentWeave.Text
