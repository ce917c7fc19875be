import ContentWeave.Proofs.InPlace.Assignments
import ContentWeave.Proofs.InPlace.Directives
import ContentWeave.Proofs.InPlace.Placeholders
import ContentWeave.Proofs.Number.Cutting

/-!
# No cut fails and every scan ends

The readers of texts work on places. Whatever text they are given, every place where they cut it is one
where it can be cut, and every move of a scan leads further on. So they never fail, they come to an end,
and they read what the readers of characters read.
-/

namespace ContentWeave

open Text (Completes isBoundary slice)

/-- No reader makes a cut that cannot be made, which is one whose start is behind its stop or that is not
between two characters or at an end of the text. Scans for directives, assignments and placeholders move
on with every item and with every start that fails, and make no more moves than the text has bytes. -/
theorem readers_cut_inside_and_advance (s : Text) :
    (∃! moves, Completes (Directive.step s) s (Directive.scan s) moves) ∧
      Directive.parseInPlace s = .ok (Directive.parse s) ∧
      (∃ as, (∃! moves, Completes (Assignment.step s) s as moves) ∧
        ArgumentSet.parse s = as.foldl .assign {}) ∧
      (∃! moves, Completes (Placeholder.step s) s (Placeholder.scan s) moves) ∧
      Value.ofBareInPlace s = .ok (Value.ofBare s) ∧
      ∀ start stop, (∃ t, slice s start stop = .ok t) ↔
        start ≤ stop ∧ isBoundary s start = true ∧ isBoundary s stop = true :=
  ⟨(Directive.step_scans s).completes, Directive.parseInPlace_eq s,
    ⟨Assignment.all s, (Assignment.step_scans s).completes, rfl⟩,
    (Placeholder.step_scans s).completes, Value.ofBareInPlace_eq s,
    fun _ _ => Text.exists_slice_iff⟩

example :
    Directive.step "é[[[$é]]".toList 0 = .ok (some ⟨none, 3⟩) ∧
      Directive.step "é[[[$é]]".toList 3 =
        .ok (some ⟨some ⟨"[[$é]]".toList, some '$', "é".toList⟩, 10⟩) ∧
      Directive.step "é[[[$é]]".toList 10 = .ok none := by
  decide +kernel

end ContentWeave
