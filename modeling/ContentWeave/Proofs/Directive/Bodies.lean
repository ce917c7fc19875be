import ContentWeave.Directive
import ContentWeave.Proofs.Text.Brackets
import ContentWeave.Proofs.Text.Runs
import ContentWeave.Proofs.Text.Weaving

/-!
# What a directive encloses

A directive is found exactly where double brackets enclose a body that is not empty and holds no
bracket. What it says is read off its body alone.
-/

namespace ContentWeave.Directive

open Text (BracketFree Mark)

theorem parse_raw (raw : Text) : (parse raw).raw = raw := by
  unfold parse
  split <;> rfl

theorem enclose_injective {body other : Text} (h : enclose body = enclose other) : body = other := by
  simpa [enclose] using h

theorem bracketFree_of_bodyAt? {s body : Text} (h : bodyAt? s = some body) : BracketFree body := by
  have hcalm : ∀ t : Text, BracketFree (t.takeWhile (!isBracket ·)) := by
    intro t c hc
    simpa [isBracket] using (Text.leads_cut _ t).all c hc
  unfold bodyAt? at h
  split at h
  · split at h
    · cases h
    · cases h
      exact hcalm _
    · cases h
  · cases h

theorem ne_nil_of_bodyAt? {s body : Text} (h : bodyAt? s = some body) : body ≠ [] := by
  unfold bodyAt? at h
  split at h
  · split at h
    · cases h
    · rename_i hne
      cases h
      exact hne
    · cases h
  · cases h

theorem bodyAt?_enclose {body : Text} (hne : body ≠ []) (h : BracketFree body) (rest : Text) :
    bodyAt? (enclose body ++ rest) = some body := by
  have hrun : Text.Leads (!isBracket ·) body (']' :: ']' :: rest) :=
    .cons (by simpa [isBracket, BracketFree] using h) (by decide)
  have hsplit : enclose body ++ rest = '[' :: '[' :: (body ++ ']' :: ']' :: rest) := by
    simp [enclose]
  obtain ⟨c, cs, hcs⟩ := List.exists_cons_of_ne_nil hne
  rw [hsplit, bodyAt?, hrun.takeWhile_append, hrun.dropWhile_append, hcs]
  rfl

theorem bodyAt?_eq_some_iff {s body : Text} :
    bodyAt? s = some body ↔ body ≠ [] ∧ BracketFree body ∧ enclose body <+: s := by
  constructor
  · intro h
    exact ⟨ne_nil_of_bodyAt? h, bracketFree_of_bodyAt? h, enclose_prefix_of_bodyAt? h⟩
  · rintro ⟨hne, hfree, rest, rfl⟩
    exact bodyAt?_enclose hne hfree rest

theorem first?_eq_some_iff {s : Text} {d : Directive} :
    pattern.first? s = some d ↔
      ∃ body, body ≠ [] ∧ BracketFree body ∧ enclose body <+: s ∧ d = parse (enclose body) := by
  constructor
  · intro h
    obtain ⟨body, hbody, rfl⟩ := Option.map_eq_some_iff.1 h
    obtain ⟨hne, hfree, hprefix⟩ := bodyAt?_eq_some_iff.1 hbody
    exact ⟨body, hne, hfree, hprefix, rfl⟩
  · rintro ⟨body, hne, hfree, hprefix, rfl⟩
    exact Option.map_eq_some_iff.2 ⟨body, bodyAt?_eq_some_iff.2 ⟨hne, hfree, hprefix⟩, rfl⟩

theorem exists_body_of_mem_scan {s : Text} {d : Directive} (h : d ∈ scan s) :
    ∃ t body, bodyAt? t = some body ∧ d = parse (enclose body) := by
  obtain ⟨t, ht⟩ := pattern.exists_first?_of_mem_items h
  obtain ⟨body, hbody, rfl⟩ := Option.map_eq_some_iff.1 ht
  exact ⟨t, body, hbody, rfl⟩

theorem mark_of_mem_scan {s : Text} {d : Directive} (h : d ∈ scan s) : Mark d.raw := by
  obtain ⟨t, body, hbody, rfl⟩ := exists_body_of_mem_scan h
  exact ⟨body, bracketFree_of_bodyAt? hbody, parse_raw _⟩

theorem parse_of_mem_scan {s : Text} {d : Directive} (h : d ∈ scan s) : parse d.raw = d := by
  obtain ⟨t, body, -, rfl⟩ := exists_body_of_mem_scan h
  rw [parse_raw]

end ContentWeave.Directive
