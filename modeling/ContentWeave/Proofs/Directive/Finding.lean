import ContentWeave.Proofs.Directive.Bodies
import ContentWeave.Proofs.Text.Places

/-!
# Every directive is found

Behind the first bracket of a directive no other directive begins: its body holds no bracket, and
its end has no opening one. So directives never overlap, and scanning, which passes over one
character where none begins and over a whole one where it begins, misses none.
-/

namespace ContentWeave.Directive

open Text (BracketFree inert_behind_open)

theorem bodyAt?_drop_eq_none {s body : Text} (hfree : BracketFree body)
    (h : enclose body <+: s) {k : ℕ} (hpos : 0 < k) (hk : k < (enclose body).length) :
    bodyAt? (s.drop k) = none := by
  obtain ⟨rest, rfl⟩ := h
  obtain ⟨j, rfl⟩ : ∃ j, k = j + 1 := ⟨k - 1, by omega⟩
  have hj : j < ('[' :: (body ++ [']', ']'])).length := by
    simp only [enclose, List.length_append, List.length_cons, List.length_nil] at hk ⊢
    omega
  have hbehind : (enclose body ++ rest).drop (j + 1) =
      ('[' :: (body ++ [']', ']'])).drop j ++ rest := by
    rw [← List.drop_append_of_le_length hj.le]
    simp [enclose]
  have hinert := (inert_behind_open hfree).of_suffix (List.drop_suffix j _)
  rw [List.drop_eq_getElem_cons hj] at hbehind hinert
  rw [hbehind]
  unfold bodyAt?
  split
  · rename_i t ht
    have hopen : ['[', '['] <+: '[' :: '[' :: t := List.prefix_append ['[', '['] t
    exact absurd (ht ▸ hopen) hinert.not_prefix
  · rfl

theorem mem_places_iff {s : Text} {i : ℕ} {d : Directive} :
    (i, d) ∈ pattern.places s ↔ pattern.first? (s.drop i) = some d := by
  constructor
  · exact pattern.first?_drop_of_mem_places
  · intro h
    rcases pattern.mem_places_or_covered h with hmem | ⟨j, e, he, hlt, hcover⟩
    · exact hmem
    · exfalso
      obtain ⟨body, -, hfree, hprefix, rfl⟩ :=
        first?_eq_some_iff.1 (pattern.first?_drop_of_mem_places he)
      obtain ⟨k, rfl⟩ := Nat.exists_eq_add_of_lt hlt
      have hlength : pattern.raw (parse (enclose body)) = enclose body := parse_raw _
      rw [hlength] at hcover
      have hnone := bodyAt?_drop_eq_none hfree hprefix (k := k + 1) (by omega) (by omega)
      rw [List.drop_drop, ← Nat.add_assoc] at hnone
      have hfirst : pattern.first? (s.drop (j + k + 1)) = none := by
        simp [pattern, hnone]
      rw [hfirst] at h
      cases h

/-- The directives that scanning finds stand one behind the other, and they are exactly the places
where double brackets enclose a body that is not empty and holds no bracket. Wherever the text of
one of them stands, there it is found. -/
theorem scan_finds_enclosed (s : Text) :
    (pattern.places s).map Prod.snd = scan s ∧
      (pattern.places s).Pairwise (fun x y => x.1 + x.2.raw.length ≤ y.1) ∧
      (∀ i d, (i, d) ∈ pattern.places s ↔
        ∃ body, body ≠ [] ∧ BracketFree body ∧ enclose body <+: s.drop i ∧
          d = parse (enclose body)) ∧
      ∀ d ∈ scan s, ∀ i, d.raw <+: s.drop i → (i, d) ∈ pattern.places s := by
  refine ⟨pattern.map_snd_places s, pattern.pairwise_places s, fun i d => ?_, ?_⟩
  · rw [mem_places_iff, first?_eq_some_iff]
  · intro d hd i hi
    obtain ⟨j, hj⟩ := pattern.mem_items_iff_places.1 hd
    obtain ⟨body, hne, hfree, -, rfl⟩ := first?_eq_some_iff.1 (mem_places_iff.1 hj)
    rw [parse_raw] at hi
    exact mem_places_iff.2 (first?_eq_some_iff.2 ⟨body, hne, hfree, hi, rfl⟩)

theorem scan_finds_enclosed_runs :
    let s := "[[[a]]]][[[[ b]][[]][[a]]".toList
    (pattern.places s).map (fun x => (x.1, x.2.raw)) =
        [(1, "[[a]]".toList), (10, "[[ b]]".toList), (20, "[[a]]".toList)] ∧
      parse "[[a]]".toList ∈ scan s ∧ "[[a]]".toList <+: s.drop 20 ∧
      (20, parse "[[a]]".toList) ∈ pattern.places s := by
  have hmem : parse "[[a]]".toList ∈ scan "[[[a]]]][[[[ b]][[]][[a]]".toList := by decide +kernel
  have hprefix : (parse "[[a]]".toList).raw <+: "[[[a]]]][[[[ b]][[]][[a]]".toList.drop 20 := by
    decide +kernel
  refine ⟨by decide +kernel, hmem, by decide +kernel, ?_⟩
  exact (scan_finds_enclosed _).2.2.2 _ hmem 20 hprefix

end ContentWeave.Directive
