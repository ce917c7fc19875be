import ContentWeave.InPlace.Placeholder
import ContentWeave.Proofs.InPlace.Scans
import ContentWeave.Proofs.Placeholder.Bodies

/-!
# Placeholders in place

Every cut that the scan for placeholders makes can be made, in front of a placeholder and inside it, and
what is cut out is what the scan of characters finds.
-/

namespace ContentWeave.Placeholder

open Text (At ok_bind slice byteLength find? findWord? Advances Scans)

variable {template rest : Text} {place : ℕ}

theorem partsOf?_eq (token : Char) (body : Text) :
    ∃ parts, partsOf? body = .ok parts ∧ ofBody? token body = parts.map fun (name, format, parameters) =>
      ⟨enclose token body, token, name, format, parameters⟩ := by
  rw [partsOf?, ofBody?]
  dsimp only
  rw [Text.getD_find?_not, Text.slice_run, Text.sliceFrom_run]
  generalize body.takeWhile isNameChar = name
  generalize body.dropWhile isNameChar = behind
  cases name with
  | nil => exact ⟨none, rfl, rfl⟩
  | cons c cs =>
    rw [if_neg (Text.byteLength_pos (List.cons_ne_nil c cs)).ne']
    exact ⟨_, rfl, rfl⟩

theorem tokenAndBody?_cons (token : Char) (s : Text) :
    tokenAndBody? ('[' :: '[' :: token :: s) =
      if isToken token = true ∧ Text.startsWith [']', ']'] (s.dropWhile (· != ']')) = true then
        some (token, s.takeWhile (· != ']'))
      else none := by
  rw [tokenAndBody?]
  generalize s.dropWhile (· != ']') = behind
  split
  · rename_i more
    have hclose : Text.startsWith [']', ']'] (']' :: ']' :: more) = true := rfl
    simp [hclose]
  · rename_i hopen
    refine (if_neg ?_).symm
    rintro ⟨-, hclose⟩
    obtain ⟨more, hmore⟩ := Option.isSome_iff_exists.1 hclose
    exact hopen more (Text.stripStart_eq_some_iff.1 hmore)

theorem byteLength_enclose (token : Char) (body : Text) :
    byteLength (enclose token body) = 2 + token.utf8Size + byteLength body + 2 := by
  rw [enclose, Text.byteLength_append, Text.byteLength_append, Text.byteLength_cons,
    Text.byteLength_cons, Text.byteLength_cons, Text.byteLength_nil, Nat.add_zero, ← Nat.add_assoc]
  rfl

variable {token : Char} {body more s : Text}

theorem slice_enclose (h : At template place (enclose token body ++ more)) :
    slice template place (place + 2 + token.utf8Size + byteLength body + 2) =
      .ok (enclose token body) := by
  have hcut := h.slice
  rwa [byteLength_enclose, ← Nat.add_assoc, ← Nat.add_assoc, ← Nat.add_assoc] at hcut

theorem matchAt?_of_closed (ht : isToken token = true)
    (hrun : Text.Leads (· != ']') body (']' :: ']' :: more))
    (h : At template place (enclose token body ++ more)) :
    matchAt? template place = .ok (ofBody? token body) := by
  have hhere : At template place ('[' :: '[' :: token :: (body ++ ']' :: ']' :: more)) := by
    simpa [enclose] using h
  have htoken : At template (place + 2) (token :: (body ++ ']' :: ']' :: more)) := hhere.tail.tail
  have hbody : At template (place + 2 + token.utf8Size) (body ++ ']' :: ']' :: more) := htoken.tail
  have hfound : find? (· == ']') (body ++ ']' :: ']' :: more) = some (byteLength body) :=
    Text.find?_of_leads hrun
  have hclose : Text.startsWith [']', ']'] (']' :: ']' :: more) = true := rfl
  obtain ⟨parts, hparts, hbodyOf⟩ := partsOf?_eq token body
  rw [matchAt?]
  dsimp only
  rw [htoken.sliceFrom, ok_bind]
  dsimp only
  rw [if_neg (by simp [ht]), hbody.sliceFrom, ok_bind, hfound]
  dsimp only
  rw [hbody.skip.sliceFrom, ok_bind, hclose, if_neg (by decide), hbody.slice, ok_bind, hparts,
    ok_bind, hbodyOf]
  cases parts with
  | none => rfl
  | some parts =>
    dsimp only
    rw [slice_enclose h]
    rfl

theorem matchAt?_of_open (h : At template place ('[' :: '[' :: token :: s))
    (hopen : isToken token = true →
      Text.startsWith [']', ']'] (s.dropWhile (· != ']')) = false) :
    matchAt? template place = .ok none := by
  have htoken : At template (place + 2) (token :: s) := h.tail.tail
  have hbehind := (htoken.tail.cut (· != ']')).skip
  have hfound : find? (· == ']') s = if s.dropWhile (· != ']') = [] then none
      else some (byteLength (s.takeWhile (· != ']'))) := Text.find?_eq (· == ']') s
  rw [matchAt?]
  dsimp only
  rw [htoken.sliceFrom, ok_bind]
  dsimp only
  by_cases ht : isToken token = true
  · rw [if_neg (by simp [ht]), htoken.tail.sliceFrom, ok_bind, hfound]
    split_ifs with hnil
    · rfl
    · dsimp only
      rw [hbehind.sliceFrom, ok_bind, if_pos (by simpa using hopen ht)]
      rfl
  · rw [if_pos (by simpa using ht)]
    rfl

theorem matchAt?_eq (h : At template place ('[' :: '[' :: rest)) :
    matchAt? template place = .ok (pattern.first? ('[' :: '[' :: rest)) := by
  cases rest with
  | nil =>
    have hend : At template (place + 2) [] := h.tail.tail
    rw [matchAt?]
    dsimp only
    rw [hend.sliceFrom]
    rfl
  | cons token s =>
    have hfirst : pattern.first? ('[' :: '[' :: token :: s) =
        (tokenAndBody? ('[' :: '[' :: token :: s)).bind fun found => ofBody? found.1 found.2 := rfl
    rw [hfirst, tokenAndBody?_cons]
    split_ifs with hclosed
    · have hrun := Text.leads_cut (· != ']') s
      have hsame := List.takeWhile_append_dropWhile (p := (· != ']')) (l := s)
      obtain ⟨ht, hclose⟩ := hclosed
      obtain ⟨more, hmore⟩ := Option.isSome_iff_exists.1 hclose
      rw [Text.stripStart_eq_some_iff.1 hmore] at hrun hsame
      rw [← hsame] at h
      exact matchAt?_of_closed ht hrun (by simpa [enclose] using h)
    · exact matchAt?_of_open h fun ht => Bool.eq_false_iff.2 fun hclose => hclosed ⟨ht, hclose⟩

theorem brackets_of_first? (s : Text) (p : Placeholder) (hp : pattern.first? s = some p) :
    ['[', '['] <+: s := by
  obtain ⟨body, -, ⟨more, rfl⟩, -⟩ := first?_eq_some_iff.1 hp
  exact ⟨p.token :: (body ++ [']', ']'] ++ more), by simp [enclose]⟩

theorem step_scans (template : Text) : Scans (step template) scan template := by
  intro place rest h
  rw [step, h.sliceFrom, ok_bind]
  rcases Text.Pattern.items_findWord? brackets_of_first? rest with
    ⟨offset, behind, hfound, hbehind, hitems⟩ | ⟨hfound, hitems⟩
  · have hstart : At template (place + offset) ('[' :: '[' :: behind) := h.trans hbehind
    rw [hfound]
    dsimp only
    rw [matchAt?_eq hstart, ok_bind]
    cases hfirst : pattern.first? ('[' :: '[' :: behind) with
    | none =>
      exact ⟨_, rfl, Text.Pattern.advances_gap (Nat.le_add_right _ _) hstart hitems hfirst⟩
    | some p =>
      exact ⟨_, rfl, Text.Pattern.advances_item (Nat.le_add_right _ _) hstart hitems hfirst⟩
  · rw [hfound]
    exact ⟨none, rfl, .stop hitems⟩

end ContentWeave.Placeholder
