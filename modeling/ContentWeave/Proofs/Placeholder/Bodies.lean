import ContentWeave.Placeholder
import ContentWeave.Proofs.Text.Brackets
import ContentWeave.Proofs.Text.Runs
import ContentWeave.Proofs.Text.Weaving

/-!
# What a placeholder encloses

A placeholder is found exactly where double brackets enclose a token and a body that holds no closing
bracket and begins with a name. What it says is read off its body alone, so a placeholder is known by
how it is written.
-/

namespace ContentWeave.Placeholder

open Text (BracketFree Mark isBlank)

/-- A token and a body write a placeholder between double brackets: no closing bracket is in the body,
and a name can begin where it begins. -/
structure Writes (token : Char) (body : Text) : Prop where
  token : token = '+' ∨ token = '*' ∨ token = '%'
  close_notMem : ']' ∉ body
  begins : ∃ c rest, body = c :: rest ∧ isBlank c = false ∧ c ≠ ':'

theorem isToken_iff {c : Char} : isToken c = true ↔ c = '+' ∨ c = '*' ∨ c = '%' := by
  simp [isToken, or_assoc]

theorem isNameChar_iff {c : Char} : isNameChar c = true ↔ isBlank c = false ∧ c ≠ ':' := by
  simp [isNameChar]

theorem enclose_injective {token token' : Char} {body body' : Text}
    (h : enclose token body = enclose token' body') : token = token' ∧ body = body' := by
  simpa [enclose] using h

theorem of_tokenAndBody? {t body : Text} {token : Char}
    (h : tokenAndBody? t = some (token, body)) : isToken token = true ∧ ']' ∉ body := by
  unfold tokenAndBody? at h
  split at h
  · split at h
    · split_ifs at h with htoken
      cases h
      refine ⟨htoken, fun hmem => ?_⟩
      have hne := List.mem_takeWhile_imp hmem
      simp at hne
    · cases h
  · cases h

theorem tokenAndBody?_enclose {token : Char} {body : Text} (htoken : isToken token = true)
    (hbody : ']' ∉ body) (rest : Text) :
    tokenAndBody? (enclose token body ++ rest) = some (token, body) := by
  have hrun : Text.Leads (· != ']') body (']' :: ']' :: rest) :=
    Text.leads_of_notMem hbody (by simp)
  have hsplit : enclose token body ++ rest = '[' :: '[' :: token :: (body ++ ']' :: ']' :: rest) := by
    simp [enclose]
  rw [hsplit, tokenAndBody?, hrun.dropWhile_append]
  simp [htoken, hrun.takeWhile_append]

theorem tokenAndBody?_eq_some_iff {s body : Text} {token : Char} :
    tokenAndBody? s = some (token, body) ↔
      isToken token = true ∧ ']' ∉ body ∧ enclose token body <+: s := by
  constructor
  · intro h
    obtain ⟨htoken, hbody⟩ := of_tokenAndBody? h
    exact ⟨htoken, hbody, enclose_prefix_of_tokenAndBody? h⟩
  · rintro ⟨htoken, hbody, rest, rfl⟩
    exact tokenAndBody?_enclose htoken hbody rest

theorem raw_of_ofBody? {token : Char} {body : Text} {p : Placeholder}
    (h : ofBody? token body = some p) : p.raw = enclose token body ∧ p.token = token := by
  unfold ofBody? at h
  split at h
  · cases h
  · cases h
    exact ⟨rfl, rfl⟩

theorem exists_ofBody?_iff {token : Char} {body : Text} :
    (∃ p, ofBody? token body = some p) ↔
      ∃ c rest, body = c :: rest ∧ isBlank c = false ∧ c ≠ ':' := by
  unfold ofBody?
  cases body with
  | nil => simp
  | cons c rest =>
    by_cases hc : isNameChar c = true
    · simpa [hc] using isNameChar_iff.1 hc
    · have hnot : ¬ (isBlank c = false ∧ c ≠ ':') := mt isNameChar_iff.2 hc
      simpa [hc] using hnot

theorem first?_eq_some_iff {s : Text} {p : Placeholder} :
    pattern.first? s = some p ↔ ∃ body, Writes p.token body ∧ enclose p.token body <+: s ∧
      ofBody? p.token body = some p := by
  constructor
  · intro h
    obtain ⟨⟨token, body⟩, hfound, hp⟩ := Option.bind_eq_some_iff.1 h
    obtain ⟨htoken, hbody, hstart⟩ := tokenAndBody?_eq_some_iff.1 hfound
    obtain ⟨-, rfl⟩ := raw_of_ofBody? hp
    exact ⟨body, ⟨isToken_iff.1 htoken, hbody, exists_ofBody?_iff.1 ⟨p, hp⟩⟩, hstart, hp⟩
  · rintro ⟨body, hwrites, hstart, hp⟩
    have hfound := tokenAndBody?_eq_some_iff.2
      ⟨isToken_iff.2 hwrites.token, hwrites.close_notMem, hstart⟩
    exact Option.bind_eq_some_iff.2 ⟨(p.token, body), hfound, hp⟩

theorem Writes.exists_first? {token : Char} {body s : Text} (h : Writes token body)
    (hstart : enclose token body <+: s) :
    ∃ p, pattern.first? s = some p ∧ p.raw = enclose token body := by
  obtain ⟨p, hp⟩ : ∃ p, ofBody? token body = some p := exists_ofBody?_iff.2 h.begins
  obtain ⟨hraw, rfl⟩ := raw_of_ofBody? hp
  exact ⟨p, first?_eq_some_iff.2 ⟨body, h, hstart, hp⟩, hraw⟩

theorem exists_body_of_mem_scan {template : Text} {p : Placeholder} (h : p ∈ scan template) :
    ∃ t token body, tokenAndBody? t = some (token, body) ∧ ofBody? token body = some p := by
  obtain ⟨t, ht⟩ := pattern.exists_first?_of_mem_items h
  obtain ⟨⟨token, body⟩, hbody, hp⟩ := Option.bind_eq_some_iff.1 ht
  exact ⟨t, token, body, hbody, hp⟩

theorem eq_of_raw_eq {template : Text} {p q : Placeholder} (hp : p ∈ scan template)
    (hq : q ∈ scan template) (h : p.raw = q.raw) : p = q := by
  obtain ⟨-, token, body, -, hbody⟩ := exists_body_of_mem_scan hp
  obtain ⟨-, token', body', -, hbody'⟩ := exists_body_of_mem_scan hq
  rw [(raw_of_ofBody? hbody).1, (raw_of_ofBody? hbody').1] at h
  obtain ⟨rfl, rfl⟩ := enclose_injective h
  rw [hbody] at hbody'
  exact Option.some.inj hbody'

theorem exists_bracketFree_body {template : Text} {p : Placeholder} (h : p ∈ scan template)
    (hopen : ∀ body, p.raw = enclose p.token body → '[' ∉ body) :
    ∃ body, p.raw = enclose p.token body ∧ ofBody? p.token body = some p ∧
      BracketFree (p.token :: body) := by
  obtain ⟨t, token, body, ht, hbody⟩ := exists_body_of_mem_scan h
  obtain ⟨htoken, hclose⟩ := of_tokenAndBody? ht
  obtain ⟨hraw, rfl⟩ := raw_of_ofBody? hbody
  refine ⟨body, hraw, hbody, BracketFree.cons ?_ fun c hc => ?_⟩
  · constructor <;> rintro hbracket <;> rw [hbracket] at htoken <;> exact absurd htoken (by decide)
  · exact ⟨ne_of_mem_of_not_mem hc (hopen body hraw), ne_of_mem_of_not_mem hc hclose⟩

theorem mark_of_mem_scan {template : Text} {p : Placeholder} (h : p ∈ scan template)
    (hopen : ∀ body, p.raw = enclose p.token body → '[' ∉ body) : Mark p.raw := by
  obtain ⟨body, hraw, -, hfree⟩ := exists_bracketFree_body h hopen
  exact ⟨p.token :: body, hfree, by simp [hraw, enclose]⟩

end ContentWeave.Placeholder
