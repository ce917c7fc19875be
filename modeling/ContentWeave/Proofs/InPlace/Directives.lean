import ContentWeave.InPlace.Directive
import ContentWeave.Proofs.Directive.Opening
import ContentWeave.Proofs.InPlace.Scans

/-!
# Directives in place

Every cut that the scan for directives makes can be made, in front of a directive and inside it, and
what is cut out is what the scan of characters finds.
-/

namespace ContentWeave.Directive

open Text (At TellsByBytes ok_bind byteLength find? findWord? placed Advances Scans)

variable {raw text rest : Text} {place : ℕ}

theorem keyRun?_eq (h : At raw place rest) : keyRun? raw place = .ok (keyAt? rest) := by
  rw [keyRun?, h.sliceFrom, ok_bind]
  dsimp only
  rw [Text.getD_find?_not, Text.slice_run, Text.sliceFrom_run, keyAt?]
  generalize rest.takeWhile isKeyChar = key
  cases key with
  | nil => rfl
  | cons c cs =>
    rw [if_neg (Text.byteLength_pos (List.cons_ne_nil c cs)).ne']
    cases rest.dropWhile isKeyChar with
    | nil => rfl
    | cons d ds =>
      rw [ok_bind]
      dsimp only
      split_ifs <;> rfl

theorem tokenAndKeyHere?_eq {c : Char} (h : At raw place (c :: rest)) :
    tokenAndKeyHere? raw place c = .ok
      (match (if Text.isWordChar c || c == '[' then none else keyAt? rest), keyAt? (c :: rest) with
        | some key, _ => some (some c, key)
        | none, some key => some (none, key)
        | none, none => none) := by
  rw [tokenAndKeyHere?, keyRun?_eq h, keyRun?_eq h.tail]
  generalize (Text.isWordChar c || c == '[') = word
  generalize keyAt? (c :: rest) = key
  generalize keyAt? rest = next
  rcases word with _ | _ <;> rcases next with _ | _ <;> rcases key with _ | _ <;> rfl

theorem tokenAndKeyFrom?_eq (h : At raw place rest) :
    tokenAndKeyFrom? raw (placed place rest) = .ok (tokenAndKey? rest) := by
  induction rest generalizing place with
  | nil => rfl
  | cons c cs ih =>
    rw [placed, tokenAndKeyFrom?, tokenAndKeyHere?_eq h, ih h.tail, ok_bind, tokenAndKey?_cons]
    generalize (if Text.isWordChar c || c == '[' then none else keyAt? cs) = next
    generalize keyAt? (c :: cs) = key
    rcases next with _ | _ <;> rcases key with _ | _ <;> rfl

theorem parseInPlace_eq (raw : Text) : parseInPlace raw = .ok (parse raw) := by
  rw [parseInPlace, tokenAndKeyFrom?_eq (.zero raw), ok_bind, parse]
  generalize tokenAndKey? raw = found
  rcases found with _ | ⟨token, key⟩ <;> rfl

theorem tells_isBracket : TellsByBytes isBracketByte isBracket :=
  (TellsByBytes.single (by decide : '['.toNat < 128)).or
    (TellsByBytes.single (by decide : ']'.toNat < 128))

theorem isPrefixOf_closing (s : Text) :
    [0x5d, 0x5d].isPrefixOf s.toUtf8 = Text.startsWith [']', ']'] s := by
  have hascii : ∀ c ∈ [']', ']'], c.toNat < 128 := by
    intro c hc
    obtain rfl : c = ']' := by simpa using hc
    decide
  exact Text.isPrefixOf_toUtf8 hascii s

theorem byteLength_enclose (body : Text) : byteLength (enclose body) = 2 + byteLength body + 2 := by
  rw [enclose, Text.byteLength_append, Text.byteLength_append]
  rfl

theorem stopAt?_eq (h : At text place ('[' :: '[' :: rest)) :
    stopAt? text place =
      .ok ((bodyAt? ('[' :: '[' :: rest)).map fun body => place + byteLength (enclose body)) := by
  have hbody : At text (place + 2) rest := h.tail.tail
  have hcut : At text (place + 2 + byteLength (rest.takeWhile (!isBracket ·)))
      (rest.dropWhile (!isBracket ·)) := (hbody.cut _).skip
  have hend : (find? isBracket rest).elim (byteLength text) (place + 2 + ·) =
      place + 2 + byteLength (rest.takeWhile (!isBracket ·)) := by
    rw [← Text.getD_find?, ← hbody.add_byteLength]
    cases find? isBracket rest <;> rfl
  rw [stopAt?, hbody.bytesFrom, ok_bind, tells_isBracket.findIdx?]
  dsimp only
  rw [hend, hcut.bytesFrom, ok_bind, isPrefixOf_closing, bodyAt?]
  generalize rest.takeWhile (!isBracket ·) = body
  generalize rest.dropWhile (!isBracket ·) = behind
  by_cases hne : body = []
  · subst hne
    rw [Text.byteLength_nil, if_neg (by simp)]
    rfl
  have hpos := Text.byteLength_pos hne
  have hlength := byteLength_enclose body
  by_cases hclose : Text.startsWith [']', ']'] behind = true
  · obtain ⟨more, hmore⟩ := Option.isSome_iff_exists.1 hclose
    obtain rfl := Text.stripStart_eq_some_iff.1 hmore
    obtain ⟨c, cs, rfl⟩ := List.exists_cons_of_ne_nil hne
    rw [hclose, Bool.and_true, if_pos (decide_eq_true (by omega))]
    have hstop : place + 2 + byteLength (c :: cs) + 2 = place + byteLength (enclose (c :: cs)) := by
      omega
    rw [hstop]
    rfl
  · rw [if_neg (by simp [hclose])]
    split
    · exact absurd rfl hne
    · exact absurd rfl hclose
    · rfl

theorem brackets_of_first? (s : Text) (d : Directive) (hd : pattern.first? s = some d) :
    ['[', '['] <+: s := by
  obtain ⟨body, -, -, ⟨more, rfl⟩, -⟩ := first?_eq_some_iff.1 hd
  exact ⟨body ++ [']', ']'] ++ more, by simp [enclose]⟩

theorem step_scans (text : Text) : Scans (step text) scan text := by
  intro place rest h
  rw [step, h.sliceFrom, ok_bind]
  rcases Text.Pattern.items_findWord? brackets_of_first? rest with
    ⟨offset, behind, hfound, hbehind, hitems⟩ | ⟨hfound, hitems⟩
  · have hstart : At text (place + offset) ('[' :: '[' :: behind) := h.trans hbehind
    rw [hfound]
    dsimp only
    rw [stopAt?_eq hstart, ok_bind]
    cases hbody : bodyAt? ('[' :: '[' :: behind) with
    | none =>
      refine ⟨_, rfl, Text.Pattern.advances_gap (Nat.le_add_right _ _) hstart hitems ?_⟩
      simp [pattern, hbody]
    | some body =>
      obtain ⟨more, hmore⟩ := enclose_prefix_of_bodyAt? hbody
      have hcut := At.slice (hmore ▸ hstart)
      have hfirst : pattern.first? ('[' :: '[' :: behind) = some (parse (enclose body)) := by
        simp [pattern, hbody]
      have hitem := Text.Pattern.advances_item (Nat.le_add_right _ _) hstart hitems hfirst
      rw [Option.map_some]
      dsimp only
      rw [hcut, ok_bind, parseInPlace_eq, ok_bind]
      refine ⟨_, rfl, ?_⟩
      have hraw : pattern.raw (parse (enclose body)) = enclose body := parse_raw _
      rwa [hraw] at hitem
  · rw [hfound]
    exact ⟨none, rfl, .stop hitems⟩

end ContentWeave.Directive
