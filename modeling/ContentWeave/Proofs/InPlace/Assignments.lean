import ContentWeave.InPlace.Assignment
import ContentWeave.Proofs.Call.Grammar
import ContentWeave.Proofs.InPlace.Scans

/-!
# Assignments in place

Every cut that the scan for assignments makes can be made, and what it reads is what the reader of
characters reads. A literal is read in the same way wherever it stands, with what may follow it given
apart.
-/

namespace ContentWeave

open Text (At ok_bind byteLength find? placed Advances Scans)

def Text.placeOf (s rest : Text) : ℕ := byteLength s - byteLength rest

theorem Text.At.placeOf_eq {s rest : Text} {place : ℕ} (h : At s place rest) :
    placeOf s rest = place := by
  have hend := h.add_byteLength
  rw [placeOf]
  omega

namespace Assignment

open Literal (endAt?_eq_some_iff quotedFrom?_step)

variable {raw rest : Text} {place start : ℕ}

theorem endingAt?_eq (h : At raw place rest) :
    endingAt? raw place =
      .ok ((endAt? isEnd rest).map fun (_, behind) => raw.placeOf behind) := by
  rw [endingAt?, h.sliceFrom, ok_bind]
  cases rest with
  | nil => rfl
  | cons c rest =>
    rw [endAt?]
    dsimp only
    split_ifs
    · rw [Option.map_some, h.tail.placeOf_eq]
      rfl
    · rfl

theorem closers_cons (previous : Option Char) (place : ℕ) (c : Char) (places : List (ℕ × Char)) :
    closers previous ((place, c) :: places) =
      (if c == '\'' && previous.any (· != '\\') then [place] else []) ++
        if previous = some '\n' then [] else closers (some c) places := by
  rw [closers]
  split_ifs <;> simp_all

section Literals

variable {α : Type} {follow : Literal → ℕ → Except Text.Misplaced (Option α)}
  {stop : Char → Bool} {outcome : Literal → Char → Text → α}

/-- What follows a literal is what its end and the rest of the text say. -/
def Follows (follow : Literal → ℕ → Except Text.Misplaced (Option α)) (stop : Char → Bool)
    (outcome : Literal → Char → Text → α) (raw : Text) : Prop :=
  ∀ l place rest, At raw place rest →
    follow l place = .ok ((endAt? stop rest).map fun (e, behind) => outcome l e behind)

theorem canClose_reverse (front : Text) :
    canClose front.reverse = front.getLast?.any (· != '\\') := by
  rcases front.eq_nil_or_concat with rfl | ⟨before, last, rfl⟩ <;> simp [canClose]

theorem firstClosed?_eq (hfollow : Follows follow stop outcome raw) {front s : Text}
    (h : At raw (start + 1) (front ++ s)) :
    firstClosed? follow raw start
        (closers front.getLast? (placed (start + 1 + byteLength front) s)) =
      .ok ((quotedFrom? stop front.reverse s).map fun (l, e, behind) => outcome l e behind) := by
  induction s generalizing front with
  | nil => rfl
  | cons c s ih =>
    have hcontent := h.slice
    have hhere := h.skip
    have hnext : At raw (start + 1) (front ++ [c] ++ s) := by simpa using h
    have hplace : start + 1 + byteLength front + c.utf8Size =
        start + 1 + byteLength (front ++ [c]) := by
      rw [Text.byteLength_append, Text.byteLength_cons, Text.byteLength_nil]
      omega
    rw [placed, closers_cons, hplace, ← canClose_reverse]
    rcases quotedFrom?_step stop front s c with ⟨e, more, hs, hcan, he, hread⟩ | ⟨hopen, hread⟩
    · -- the quote here closes the literal
      obtain ⟨rfl, rfl⟩ := List.cons.inj hs
      have hbehind : At raw (start + 1 + byteLength front + 1) (e :: more) := hhere.tail
      have hend : endAt? stop (e :: more) = some (e, more) := endAt?_eq_some_iff.2 ⟨rfl, he⟩
      rw [if_pos (by simp [hcan]), List.singleton_append, firstClosed?, hcontent, ok_bind,
        hfollow _ _ _ hbehind, hend, hread]
      rfl
    · have hpass : ∀ places, firstClosed? follow raw start
          ((if c == '\'' && canClose front.reverse then [start + 1 + byteLength front] else []) ++
            places) = firstClosed? follow raw start places := by
        intro places
        split_ifs with hquote
        · obtain ⟨rfl, hcan⟩ : c = '\'' ∧ canClose front.reverse = true := by simpa using hquote
          have hbehind : At raw (start + 1 + byteLength front + 1) s := hhere.tail
          have hnone : endAt? stop s = none := by
            refine Option.eq_none_iff_forall_ne_some.2 fun ⟨e, more⟩ hend => hopen ?_
            obtain ⟨rfl, he⟩ := endAt?_eq_some_iff.1 hend
            exact ⟨e, more, rfl, hcan, he⟩
          rw [List.singleton_append, firstClosed?, hcontent, ok_bind, hfollow _ _ _ hbehind,
            hnone]
          rfl
        · rfl
      rw [hpass]
      rcases hread with ⟨hline, hread⟩ | ⟨hline, hread⟩
      · rw [if_pos hline, hread]
        rfl
      · rw [if_neg hline, hread, ← ih hnext, List.getLast?_concat]

theorem quotedIn?_eq (hfollow : Follows follow stop outcome raw) (h : At raw start rest) :
    quotedIn? follow raw start =
      .ok ((quotedAt? stop rest).map fun (l, e, behind) => outcome l e behind) := by
  rw [quotedIn?, h.sliceFrom, ok_bind]
  by_cases hquote : ∃ s, rest = '\'' :: s
  · obtain ⟨s, rfl⟩ := hquote
    have hbehind : At raw (start + 1) ([] ++ s) := h.tail
    have hclosed := firstClosed?_eq hfollow hbehind
    dsimp only
    rw [hbehind.sliceFrom, ok_bind]
    exact hclosed
  · have hnone : quotedAt? stop rest = none := by
      unfold quotedAt?
      split
      · exact absurd ⟨_, rfl⟩ hquote
      · rfl
    rw [hnone]
    split
    · exact absurd ⟨_, rfl⟩ hquote
    · rfl

theorem bareIn?_eq (hfollow : Follows follow stop outcome raw) (h : At raw start rest) :
    bareIn? follow stop raw start =
      .ok ((bareAt? stop rest).map fun (l, e, behind) => outcome l e behind) := by
  have hcut := h.cut (!stop ·)
  have hends := (Text.leads_cut (!stop ·) rest).ends
  rw [bareIn?, h.sliceFrom, ok_bind, Text.find?_eq, bareAt?]
  generalize rest.takeWhile (!stop ·) = content at hcut ⊢
  generalize rest.dropWhile (!stop ·) = behind at hcut hends ⊢
  cases behind with
  | nil => rfl
  | cons e more =>
    have he : stop e = true := by simpa using hends e rfl
    have hend : endAt? stop (e :: more) = some (e, more) := endAt?_eq_some_iff.2 ⟨rfl, he⟩
    rw [if_neg (List.cons_ne_nil e more)]
    dsimp only
    rw [hcut.slice, ok_bind, hfollow _ _ _ hcut.skip, hend]
    rfl

theorem literalIn?_eq (hfollow : Follows follow stop outcome raw) (h : At raw start rest) :
    literalIn? follow stop raw start =
      .ok ((literalAt? stop rest).map fun (l, e, behind) => outcome l e behind) := by
  rw [literalIn?, quotedIn?_eq hfollow h, bareIn?_eq hfollow h, ok_bind, literalAt?]
  cases quotedAt? stop rest <;> rfl

end Literals

theorem defaultFrom?_eq (h : At raw start rest) :
    defaultFrom? raw start =
      .ok ((literalAt? isEnd rest).map fun (l, _, behind) => (l, raw.placeOf behind)) := by
  have hfollow : Follows (afterDefault? raw) isEnd (fun l _ behind => (l, raw.placeOf behind)) raw := by
    intro l place rest hrest
    rw [afterDefault?, endingAt?_eq hrest, ok_bind, Option.map_map]
    rfl
  exact literalIn?_eq hfollow h

def withDefault? (value : Literal) (e : Char) (behind : Text) :
    Option (Literal × Option Literal × Text) :=
  if e = '|' then
    (literalAt? isEnd behind).map fun (default, _, more) => (value, some default, more)
  else some (value, none, behind)

theorem valuesAt?_eq (s : Text) :
    valuesAt? s = (literalAt? isValueEnd s).bind fun (value, e, behind) =>
      withDefault? value e behind := by
  rw [valuesAt?]
  cases literalAt? isValueEnd s <;> rfl

def located (raw : Text) : Literal × Option Literal × Text → Literal × Option Literal × ℕ
  | (value, default, behind) => (value, default, raw.placeOf behind)

theorem afterValue?_eq : Follows (afterValue? raw) isValueEnd
    (fun value e behind => (withDefault? value e behind).map (located raw)) raw := by
  intro value place rest h
  rw [afterValue?, endingAt?_eq h, h.sliceFrom, ok_bind]
  cases rest with
  | nil => rfl
  | cons c rest =>
    rw [endAt?, endAt?]
    by_cases hc : isEnd c = true
    · rw [if_pos hc, if_pos (isValueEnd_of_isEnd hc), Option.map_some, Option.map_some, ok_bind]
      dsimp only
      rw [withDefault?, if_neg (ne_pipe_of_isEnd hc)]
      rfl
    · rw [if_neg hc, Option.map_none, ok_bind]
      by_cases hbar : c = '|'
      · subst hbar
        have hbehind : At raw (place + 1) rest := h.tail
        rw [if_pos (by decide), Option.map_some]
        dsimp only
        rw [withDefault?, if_pos rfl, defaultFrom?_eq hbehind, ok_bind, Option.map_map,
          Option.map_map]
        rfl
      · have hend : isValueEnd c = false := by simp [isValueEnd, hc, hbar]
        rw [if_neg (by simp [hend]), Option.map_none]
        dsimp only
        split
        · rename_i hhead
          exact absurd (List.cons.inj hhead).1 hbar
        · rfl

theorem valuesFrom?_eq (h : At raw start rest) :
    valuesFrom? raw start = .ok ((valuesAt? rest).map (located raw)) := by
  rw [valuesFrom?, literalIn?_eq afterValue?_eq h, ok_bind, valuesAt?_eq]
  cases literalAt? isValueEnd rest <;> rfl

theorem placed_concat (place : ℕ) (s : Text) (c : Char) :
    placed place (s ++ [c]) = placed place s ++ [(place + byteLength s, c)] := by
  induction s generalizing place with
  | nil => rfl
  | cons d s ih => rw [List.cons_append, placed, ih, placed, Text.byteLength_cons, Nat.add_assoc]; rfl

theorem wordStart_eq (place : ℕ) (front : Text) :
    wordStart place (place + byteLength front) front =
      place + byteLength (front.rdropWhile Text.isWordChar) := by
  rw [wordStart]
  induction front using List.reverseRecOn with
  | nil => rfl
  | append_singleton front c ih =>
    rw [placed_concat, List.reverse_concat]
    by_cases hc : Text.isWordChar c = true
    · have htake : ((0 + byteLength front, c) :: (placed 0 front).reverse).takeWhile
          (fun entry => Text.isWordChar entry.2) = (0 + byteLength front, c) ::
            (placed 0 front).reverse.takeWhile (fun entry => Text.isWordChar entry.2) :=
        List.takeWhile_cons_of_pos hc
      rw [htake, List.rdropWhile_concat_pos _ _ _ hc, ← ih, List.getLast?_cons]
      cases ((placed 0 front).reverse.takeWhile fun entry => Text.isWordChar entry.2).getLast? with
      | none => simp
      | some entry => rfl
    · have htake : ((0 + byteLength front, c) :: (placed 0 front).reverse).takeWhile
          (fun entry => Text.isWordChar entry.2) = [] := List.takeWhile_cons_of_neg hc
      rw [htake, List.rdropWhile_concat_neg _ _ _ hc]
      rfl

theorem all_equals {before : Text} (h : '=' ∉ before) (after : Text) :
    all (before ++ '=' :: after) =
      match valuesAt? after with
      | some (value, default, behind) =>
        ⟨before.rtakeWhile Text.isWordChar, value, default⟩ :: all behind
      | none => [] := by
  have hcut := List.rdropWhile_append_rtakeWhile (p := Text.isWordChar) (l := before)
  have hlast := longest_rdropWhile before
  have hname : ∀ c ∈ before.rtakeWhile Text.isWordChar, Text.isWordChar c = true :=
    fun c hc => List.mem_rtakeWhile_imp hc
  generalize before.rdropWhile Text.isWordChar = front at hcut hlast
  generalize before.rtakeWhile Text.isWordChar = name at hcut hname ⊢
  subst hcut
  have hfront : '=' ∉ front := fun hmem => h (List.mem_append_left name hmem)
  cases hvalues : valuesAt? after with
  | some found =>
    obtain ⟨value, default, behind⟩ := found
    exact all_of_values hfront hname hlast (valuesAt?_eq_some_iff.1 hvalues)
  | none =>
    rw [all, List.append_assoc, allFrom_front hfront hlast, allFrom_word hname, allFrom, if_pos rfl,
      hvalues]

theorem step_scans (raw : Text) : Scans (step raw) all raw := by
  intro place rest h
  have hrun := Text.leads_cut (· != '=') rest
  have hsame := List.takeWhile_append_dropWhile (p := (· != '=')) (l := rest)
  have hfound : find? (· == '=') rest = if rest.dropWhile (· != '=') = [] then none
      else some (byteLength (rest.takeWhile (· != '='))) := Text.find?_eq (· == '=') rest
  rw [step, h.sliceFrom, ok_bind, hfound]
  generalize rest.takeWhile (· != '=') = before at hrun hsame ⊢
  generalize rest.dropWhile (· != '=') = behind at hrun hsame ⊢
  subst hsame
  have hbefore : '=' ∉ before := fun hmem => by simpa using hrun.all '=' hmem
  cases behind with
  | nil => exact ⟨none, rfl, .stop (by rw [List.append_nil, all, allFrom_of_notMem hbefore])⟩
  | cons c after =>
    obtain rfl : c = '=' := by simpa using hrun.ends c rfl
    have hsign : At raw (place + byteLength before + 1) after := h.skip.tail
    have hcut : At raw place (before.rdropWhile Text.isWordChar ++
        (before.rtakeWhile Text.isWordChar ++ '=' :: after)) := by
      rwa [← List.append_assoc, List.rdropWhile_append_rtakeWhile]
    have hlength : place + byteLength (before.rdropWhile Text.isWordChar) +
        byteLength (before.rtakeWhile Text.isWordChar) = place + byteLength before := by
      rw [Nat.add_assoc, ← Text.byteLength_append, List.rdropWhile_append_rtakeWhile]
    have hname := hcut.skip.slice
    rw [hlength] at hname
    rw [if_neg (List.cons_ne_nil _ _)]
    dsimp only
    rw [h.slice, ok_bind, wordStart_eq, hname, ok_bind, valuesFrom?_eq hsign, ok_bind]
    have hall := all_equals hbefore after
    cases hvalues : valuesAt? after with
    | none =>
      rw [hvalues] at hall
      exact ⟨none, rfl, .stop hall⟩
    | some found =>
      obtain ⟨value, default, behind⟩ := found
      rw [hvalues] at hall
      obtain ⟨written, rfl⟩ := (valuesAt?_eq_some_iff.1 hvalues).exists_append
      have hbehind := hsign.skip
      refine ⟨_, rfl, .move ?_ (hbehind.placeOf_eq ▸ hbehind) hall⟩
      dsimp only
      rw [hbehind.placeOf_eq]
      omega

end Assignment
end ContentWeave
