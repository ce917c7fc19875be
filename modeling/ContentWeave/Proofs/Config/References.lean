import ContentWeave.Config.Variable
import ContentWeave.Proofs.Text.Runs
import ContentWeave.Proofs.Text.Weaving
import Mathlib.Data.List.Infix
import Mathlib.Tactic.Common

/-!
# What a setting refers to

A setting can be read in two ways. In the narrow one only braces behind a dollar make a reference;
in the wide one a name behind a dollar is a reference too, and two dollars stand for one. A setting
with a brace behind a dollar is read in the wide way, and any other one is taken as it stands. The
two ways come to the same for all values of the variables exactly if no dollar that opens no
reference stands in front of a name or of another dollar.
-/

namespace ContentWeave.SettingPart

open Text (Leads isWordChar)

def enclose (body : Text) : Text := '$' :: '\x7b' :: (body ++ ['\x7d'])

/-- What stands between the braces of a reference. The name goes on to the first `:-`, and is not
empty in front of a default. -/
inductive Braced : Text → SettingPart → Prop
  | plain {name : Text} (hclose : '\x7d' ∉ name)
      (hmark : ":-".toList <:+: name → ":-".toList <+: name) : Braced name (reference name none)
  | fallback {name default : Text} (hname : name ≠ []) (hclose : '\x7d' ∉ name ++ default)
      (hmark : ¬ ":-".toList <:+: name) :
      Braced (name ++ ":-".toList ++ default) (reference name (some default))

/-- A text that stands for a part that is no plain character, and what follows it. With `names`,
names and dollars behind a dollar count too. -/
inductive Item (names : Bool) : (raw rest : Text) → SettingPart → Prop
  | braced {body rest : Text} {p : SettingPart} (hbody : Braced body p) :
      Item names (enclose body) rest p
  | named {name rest : Text} (hnames : names = true) (hne : name ≠ [])
      (hname : Leads isWordChar name rest) : Item names ('$' :: name) rest (reference name none)
  | doubled {rest : Text} (hnames : names = true) : Item names ['$', '$'] rest (char '$')

/-- Reads a text from the left; a character that begins no item stands for itself. -/
inductive Reads (names : Bool) : Text → List SettingPart → Prop
  | nil : Reads names [] []
  | item {raw rest : Text} {p : SettingPart} {ps : List SettingPart}
      (hitem : Item names raw rest p) (hrest : Reads names rest ps) :
      Reads names (raw ++ rest) (p :: ps)
  | char {c : Char} {s : Text} {ps : List SettingPart}
      (hnone : ∀ raw rest p, Item names raw rest p → raw ++ rest ≠ c :: s)
      (hrest : Reads names s ps) : Reads names (c :: s) (.char c :: ps)

section Bodies

variable {s name default body : Text} {p : SettingPart}

theorem cutDefault?_eq_none (h : cutDefault? s = none) : ¬ ":-".toList <:+: s := by
  induction s using cutDefault?.induct with
  | case1 => simp
  | case2 s => simp [cutDefault?] at h
  | case3 c s hmark ih =>
    rw [cutDefault?, Option.map_eq_none_iff] at h
    · rw [List.infix_cons_iff]
      rintro (hfront | hrest)
      · obtain ⟨t, ht⟩ := hfront
        obtain ⟨rfl, rfl⟩ := List.cons.inj ht
        exact hmark t rfl rfl
      · exact ih h hrest
    · exact hmark

theorem cutDefault?_append (h : ¬ ":-".toList <:+: name) :
    cutDefault? (name ++ ":-".toList ++ default) = some (name, default) := by
  induction name with
  | nil => rfl
  | cons c name ih =>
    have hrest : ¬ ":-".toList <:+: name := fun hi => h (List.infix_cons_iff.2 (.inr hi))
    rw [List.cons_append, List.cons_append, cutDefault?, ih hrest]
    · rfl
    · rintro t rfl ht
      apply h
      cases name with
      | nil => cases ht
      | cons d name =>
        obtain ⟨rfl, -⟩ := List.cons.inj ht
        exact ⟨[], name, rfl⟩

theorem eq_of_cutDefault? (h : cutDefault? s = some (name, default)) :
    s = name ++ ":-".toList ++ default ∧ ¬ ":-".toList <:+: name := by
  induction s using cutDefault?.induct generalizing name with
  | case1 => cases h
  | case2 s =>
    cases h
    exact ⟨rfl, by simp⟩
  | case3 c s hmark ih =>
    rw [cutDefault?] at h
    · obtain ⟨⟨front, back⟩, hrest, heq⟩ := Option.map_eq_some_iff.1 h
      cases heq
      obtain ⟨hs, hfront⟩ := ih hrest
      refine ⟨by rw [hs]; rfl, ?_⟩
      rw [List.infix_cons_iff]
      rintro (⟨t, ht⟩ | hinfix)
      · obtain ⟨rfl, rfl⟩ := List.cons.inj ht
        exact hmark _ rfl hs
      · exact hfront hinfix
    · exact hmark

theorem Braced.ofBody_eq (h : Braced body p) : ofBody body = p := by
  cases h with
  | plain hclose hmark =>
    by_cases hinfix : ":-".toList <:+: body
    · obtain ⟨default, rfl⟩ := hmark hinfix
      rfl
    · rw [ofBody]
      cases hcut : cutDefault? body with
      | none => rfl
      | some cut =>
        obtain ⟨rfl, -⟩ := eq_of_cutDefault? hcut
        exact absurd ⟨cut.1, cut.2, rfl⟩ hinfix
  | @fallback name default hname hclose hmark =>
    obtain ⟨c, name, rfl⟩ := List.exists_cons_of_ne_nil hname
    rw [ofBody, cutDefault?_append hmark]

theorem Braced.close_notMem (h : Braced body p) : '\x7d' ∉ body := by
  cases h with
  | plain hclose hmark => exact hclose
  | fallback hname hclose hmark =>
    simp only [List.mem_append, not_or] at hclose ⊢
    exact ⟨⟨hclose.1, by decide⟩, hclose.2⟩

theorem braced_ofBody (h : '\x7d' ∉ body) : Braced body (ofBody body) := by
  cases hcut : cutDefault? body with
  | none =>
    rw [ofBody, hcut]
    exact .plain h fun hinfix => absurd hinfix (cutDefault?_eq_none hcut)
  | some cut =>
    obtain ⟨name, default⟩ := cut
    obtain ⟨hbody, hmark⟩ := eq_of_cutDefault? hcut
    cases name with
    | nil =>
      rw [ofBody, hcut]
      exact .plain h fun _ => ⟨default, hbody.symm⟩
    | cons c name =>
      rw [ofBody, hcut, hbody]
      refine .fallback (List.cons_ne_nil c name) ?_ hmark
      rw [hbody] at h
      simp only [List.mem_append, not_or] at h ⊢
      exact ⟨h.1.1, h.2⟩

end Bodies

section Items

variable {names : Bool} {raw rest s : Text} {p : SettingPart} {ps : List SettingPart}

theorem Item.afterDollar_eq (h : Item names raw rest p) :
    ∃ tail, raw = '$' :: tail ∧ tail ≠ [] ∧ afterDollar (tail ++ rest) = (p, tail.length) := by
  cases h with
  | @braced body _ _ hbody =>
    refine ⟨'\x7b' :: (body ++ ['\x7d']), rfl, List.cons_ne_nil _ _, ?_⟩
    have hleads : Leads (· != '\x7d') body ('\x7d' :: rest) :=
      Text.leads_of_notMem hbody.close_notMem (by simp)
    have htake := hleads.takeWhile_append
    rw [List.cons_append, List.append_assoc, List.singleton_append, afterDollar, htake, if_pos (by simp), hbody.ofBody_eq]
    simp
  | @named name _ hnames hne hname =>
    refine ⟨name, rfl, hne, ?_⟩
    have htake := hname.takeWhile_append
    obtain ⟨c, name, rfl⟩ := List.exists_cons_of_ne_nil hne
    have hword := hname.all c (by simp)
    rw [afterDollar, htake]
    · rintro t ht
      obtain ⟨rfl, -⟩ := List.cons.inj ht
      revert hword
      decide
    · rintro t ht
      obtain ⟨rfl, -⟩ := List.cons.inj ht
      revert hword
      decide
  | doubled hnames => exact ⟨['$'], rfl, List.cons_ne_nil _ _, rfl⟩

theorem Item.widen (h : Item names raw rest p) : Item true raw rest p := by
  cases h with
  | braced hbody => exact .braced hbody
  | named hnames hne hname => exact .named rfl hne hname
  | doubled hnames => exact .doubled rfl

theorem Item.unique {raw' rest' : Text} {p' : SettingPart} (h : Item names raw rest p)
    (h' : Item names raw' rest' p') (heq : raw ++ rest = raw' ++ rest') :
    raw = raw' ∧ rest = rest' ∧ p = p' := by
  obtain ⟨tail, rfl, -, hafter⟩ := h.afterDollar_eq
  obtain ⟨tail', rfl, -, hafter'⟩ := h'.afterDollar_eq
  have htails : tail ++ rest = tail' ++ rest' := (List.cons.inj heq).2
  rw [htails, hafter'] at hafter
  obtain ⟨rfl, hlength⟩ := Prod.mk.inj hafter
  obtain ⟨rfl, rfl⟩ := List.append_inj htails hlength.symm
  exact ⟨rfl, rfl, rfl⟩

theorem afterDollar_cases (s : Text) :
    (∃ tail rest, s = tail ++ rest ∧ Item true ('$' :: tail) rest (afterDollar s).1 ∧
      (afterDollar s).2 = tail.length) ∨ afterDollar s = (.char '$', 0) := by
  unfold afterDollar
  split
  · exact .inl ⟨['$'], _, rfl, .doubled rfl, rfl⟩
  · rename_i s
    have hcut := Text.leads_cut (· != '\x7d') s
    have hall := List.takeWhile_append_dropWhile (p := (· != '\x7d')) (l := s)
    dsimp only
    split_ifs with hlength
    · left
      cases hrest : s.dropWhile (· != '\x7d') with
      | nil =>
        rw [hrest, List.append_nil] at hall
        rw [hall] at hlength
        omega
      | cons c rest =>
        have hclose : c = '\x7d' := by
          have hends := hcut.ends c (by rw [hrest]; rfl)
          simpa using hends
        rw [hrest, hclose] at hall
        refine ⟨'\x7b' :: (s.takeWhile (· != '\x7d') ++ ['\x7d']), rest, ?_, .braced ?_, ?_⟩
        · rw [List.cons_append, List.append_assoc, List.singleton_append, hall]
        · apply braced_ofBody
          intro hmem
          simpa using hcut.all _ hmem
        · simp
    · exact .inr rfl
  · split
    · exact .inr rfl
    · rename_i hname
      have hcut := Text.leads_cut isWordChar s
      refine .inl ⟨s.takeWhile isWordChar, s.dropWhile isWordChar,
        List.takeWhile_append_dropWhile.symm, ?_, rfl⟩
      exact .named rfl hname hcut

theorem scanFrom_append (tail rest : Text) :
    scanFrom tail.length (tail ++ rest) = scanFrom 0 rest := by
  induction tail with
  | nil => rfl
  | cons c tail ih => rw [List.length_cons, List.cons_append, scanFrom, ih]

theorem reads_scanFrom (s : Text) : Reads true s (scanFrom 0 s) := by
  induction h : s.length using Nat.strongRecOn generalizing s with
  | ind n ih =>
    cases s with
    | nil =>
      rw [scanFrom]
      exact .nil
    | cons c s =>
      by_cases hc : c = '$'
      · subst hc
        rw [scanFrom, if_pos rfl]
        rcases afterDollar_cases s with ⟨tail, rest, rfl, hitem, hskip⟩ | hafter
        · rw [hskip, scanFrom_append]
          apply Reads.item hitem
          apply ih rest.length _ rest rfl
          rw [← h, List.length_cons, List.length_append]
          omega
        · rw [hafter]
          refine .char (fun raw rest p hitem heq => ?_) (ih s.length (by simp [← h]) s rfl)
          obtain ⟨tail, rfl, hne, hitem⟩ := hitem.afterDollar_eq
          have hs : tail ++ rest = s := (List.cons.inj heq).2
          rw [← hs, hitem] at hafter
          exact hne (List.eq_nil_of_length_eq_zero (Prod.mk.inj hafter).2)
      · rw [scanFrom, if_neg hc]
        refine .char (fun raw rest p hitem heq => ?_) (ih s.length (by simp [← h]) s rfl)
        obtain ⟨tail, rfl, -⟩ := hitem.afterDollar_eq
        exact hc (List.cons.inj heq).1.symm

theorem exists_reads (names : Bool) (s : Text) : ∃ ps, Reads names s ps := by
  induction h : s.length using Nat.strongRecOn generalizing s with
  | ind n ih =>
    cases s with
    | nil => exact ⟨[], .nil⟩
    | cons c s =>
      by_cases hitem : ∃ raw rest p, Item names raw rest p ∧ raw ++ rest = c :: s
      · obtain ⟨raw, rest, p, hitem, heq⟩ := hitem
        obtain ⟨tail, rfl, -⟩ := hitem.afterDollar_eq
        have hlength := congrArg List.length heq
        rw [List.length_append, List.length_cons] at hlength
        obtain ⟨ps, hps⟩ := ih rest.length (by omega) rest rfl
        rw [← heq]
        exact ⟨p :: ps, .item hitem hps⟩
      · obtain ⟨ps, hps⟩ := ih s.length (by simp [← h]) s rfl
        exact ⟨.char c :: ps, .char (fun raw rest p h heq => hitem ⟨raw, rest, p, h, heq⟩) hps⟩

theorem Reads.of_nil (h : Reads names [] ps) : ps = [] := by
  generalize hs : [] = s at h
  cases h with
  | nil => rfl
  | item hitem hrest =>
    obtain ⟨tail, rfl, -⟩ := hitem.afterDollar_eq
    cases hs
  | char hnone hrest => cases hs

theorem Reads.of_item (h : Reads names (raw ++ rest) ps) (hitem : Item names raw rest p) :
    ∃ qs, ps = p :: qs ∧ Reads names rest qs := by
  generalize hs : raw ++ rest = s at h
  cases h with
  | nil =>
    obtain ⟨tail, rfl, -⟩ := hitem.afterDollar_eq
    cases hs
  | @item raw' rest' p' qs hitem' hrest =>
    obtain ⟨rfl, rfl, rfl⟩ := hitem.unique hitem' hs
    exact ⟨qs, rfl, hrest⟩
  | char hnone hrest => exact absurd hs (hnone raw rest p hitem)

theorem Reads.of_char {c : Char} (h : Reads names (c :: s) ps)
    (hnone : ∀ raw rest p, Item names raw rest p → raw ++ rest ≠ c :: s) :
    ∃ qs, ps = .char c :: qs ∧ Reads names s qs := by
  generalize hs : c :: s = t at h
  cases h with
  | nil => cases hs
  | item hitem hrest => exact absurd hs.symm (hnone _ _ _ hitem)
  | @char d t qs hnone' hrest =>
    cases hs
    exact ⟨qs, rfl, hrest⟩

theorem Reads.unique {qs : List SettingPart} (hp : Reads names s ps) (hq : Reads names s qs) :
    ps = qs := by
  induction hp generalizing qs with
  | nil => exact hq.of_nil.symm
  | item hitem hrest ih =>
    obtain ⟨qs, rfl, hqs⟩ := hq.of_item hitem
    rw [ih hqs]
  | char hnone hrest ih =>
    obtain ⟨qs, rfl, hqs⟩ := hq.of_char hnone
    rw [ih hqs]

end Items

/-! ## The two ways compared -/

section Compared

variable {s : Text} {narrow wide : List SettingPart}

def write : SettingPart → Text
  | char c => [c]
  | reference name none => enclose name
  | reference name (some default) => enclose (name ++ ":-".toList ++ default)

/-- No dollar that opens no reference stands in front of a name or of another dollar. -/
def Settled (ps : List SettingPart) : Prop :=
  ∀ front back, ps = front ++ char '$' :: back →
    ∀ c ∈ (back.flatMap write).head?, c ≠ '$' ∧ isWordChar c = false

theorem Braced.write_eq {body : Text} {p : SettingPart} (h : Braced body p) :
    p.write = enclose body := by
  cases h with
  | plain hclose hmark => rfl
  | fallback hname hclose hmark => rfl

theorem Braced.ne_char {body : Text} {p : SettingPart} (h : Braced body p) (c : Char) :
    p ≠ char c := by
  cases h with
  | plain hclose hmark => exact fun h => by cases h
  | fallback hname hclose hmark => exact fun h => by cases h

theorem Item.braced_of_narrow {raw rest : Text} {p : SettingPart} (h : Item false raw rest p) :
    ∃ body, raw = enclose body ∧ Braced body p := by
  cases h with
  | braced hbody => exact ⟨_, rfl, hbody⟩
  | named hnames hne hname => cases hnames
  | doubled hnames => cases hnames

theorem Reads.flatMap_write (h : Reads false s narrow) : narrow.flatMap write = s := by
  induction h with
  | nil => rfl
  | item hitem hrest ih =>
    obtain ⟨body, rfl, hbody⟩ := hitem.braced_of_narrow
    rw [List.flatMap_cons, hbody.write_eq, ih]
  | char hnone hrest ih =>
    rw [List.flatMap_cons, ih]
    rfl

theorem Settled.tail {p : SettingPart} (h : Settled (p :: narrow)) : Settled narrow :=
  fun front back hps => h (p :: front) back (by rw [hps, List.cons_append])

theorem Settled.cons {p : SettingPart} (h : Settled narrow)
    (hp : p = char '$' → ∀ c ∈ (narrow.flatMap write).head?, c ≠ '$' ∧ isWordChar c = false) :
    Settled (p :: narrow) := by
  intro front back hps
  cases front with
  | nil =>
    obtain ⟨hchar, rfl⟩ := List.cons.inj hps
    exact hp hchar
  | cons q front => exact h front back (List.cons.inj hps).2

/-- A reading of the narrow way is one of the wide way if every dollar is settled. -/
theorem Reads.widen (h : Reads false s narrow) (hsettled : Settled narrow) :
    Reads true s narrow := by
  induction h with
  | nil => exact .nil
  | item hitem hrest ih => exact .item hitem.widen (ih hsettled.tail)
  | @char c s ps hnone hrest ih =>
    refine .char (fun raw rest p hitem heq => ?_) (ih hsettled.tail)
    cases hitem with
    | braced hbody => exact hnone _ _ _ (.braced hbody) heq
    | @named name _ hnames hne hname =>
      obtain ⟨d, name, rfl⟩ := List.exists_cons_of_ne_nil hne
      obtain ⟨rfl, hs⟩ := List.cons.inj heq
      have hfront := hsettled [] ps rfl d
      rw [hrest.flatMap_write, ← hs] at hfront
      have hword := hname.all d (by simp)
      rw [(hfront rfl).2] at hword
      cases hword
    | doubled hnames =>
      obtain ⟨rfl, hs⟩ := List.cons.inj heq
      have hfront := hsettled [] ps rfl '$'
      rw [hrest.flatMap_write, ← hs] at hfront
      exact (hfront rfl).1 rfl

def mark : SettingPart → Char
  | char c => c
  | reference _ _ => 'x'

theorem Braced.mark_eq {body : Text} {p : SettingPart} (h : Braced body p) : p.mark = 'x' := by
  cases h with
  | plain hclose hmark => rfl
  | fallback hname hclose hmark => rfl

theorem Reads.of_dollar (h : Reads false ('$' :: s) narrow) :
    (∃ t p qs, s = '\x7b' :: t ∧ narrow = p :: qs ∧ p.mark = 'x') ∨
      ∃ qs, narrow = .char '$' :: qs ∧ Reads false s qs := by
  generalize ht : '$' :: s = t at h
  cases h with
  | nil => cases ht
  | @item raw rest p qs hitem hrest =>
    obtain ⟨body, rfl, hbody⟩ := hitem.braced_of_narrow
    exact .inl ⟨_, p, qs, (List.cons.inj ht).2, rfl, hbody.mark_eq⟩
  | char hnone hrest =>
    obtain ⟨rfl, rfl⟩ := List.cons.inj ht
    exact .inr ⟨_, rfl, hrest⟩

theorem marks_ne (h : Reads true s wide) (n : ℕ) (hnarrow : Reads false ('$' :: s) narrow) :
    wide.map mark ≠ List.replicate n '$' ++ narrow.map mark := by
  have hshift : ∀ (n : ℕ) (t : Text),
      List.replicate n '$' ++ '$' :: t = '$' :: (List.replicate n '$' ++ t) := by
    intro n t
    rw [List.append_cons, ← List.replicate_succ', List.replicate_succ, List.cons_append]
  intro heq
  -- the dollars that only the narrow way has shown so far are counted
  induction h generalizing narrow n with
  | nil =>
    rcases hnarrow.of_dollar with ⟨t, p, qs, hs, -⟩ | ⟨qs, rfl, -⟩
    · cases hs
    · simp at heq
  | @item raw rest p ps hitem hrest ih =>
    obtain ⟨tail, rfl, -⟩ := hitem.afterDollar_eq
    rcases hnarrow.of_dollar with ⟨t, q, qs, hs, -⟩ | ⟨qs, rfl, hqs⟩
    · cases (List.cons.inj hs).1
    rw [List.map_cons, List.map_cons, mark, hshift] at heq
    obtain ⟨hmark, htail⟩ := List.cons.inj heq
    cases hitem with
    | braced hbody =>
      rw [hbody.mark_eq] at hmark
      cases hmark
    | named hnames hne hname => cases hmark
    | doubled hnames =>
      rcases hqs.of_dollar with ⟨t, q, qs', hs, -⟩ | ⟨qs', rfl, hqs'⟩
      · cases (List.cons.inj hs).1
      · rw [List.map_cons, mark, List.append_cons, ← List.replicate_succ'] at htail
        exact ih (n + 1) hqs' htail
  | @char c s ps hnone hrest ih =>
    rcases hnarrow.of_dollar with ⟨t, q, qs, hs, rfl, hmark⟩ | ⟨qs, rfl, hqs⟩
    · obtain ⟨rfl, -⟩ := List.cons.inj hs
      rw [List.map_cons, List.map_cons, mark, hmark] at heq
      cases n with
      | zero => cases (List.cons.inj heq).1
      | succ n => cases (List.cons.inj heq).1
    · rw [List.map_cons, List.map_cons, mark, mark, hshift] at heq
      obtain ⟨rfl, htail⟩ := List.cons.inj heq
      exact ih n hqs htail

/-- Where both ways show one text for all references alike, every dollar is settled. -/
theorem settled_of_marks_eq (hwide : Reads true s wide) (hnarrow : Reads false s narrow)
    (heq : wide.map mark = narrow.map mark) : Settled narrow := by
  induction hnarrow generalizing wide with
  | nil =>
    intro front back hps
    simp at hps
  | item hitem hrest ih =>
    obtain ⟨body, -, hbody⟩ := hitem.braced_of_narrow
    obtain ⟨ps, rfl, hps⟩ := hwide.of_item hitem.widen
    refine (ih hps (List.cons.inj heq).2).cons fun hchar => ?_
    exact absurd hchar (hbody.ne_char '$')
  | @char c s qs hnone hrest ih =>
    by_cases hitem : ∃ raw rest p, Item true raw rest p ∧ raw ++ rest = c :: s
    · obtain ⟨raw, rest, p, hitem, hraw⟩ := hitem
      rw [← hraw] at hwide
      obtain ⟨ps, rfl, hps⟩ := hwide.of_item hitem
      cases hitem with
      | braced hbody => exact absurd hraw (hnone _ _ _ (.braced hbody))
      | named hnames hne hname =>
        obtain ⟨rfl, -⟩ := List.cons.inj hraw
        cases (List.cons.inj heq).1
      | doubled hnames =>
        obtain ⟨rfl, rfl⟩ := List.cons.inj hraw
        exact absurd (List.cons.inj heq).2 (marks_ne hps 0 hrest)
    · obtain ⟨ps, rfl, hps⟩ :=
        hwide.of_char fun raw rest p h hraw => hitem ⟨raw, rest, p, h, hraw⟩
      refine (ih hps (List.cons.inj heq).2).cons fun hchar d hd => ?_
      cases hchar
      rw [hrest.flatMap_write] at hd
      obtain ⟨t, rfl⟩ := List.head?_eq_some_iff.1 hd
      constructor
      · rintro rfl
        exact hitem ⟨_, t, _, .doubled rfl, rfl⟩
      · rw [← Bool.not_eq_true]
        intro hword
        have hcut := Text.leads_cut isWordChar (d :: t)
        have hne : (d :: t).takeWhile isWordChar ≠ [] := by simp [hword]
        refine hitem ⟨_, _, _, .named rfl hne hcut, ?_⟩
        rw [List.cons_append, List.takeWhile_append_dropWhile]

theorem Reads.narrow_char {c : Char} (h : ¬ "$\x7b".toList <+: c :: s)
    (hrest : Reads false s narrow) : Reads false (c :: s) (.char c :: narrow) := by
  refine .char (fun raw rest p hitem heq => ?_) hrest
  obtain ⟨body, rfl, -⟩ := hitem.braced_of_narrow
  exact h ⟨_, heq⟩

theorem reads_map_char (h : ¬ "$\x7b".toList <:+: s) : Reads false s (s.map char) := by
  induction s with
  | nil => exact .nil
  | cons c s ih =>
    rw [List.infix_cons_iff, not_or] at h
    exact (ih h.2).narrow_char h.1

end Compared

section Outcomes

variable {env : Text → Option Text} {ps : List SettingPart} {r : Except Text Text}

def standsFor? (env : Text → Option Text) : SettingPart → Option Text
  | char c => some [c]
  | reference name default => (env name).or default

/-- The text that the parts of a setting stand for, or the name of the first variable that has no
value and no default. -/
inductive Outcome (env : Text → Option Text) : List SettingPart → Except Text Text → Prop
  | nil : Outcome env [] (.ok [])
  | shown {p : SettingPart} {t : Text} {ps : List SettingPart} {r : Except Text Text}
      (hp : p.standsFor? env = some t) (hrest : Outcome env ps r) :
      Outcome env (p :: ps) (r.map (t ++ ·))
  | unset {name : Text} {ps : List SettingPart} (hname : env name = none) :
      Outcome env (reference name none :: ps) (.error name)

theorem value_of_standsFor? {p : SettingPart} {t : Text} (h : p.standsFor? env = some t) :
    value (m := Id) env p = pure t := by
  cases p with
  | char c =>
    cases h
    rfl
  | reference name default =>
    rw [standsFor?] at h
    cases hname : env name with
    | none =>
      rw [hname, Option.none_or] at h
      rw [value, hname, h]
      rfl
    | some v =>
      rw [hname, Option.some_or] at h
      cases h
      rw [value, hname]
      rfl

theorem eq_reference_of_standsFor? {p : SettingPart} (h : p.standsFor? env = none) :
    ∃ name, p = reference name none ∧ env name = none := by
  cases p with
  | char c => cases h
  | reference name default =>
    obtain ⟨hname, rfl⟩ := Option.or_eq_none_iff.1 h
    exact ⟨name, rfl, hname⟩

theorem outcome_mapM (env : Text → Option Text) (ps : List SettingPart) :
    Outcome env ps (List.flatten <$> ps.mapM (value (m := Id) env) : ExceptT Text Id Text) := by
  induction ps with
  | nil => exact .nil
  | cons p ps ih =>
    rw [List.mapM_cons]
    cases hp : p.standsFor? env with
    | none =>
      obtain ⟨name, rfl, hname⟩ := eq_reference_of_standsFor? hp
      rw [value, hname]
      exact .unset hname
    | some t =>
      rw [value_of_standsFor? hp, pure_bind]
      have hshown := Outcome.shown hp ih
      revert hshown
      generalize (ps.mapM (value (m := Id) env) : ExceptT Text Id (List Text)) = rest
      intro hshown
      cases rest with
      | ok texts => exact hshown
      | error name => exact hshown

theorem Outcome.char {t : Text} (h : Outcome env ps (.ok t)) (c : Char) :
    Outcome env (.char c :: ps) (.ok (c :: t)) := .shown (t := [c]) rfl h

theorem Outcome.unique {r' : Except Text Text} (h : Outcome env ps r) (h' : Outcome env ps r') :
    r = r' := by
  induction h generalizing r' with
  | nil => cases h'; rfl
  | shown hp hrest ih =>
    cases h' with
    | shown hp' hrest' =>
      rw [hp] at hp'
      cases hp'
      rw [ih hrest']
    | unset hname => rw [standsFor?, hname] at hp; cases hp
  | unset hname =>
    cases h' with
    | shown hp' hrest' => rw [standsFor?, hname] at hp'; cases hp'
    | unset hname' => rfl

theorem outcome_marks (ps : List SettingPart) :
    Outcome (fun _ => some ['x']) ps (.ok (ps.map mark)) := by
  induction ps with
  | nil => exact .nil
  | cons p ps ih =>
    have hp : p.standsFor? (fun _ => some ['x']) = some [p.mark] := by cases p <;> rfl
    exact .shown hp ih

end Outcomes

/-- What a setting is expanded to where the variables have these values. -/
def expansion (env : Text → Option Text) (s : Text) : Except Text Text := expand (m := Id) env s

theorem outcome_scan_iff (env : Text → Option Text) (s : Text) (r : Except Text Text) :
    Outcome env (scan s) r ↔ expansion env s = r := by
  constructor
  · exact (outcome_mapM env (scan s)).unique
  · rintro rfl
    exact outcome_mapM env (scan s)

theorem scan_eq (s : Text) :
    scan s = if "$\x7b".toList <:+: s then scanFrom 0 s else s.map char := by
  simp only [scan, Text.contains_iff_infix]

/-- A setting is expanded by what it is read as in the narrow way, whatever the variables are,
exactly if it has no brace behind a dollar or every dollar in it is settled. -/
theorem expands_braces_iff (s : Text) :
    ∃ narrow wide, (∀ ps, Reads false s ps ↔ ps = narrow) ∧ (∀ ps, Reads true s ps ↔ ps = wide) ∧
      (∀ env r, Outcome env (if "$\x7b".toList <:+: s then wide else s.map char) r ↔
        expansion env s = r) ∧
      ((∀ env r, Outcome env narrow r ↔ expansion env s = r) ↔
        ¬ "$\x7b".toList <:+: s ∨ Settled narrow) := by
  obtain ⟨narrow, hnarrow⟩ := exists_reads false s
  have hwide := reads_scanFrom s
  refine ⟨narrow, scanFrom 0 s, fun ps => ?_, fun ps => ?_, fun env r => ?_, ?_⟩
  · exact ⟨fun h => h.unique hnarrow, fun h => h ▸ hnarrow⟩
  · exact ⟨fun h => h.unique hwide, fun h => h ▸ hwide⟩
  · rw [← scan_eq]
    exact outcome_scan_iff env s r
  · constructor
    · intro h
      by_cases hbrace : "$\x7b".toList <:+: s
      · -- all variables have one value, so that each reference shows as one character
        have hmarks := (h (fun _ => some ['x']) _).1 (outcome_marks narrow)
        have hscan := outcome_marks (scan s)
        rw [outcome_scan_iff, hmarks, scan_eq, if_pos hbrace, Except.ok.injEq] at hscan
        exact .inr (settled_of_marks_eq hwide hnarrow hscan.symm)
      · exact .inl hbrace
    · intro h env r
      have hread : narrow = scan s := by
        rw [scan_eq]
        split_ifs with hbrace
        · have hsettled := h.resolve_left (not_not_intro hbrace)
          exact (hnarrow.widen hsettled).unique hwide
        · exact hnarrow.unique (reads_map_char hbrace)
      rw [hread]
      exact outcome_scan_iff env s r

/-- A sum behind a dollar is taken for a name once the setting has a reference. -/
theorem price_read_as_name :
    let setting := "$5 $\x7bUNIT:-each\x7d".toList
    let parts := [char '$', char '5', char ' ', reference "UNIT".toList (some "each".toList)]
    Reads false setting parts ∧ Outcome (fun _ => none) parts (.ok "$5 each".toList) ∧
      expansion (fun _ => none) setting = .error "5".toList := by
  have hname : Braced "UNIT:-each".toList (reference "UNIT".toList (some "each".toList)) :=
    @Braced.fallback "UNIT".toList "each".toList (by decide) (by decide) (by decide)
  have hread : Reads false "$\x7bUNIT:-each\x7d".toList
      [reference "UNIT".toList (some "each".toList)] := .item (.braced hname) .nil
  have hshown : Outcome (fun _ => none) [reference "UNIT".toList (some "each".toList)]
      (.ok "each".toList) := .shown (t := "each".toList) rfl .nil
  refine ⟨?_, ((hshown.char ' ').char '5').char '$', by decide +kernel⟩
  exact ((hread.narrow_char (by decide)).narrow_char (by decide)).narrow_char (by decide)

end ContentWeave.SettingPart
