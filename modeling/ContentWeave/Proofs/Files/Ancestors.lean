import ContentWeave.Proofs.Files.Names
import ContentWeave.Proofs.Text.Runs
import Mathlib.Data.List.Infix

/-!
# The directories at and above a directory

A directory is known by the names that lead to it from the root, and the directories above it by the
first of them. What lies in a directory is found under its path exactly if the way there leads through
directories and the path is one that the disk takes.
-/

namespace ContentWeave

namespace Path

variable {names : List Text} {name : Text}

theorem EntryName.exists_concat (h : EntryName name) : ∃ start c, name = start ++ [c] ∧ c ≠ '/' := by
  obtain ⟨start, c, rfl⟩ : ∃ start c, name = start ++ [c] :=
    ⟨_, _, (List.dropLast_append_getLast h.ne_nil).symm⟩
  refine ⟨start, c, rfl, ?_⟩
  rintro rfl
  exact h.slash_notMem (by simp)

theorem inits_concat (names : List Text) (name : Text) :
    (names ++ [name]).inits = names.inits ++ [names ++ [name]] := by
  simp [List.inits_append]

theorem ofNames_concat (hne : names ≠ []) (name : Text) :
    ofNames (names ++ [name]) = ofNames names ++ '/' :: name := by
  obtain ⟨first, others, rfl⟩ := List.exists_cons_of_ne_nil hne
  rw [ofNames, ofNames, List.cons_append, Text.joinWith_cons, Text.joinWith_cons]
  simp

theorem ofNames_concat_eq (names : List Text) (name : Text) :
    ∃ front, ofNames (names ++ [name]) = front ++ '/' :: name ∧
      (names = [] ∧ front = [] ∨ names ≠ [] ∧ front = ofNames names) := by
  by_cases hne : names = []
  · exact ⟨[], by simp [hne, ofNames, Text.joinWith], .inl ⟨hne, rfl⟩⟩
  · exact ⟨ofNames names, ofNames_concat hne name, .inr ⟨hne, rfl⟩⟩

theorem join_ofNames (hnames : ∀ n ∈ names, EntryName n) (hname : '/' ∉ name) :
    join (ofNames names) name = ofNames (names ++ [name]) := by
  have hrelative : ¬ (isAbsolute name = true ∨ ofNames names = []) := by
    simp [isAbsolute_eq_false hname, ofNames]
  rcases names.eq_nil_or_concat with rfl | ⟨others, last, rfl⟩
  · rw [join, if_neg hrelative]
    rfl
  · rw [List.concat_eq_append] at hnames hrelative ⊢
    have hlast := hnames last (by simp)
    obtain ⟨front, hpath, -⟩ := ofNames_concat_eq others last
    have hend : (ofNames (others ++ [last])).getLast? ≠ some '/' := by
      obtain ⟨start, c, rfl, hc⟩ := hlast.exists_concat
      have hsplit : front ++ '/' :: (start ++ [c]) = (front ++ '/' :: start) ++ [c] := by simp
      rw [hpath, hsplit, List.getLast?_concat]
      simpa using hc
    rw [join, if_neg hrelative, if_neg hend, ← ofNames_concat (by simp)]

theorem trimReversed_reverse (h : EntryName name) (front : Text) :
    trimReversed (front ++ '/' :: name).reverse = (front ++ '/' :: name).reverse := by
  obtain ⟨start, c, rfl, hc⟩ := h.exists_concat
  have hslash := h.slash_notMem
  have hreverse : (front ++ '/' :: (start ++ [c])).reverse =
      c :: (start.reverse ++ '/' :: front.reverse) := by simp
  rw [hreverse, trimReversed]
  · exact fun rest heq => hc (List.cons.inj heq).1
  · intro rest heq
    -- a slash right before a dot at the end makes the last name a single dot
    obtain ⟨rfl, hdot⟩ := List.cons.inj heq
    rcases start.eq_nil_or_concat with rfl | ⟨before, d, rfl⟩
    · exact h.not_stays (.inr rfl)
    · rw [List.concat_eq_append, List.reverse_concat] at hdot
      obtain ⟨rfl, -⟩ := List.cons.inj hdot
      exact hslash (by simp)

theorem dropWhile_reverse (h : '/' ∉ name) (front : Text) :
    (front ++ '/' :: name).reverse.dropWhile (· != '/') = '/' :: front.reverse := by
  have hrun : Text.Leads (· != '/') name.reverse ('/' :: front.reverse) :=
    Text.leads_of_notMem (by simpa using h) (by simp)
  have hreverse : (front ++ '/' :: name).reverse = name.reverse ++ '/' :: front.reverse := by simp
  rw [hreverse, hrun.dropWhile_append]

theorem parent?_ofNames (hnames : ∀ n ∈ names, EntryName n) (hname : EntryName name) :
    parent? (ofNames (names ++ [name])) = some (ofNames names) := by
  obtain ⟨front, hpath, hfront⟩ := ofNames_concat_eq names name
  have hne : (front ++ '/' :: name).reverse ≠ [] := by simp
  rw [parent?, hpath, trimReversed_reverse hname]
  split
  · rename_i hnil
    exact absurd hnil hne
  · rw [dropWhile_reverse hname.slash_notMem, trimReversed]
    rcases hfront with ⟨rfl, rfl⟩ | ⟨hnil, rfl⟩
    · rfl
    · rcases names.eq_nil_or_concat with rfl | ⟨others, last, rfl⟩
      · exact absurd rfl hnil
      · rw [List.concat_eq_append] at hnames ⊢
        obtain ⟨before, habove, -⟩ := ofNames_concat_eq others last
        have hlast := trimReversed_reverse (hnames last (by simp)) before
        rw [habove, hlast]
        split
        · rename_i hempty
          simp at hempty
        · rw [List.reverse_reverse]

theorem length_le_ofNames (names : List Text) : names.length ≤ (ofNames names).length := by
  induction names using List.reverseRecOn with
  | nil => exact Nat.zero_le _
  | append_singleton names name ih =>
    obtain ⟨front, hpath, hfront⟩ := ofNames_concat_eq names name
    rw [hpath]
    rcases hfront with ⟨rfl, rfl⟩ | ⟨-, rfl⟩
    · simp
    · simp only [List.length_append, List.length_cons, List.length_nil]
      omega

theorem chain_ofNames {count : ℕ} (hcount : names.length ≤ count)
    (hnames : ∀ n ∈ names, EntryName n) :
    chain count (ofNames names) = (names.inits.map ofNames).reverse := by
  induction names using List.reverseRecOn generalizing count with
  | nil => cases count <;> rfl
  | append_singleton names name ih =>
    obtain ⟨count, rfl⟩ : ∃ k, count = k + 1 := by
      rw [List.length_append] at hcount
      exact Nat.exists_eq_add_one.2 (Nat.lt_of_lt_of_le (by simp) hcount)
    have habove : ∀ n ∈ names, EntryName n := fun n hn => hnames n (by simp [hn])
    rw [chain, parent?_ofNames habove (hnames name (by simp)), inits_concat]
    dsimp only
    rw [ih (by simpa using hcount) habove]
    simp

theorem ancestors_ofNames (hnames : ∀ n ∈ names, EntryName n) :
    ancestors (ofNames names) = (names.inits.map ofNames).reverse :=
  chain_ofNames (length_le_ofNames names) hnames

theorem parts_ofNames (hne : names ≠ []) (hnames : ∀ n ∈ names, EntryName n) :
    parts (ofNames names) = [] :: names := by
  rw [parts, ofNames, Text.splitOn, if_pos rfl,
    Text.splitOn_joinWith hne fun n hn => (hnames n hn).slash_notMem]

theorem follow_names (hnames : ∀ n ∈ names, EntryName n) (here : List Text) :
    follow here names = here ++ names := by
  induction names generalizing here with
  | nil => simp [follow]
  | cons n names ih =>
    obtain ⟨hn, hrest⟩ := List.forall_mem_cons.1 hnames
    simp [follow, hn.not_stays, hn.not_up, ih hrest]

theorem namesFrom_ofNames (hne : names ≠ []) (hnames : ∀ n ∈ names, EntryName n)
    (here : List Text) : namesFrom here (ofNames names) = names := by
  have habsolute : isAbsolute (ofNames names) = true := rfl
  have hfollow := follow_names hnames []
  rw [namesFrom, habsolute, parts_ofNames hne hnames]
  simpa [follow] using hfollow

end Path

namespace FileTree

open ContentWeave.Path (EntryName ofNames)

variable {t : FileTree} {here directory names : List Text} {name : Text}

/-- A directory has something under a name: the way there leads through directories, and the path is
one that the disk takes. -/
structure Holds (t : FileTree) (directory : List Text) (name : Text) : Prop where
  entered : ∀ names, names <+: directory → t.node? names = some .directory
  node : t.node? (directory ++ [name]) ≠ none
  nul_notMem : '\x00' ∉ ofNames (directory ++ [name])
  short : ∀ n ∈ directory ++ [name], Text.byteLength n ≤ maxName
  length : Text.byteLength (ofNames (directory ++ [name])) < maxPath

theorem walk_names (here : List Text) (hnames : ∀ n ∈ names, EntryName n) :
    (∃ found, t.walk here names = .ok found) ↔
      (∀ front, front <+: names → front ≠ names → t.node? (here ++ front) = some .directory) ∧
        ∀ n ∈ names, Text.byteLength n ≤ maxName := by
  induction names generalizing here with
  | nil => simp [walk]
  | cons n names ih =>
    obtain ⟨hn, hrest⟩ := List.forall_mem_cons.1 hnames
    have hway := ih (here ++ [n]) hrest
    have hfronts : (∀ front, front <+: n :: names → front ≠ n :: names →
        t.node? (here ++ front) = some .directory) ↔ t.node? here = some .directory ∧
          ∀ front, front <+: names → front ≠ names →
            t.node? (here ++ [n] ++ front) = some .directory := by
      constructor
      · intro h
        refine ⟨by simpa using h [] List.nil_prefix (List.cons_ne_nil n names).symm, ?_⟩
        intro front hfront hne
        have hlonger := h (n :: front) (List.cons_prefix_cons.2 ⟨rfl, hfront⟩) (by simpa using hne)
        simpa using hlonger
      · rintro ⟨hhere, h⟩ front hfront hne
        cases front with
        | nil => simpa using hhere
        | cons m front =>
          obtain ⟨rfl, hshorter⟩ := List.cons_prefix_cons.1 hfront
          simpa using h front hshorter (by simpa using hne)
    rw [hfronts, List.forall_mem_cons, walk]
    cases hnode : t.node? here with
    | none => simp
    | some node =>
      cases node with
      | file content => simp
      | directory =>
        by_cases hlong : maxName < Text.byteLength n
        · simp [hn.not_stays, hn.not_up, hlong, Nat.not_le.2 hlong]
        · simp only [hn.not_stays, hn.not_up, hlong, if_false, hway, true_and,
            Nat.not_lt.1 hlong]

theorem exists?_eq_true_iff {path : Path} : t.exists? here path = true ↔
    (∃ found, t.resolve here path = .ok found) ∧ t.node? (Path.namesFrom here path) ≠ none := by
  unfold exists?
  cases hresolve : t.resolve here path with
  | error e => simp
  | ok found => simp [← resolve_eq hresolve, Option.isSome_iff_ne_none]

/-- The machine finds what a directory has under a name, and nothing else. -/
theorem exists?_ofNames_iff (here : List Text) (hdirectory : ∀ n ∈ directory, EntryName n)
    (hname : EntryName name) :
    t.exists? here (ofNames (directory ++ [name])) = true ↔ t.Holds directory name := by
  have hnames : ∀ n ∈ directory ++ [name], EntryName n := by
    simpa [or_imp, forall_and] using ⟨hdirectory, hname⟩
  have hparts := Path.parts_ofNames (by simp) hnames
  have hfound := Path.namesFrom_ofNames (by simp) hnames here
  have hwalk : t.walk [] ([] :: (directory ++ [name])) = t.walk [] (directory ++ [name]) := by
    simp [walk, node?]
  have hproper : (∀ front, front <+: directory ++ [name] → front ≠ directory ++ [name] →
      t.node? ([] ++ front) = some .directory) ↔
        ∀ names, names <+: directory → t.node? names = some .directory := by
    simp only [List.prefix_concat_iff, List.nil_append]
    constructor
    · intro h names hp
      refine h names (.inr hp) ?_
      rintro rfl
      exact absurd hp.length_le (by simp)
    · rintro h front (rfl | hp) hne
      · exact absurd rfl hne
      · exact h front hp
  have hne : ofNames (directory ++ [name]) ≠ [] := by simp [ofNames]
  rw [exists?_eq_true_iff, hfound, resolve, if_neg hne, hparts]
  by_cases hnul : '\x00' ∈ ofNames (directory ++ [name])
  · simp only [hnul, if_true]
    exact ⟨fun h => by simp at h, fun h => absurd hnul h.nul_notMem⟩
  by_cases hlong : maxPath ≤ Text.byteLength (ofNames (directory ++ [name]))
  · simp only [hnul, hlong, if_false, if_true]
    exact ⟨fun h => by simp at h, fun h => absurd h.length (Nat.not_lt.2 hlong)⟩
  have habsolute : Path.isAbsolute (ofNames (directory ++ [name])) = true := rfl
  simp only [hnul, hlong, if_false, habsolute, if_true, hwalk, walk_names [] hnames, hproper]
  constructor
  · rintro ⟨⟨hentered, hshort⟩, hnode⟩
    exact ⟨hentered, hnode, hnul, hshort, Nat.not_le.1 hlong⟩
  · intro h
    exact ⟨⟨h.entered, h.short⟩, h.node⟩

end FileTree
end ContentWeave
