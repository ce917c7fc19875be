import ContentWeave.Proofs.Files.Places

/-!
# What a directory has under a name

From a directory that a path leads to, every name leads on that can stand for something there. Some
names a disk refuses before it looks for them: those with too many bytes, on their own or together
with their path, and those with a character that ends texts.
-/

namespace ContentWeave

namespace Path

def refusal? (directory : Path) (name : Text) : Option FileError :=
  if '\x00' ∈ name then some .invalidName
  else if FileTree.maxPath ≤ Text.byteLength (join directory name) ∨
      FileTree.maxName < Text.byteLength name then some .nameTooLong
  else none

theorem refusal?_ne_notFound (directory : Path) (name : Text) :
    refusal? directory name ≠ some .notFound := by
  unfold refusal?
  split_ifs <;> simp

theorem refusal?_eq_none_iff {directory : Path} {name : Text} : refusal? directory name = none ↔
    '\x00' ∉ name ∧ Text.byteLength (join directory name) < FileTree.maxPath ∧
      Text.byteLength name ≤ FileTree.maxName := by
  unfold refusal?
  split_ifs with hnul hlong
  · simp [hnul]
  · simp only [hnul, not_false_eq_true, true_and, false_iff]
    omega
  · simp only [hnul, not_false_eq_true, true_and, true_iff]
    omega

theorem FileName.refusal?_eq_none {directory : Path} {name : Text} {size : ℕ}
    (h : FileName name size) (hroom : Text.byteLength directory + 1 + size < FileTree.maxPath) :
    refusal? directory name = none := by
  have hlength := byteLength_join_le directory h.slash_notMem
  have hsize := h.size_le
  rw [← h.size_eq] at hroom hsize
  exact refusal?_eq_none_iff.2 ⟨h.nul_notMem, by omega, hsize⟩

end Path

namespace FileTree

variable {t t' : FileTree} {here names : List Text} {path : Path} {name : Text}

/-- A path leads to a directory; the empty path leads to the current one. -/
structure Reaches (t : FileTree) (here : List Text) (path : Path) (names : List Text) : Prop where
  nul_notMem : '\x00' ∉ path
  walk : t.walk (if Path.isAbsolute path then [] else here) (Path.parts path) = .ok names
  node : t.node? names = some .directory

theorem Stands.reaches (h : t.Stands here path names) : t.Reaches here path names := by
  obtain ⟨-, hnul, hwalk⟩ := walk_of_resolve h.resolve
  exact ⟨hnul, hwalk, h.node⟩

namespace Reaches

theorem more (h : t.Reaches here path names) (hmore : ∀ names, t.node? names = some .directory →
    t'.node? names = some .directory) : t'.Reaches here path names :=
  ⟨h.nul_notMem, walk_of_more hmore h.walk, hmore names h.node⟩

variable (h : t.Reaches here path names)

include h

theorem way_join (hslash : '/' ∉ name) : ∃ ps, Path.parts (Path.join path name) = ps ++ [name] ∧
    t.walk (if Path.isAbsolute (Path.join path name) then [] else here) ps = .ok names := by
  by_cases hpath : path = []
  · subst hpath
    have hjoin : Path.join [] name = name := by simp [Path.join]
    have hhere : t.walk here [[]] = .ok names := h.walk
    rw [FileTree.walk] at hhere
    split at hhere
    · cases hhere
    · cases hhere
    · refine ⟨[], by rw [hjoin]; exact Text.splitOn_of_notMem hslash, ?_⟩
      rw [hjoin, Path.isAbsolute_eq_false hslash]
      simpa [FileTree.walk] using hhere
  · obtain ⟨ps, hjoin, hps⟩ := Path.parts_join hslash hpath
    refine ⟨ps, hjoin, ?_⟩
    rw [Path.isAbsolute_join hslash hpath]
    exact walk_of_parts hps h.walk

variable (hname : Path.EntryName name)

include hname

theorem walk_name : t.walk names [name] =
    if maxName < Text.byteLength name then .error .nameTooLong else .ok (names ++ [name]) := by
  rw [FileTree.walk, h.node]
  simp only [hname.not_stays, hname.not_up, if_false, FileTree.walk]

theorem resolve_join : t.resolve here (Path.join path name) =
    match Path.refusal? path name with
    | some e => .error e
    | none => .ok (names ++ [name]) := by
  have hnil : Path.join path name ≠ [] := by
    obtain ⟨front, hjoin, -⟩ := Path.join_front path hname.slash_notMem
    simp [hjoin, hname.ne_nil]
  have hnul := Path.nul_mem_join_iff hname.slash_notMem h.nul_notMem
  obtain ⟨ps, hjoin, hwalk⟩ := h.way_join hname.slash_notMem
  have hway : t.walk (if Path.isAbsolute (Path.join path name) then [] else here)
      (Path.parts (Path.join path name)) = t.walk names [name] := by
    rw [hjoin, walk_append, hwalk]
    rfl
  rw [resolve, Path.refusal?, hway, h.walk_name hname, if_neg hnil]
  by_cases hend : '\x00' ∈ name
  · rw [if_pos (hnul.2 hend), if_pos hend]
  rw [if_neg (fun hmem => hend (hnul.1 hmem)), if_neg hend]
  by_cases hpath : maxPath ≤ Text.byteLength (Path.join path name)
  · rw [if_pos hpath, if_pos (.inl hpath)]
  rw [if_neg hpath]
  by_cases hlong : maxName < Text.byteLength name
  · rw [if_pos hlong, if_pos (.inr hlong)]
  · rw [if_neg hlong, if_neg (not_or.2 ⟨hpath, hlong⟩)]

theorem read_join : t.read here (Path.join path name) =
    match Path.refusal? path name with
    | some e => .error e
    | none =>
      match t.node? (names ++ [name]) with
      | none => .error .notFound
      | some .directory => .error .isDirectory
      | some (.file content) => .ok content := by
  have hresolve := h.resolve_join hname
  cases hrefusal : Path.refusal? path name with
  | some e =>
    rw [hrefusal] at hresolve
    rw [read, hresolve]
    rfl
  | none =>
    rw [hrefusal] at hresolve
    exact read_of_resolve hresolve

variable (hborne : Path.refusal? path name = none)

include hborne

theorem resolve_borne : t.resolve here (Path.join path name) = .ok (names ++ [name]) := by
  rw [h.resolve_join hname, hborne]

theorem makeDirectories_join : t.makeDirectories here (Path.join path name) =
    match t.node? (names ++ [name]) with
    | some .directory => .ok t
    | some (.file _) => .error .alreadyExists
    | none => .ok ⟨t.nodes.insert (names ++ [name]) .directory⟩ := by
  obtain ⟨ps, hjoin, hwalk⟩ := h.way_join hname.slash_notMem
  have hresolve := h.resolve_borne hname hborne
  obtain ⟨-, hnul, -⟩ := walk_of_resolve hresolve
  obtain ⟨-, hlength, hshort⟩ := Path.refusal?_eq_none_iff.1 hborne
  rw [makeDirectories, if_neg hnul, if_neg (Nat.not_le.2 hlength), hjoin,
    makeAlong_of_walk hwalk h.node, makeAlong, if_neg hname.not_stays, if_neg hname.not_up,
    if_neg (Nat.not_lt.2 hshort)]
  dsimp only
  cases t.node? (names ++ [name]) with
  | none => rfl
  | some node =>
    cases node with
    | directory => rfl
    | file content => rfl

end Reaches

namespace Stands

variable {size : ℕ} (h : t.Stands here path names) (hname : Path.FileName name size)
  (hroom : Text.byteLength path + 1 + size < maxPath)

include h hname hroom

theorem resolve_join : t.resolve here (Path.join path name) = .ok (names ++ [name]) :=
  h.reaches.resolve_borne hname.entryName (hname.refusal?_eq_none hroom)

theorem makeDirectories_join : t.makeDirectories here (Path.join path name) =
    match t.node? (names ++ [name]) with
    | some .directory => .ok t
    | some (.file _) => .error .alreadyExists
    | none => .ok ⟨t.nodes.insert (names ++ [name]) .directory⟩ :=
  h.reaches.makeDirectories_join hname.entryName (hname.refusal?_eq_none hroom)

end Stands

end FileTree
end ContentWeave
