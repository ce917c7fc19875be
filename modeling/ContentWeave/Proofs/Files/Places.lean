import ContentWeave.Proofs.Files.Names

/-!
# Making places and finding them again

Where the directories on the way to a path are there or can be made, making them succeeds and adds
nothing but them. From a directory that a path leads to, plain names lead on: to a file, to a further
directory, or nowhere if there is none.
-/

namespace ContentWeave

namespace Text

theorem byteLength_of_all {s : Text} (h : ∀ c ∈ s, (String.utf8EncodeChar c).length = 1) :
    byteLength s = s.length := by
  induction s with
  | nil => rfl
  | cons c s ih =>
    have hc := h c (by simp)
    have hs := ih fun d hd => h d (by simp [hd])
    rw [String.length_utf8EncodeChar] at hc
    rw [byteLength_cons, hc, hs, List.length_cons, Nat.add_comm]

end Text

namespace Path

structure FileName (name : Text) (size : ℕ) : Prop extends PlainName name where
  nul_notMem : '\x00' ∉ name
  size_eq : Text.byteLength name = size
  size_le : size ≤ FileTree.maxName

def places : (here parts : List Text) → List (List Text)
  | _, [] => []
  | here, part :: parts =>
    if part = [] ∨ part = ['.'] then places here parts
    else if part = ['.', '.'] then places here.dropLast parts
    else (here ++ [part]) :: places (here ++ [part]) parts

/-- Where a way ends that begins at `here`: there, above it, or at or above a place on it. -/
theorem follow_prefix (here parts : List Text) :
    follow here parts <+: here ∨ ∃ place ∈ places here parts, follow here parts <+: place := by
  induction parts generalizing here with
  | nil => exact .inl (List.prefix_refl _)
  | cons part parts ih =>
    rw [follow, places]
    split_ifs with hstay hup
    · exact ih here
    · rcases ih here.dropLast with h | h
      · exact .inl (h.trans (List.dropLast_prefix here))
      · exact .inr h
    · rcases ih (here ++ [part]) with h | ⟨place, hplace, h⟩
      · exact .inr ⟨_, by simp, h⟩
      · exact .inr ⟨place, by simp [hplace], h⟩

variable {directory : Path} {name : Text}

section Join

variable (h : '/' ∉ name)

include h

variable (directory) in
theorem byteLength_join_le : Text.byteLength (join directory name) ≤
    Text.byteLength directory + 1 + Text.byteLength name := by
  obtain ⟨front, hjoin, hfront⟩ := join_front directory h
  have hslash : Text.byteLength ['/'] = 1 := rfl
  rw [hjoin, Text.byteLength_append]
  rcases hfront with rfl | rfl
  · omega
  · have hfront := Text.byteLength_append directory ['/']
    omega

theorem nul_mem_join_iff (hdirectory : '\x00' ∉ directory) :
    '\x00' ∈ join directory name ↔ '\x00' ∈ name := by
  obtain ⟨front, hjoin, hfront⟩ := join_front directory h
  rw [hjoin, List.mem_append, or_iff_right]
  rcases hfront with rfl | rfl
  · exact hdirectory
  · simp [hdirectory]

end Join

end Path

namespace FileTree

variable {t t' : FileTree} {here names parts : List Text} {path : Path} {name : Text} {size : ℕ}

theorem walk_append (t : FileTree) (here ps qs : List Text) :
    t.walk here (ps ++ qs) = t.walk here ps >>= fun there => t.walk there qs := by
  induction ps generalizing here with
  | nil => rfl
  | cons part ps ih =>
    rw [List.cons_append, walk, walk]
    split
    · rfl
    · rfl
    · split_ifs
      · exact ih here
      · exact ih here.dropLast
      · rfl
      · exact ih (here ++ [part])

theorem node?_of_walk (h : t.walk here parts = .ok names) (hn : t.node? names = some .directory) :
    t.node? here = some .directory := by
  cases parts with
  | nil =>
    cases h
    exact hn
  | cons part parts =>
    rw [walk] at h
    split at h
    · cases h
    · cases h
    · assumption

theorem makeAlong_of_walk (h : t.walk here parts = .ok names)
    (hn : t.node? names = some .directory) (rest : List Text) :
    t.makeAlong here (parts ++ rest) = t.makeAlong names rest := by
  induction parts generalizing here with
  | nil =>
    cases h
    rfl
  | cons part parts ih =>
    rw [walk] at h
    split at h
    · cases h
    · cases h
    · rw [List.cons_append, makeAlong]
      by_cases hstay : part = [] ∨ part = ['.']
      · rw [if_pos hstay] at h ⊢
        exact ih h
      by_cases hup : part = ['.', '.']
      · rw [if_neg hstay, if_pos hup] at h ⊢
        exact ih h
      by_cases hlong : maxName < Text.byteLength part
      · rw [if_neg hstay, if_neg hup, if_pos hlong] at h
        cases h
      rw [if_neg hstay, if_neg hup, if_neg hlong] at h ⊢
      dsimp only
      rw [node?_of_walk h hn]
      exact ih h

theorem walk_of_resolve (h : t.resolve here path = .ok names) :
    path ≠ [] ∧ '\x00' ∉ path ∧
      t.walk (if Path.isAbsolute path then [] else here) (Path.parts path) = .ok names := by
  unfold resolve at h
  split at h
  · cases h
  rename_i hnul
  split at h
  · cases h
  rename_i hnil
  split at h
  · cases h
  exact ⟨hnil, hnul, h⟩

theorem walk_of_parts {ps : List Text} (hparts : parts = ps ∨ parts = ps ++ [[]])
    (h : t.walk here parts = .ok names) : t.walk here ps = .ok names := by
  rcases hparts with rfl | rfl
  · exact h
  · rw [walk_append] at h
    cases hps : t.walk here ps with
    | error e =>
      rw [hps] at h
      cases h
    | ok there =>
      rw [hps] at h
      have hstay : t.walk there [[]] = .ok names := h
      rw [walk] at hstay
      split at hstay
      · cases hstay
      · cases hstay
      · simp only [true_or, if_true, walk] at hstay
        exact hstay

theorem way_join (h : t.resolve here path = .ok names) (hname : Path.FileName name size)
    (hroom : Text.byteLength path + 1 + size < maxPath) :
    ∃ ps, Path.parts (Path.join path name) = ps ++ [name] ∧
      t.walk (if Path.isAbsolute path then [] else here) ps = .ok names ∧
      Path.isAbsolute (Path.join path name) = Path.isAbsolute path ∧
      '\x00' ∉ Path.join path name ∧ Path.join path name ≠ [] ∧
      Text.byteLength (Path.join path name) < maxPath := by
  obtain ⟨hd, hnul, hwalk⟩ := walk_of_resolve h
  have hslash := hname.slash_notMem
  obtain ⟨ps, hjoin, hparts⟩ := Path.parts_join hslash hd
  have hnil : Path.join path name ≠ [] := by
    obtain ⟨front, hfront, -⟩ := Path.join_front path hslash
    simp [hfront, hname.ne_nil]
  have hlength := Path.byteLength_join_le path hslash
  rw [hname.size_eq] at hlength
  exact ⟨ps, hjoin, walk_of_parts hparts hwalk, Path.isAbsolute_join hslash hd,
    fun hmem => hname.nul_notMem ((Path.nul_mem_join_iff hslash hnul).1 hmem), hnil, by omega⟩

theorem resolve_join (h : t.resolve here path = .ok names) (hname : Path.FileName name size)
    (hroom : Text.byteLength path + 1 + size < maxPath) :
    t.resolve here (Path.join path name) = t.walk names [name] := by
  obtain ⟨ps, hjoin, hwalk, habsolute, hnul, hnil, hlength⟩ := way_join h hname hroom
  rw [resolve, if_neg hnul, if_neg hnil, if_neg (Nat.not_le.2 hlength), habsolute, hjoin,
    walk_append, hwalk]
  rfl

theorem read_of_resolve (h : t.resolve here path = .ok names) : t.read here path =
    match t.node? names with
    | none => .error .notFound
    | some .directory => .error .isDirectory
    | some (.file content) => .ok content := by
  rw [read, h]
  rfl

theorem write_of_resolve (h : t.resolve here path = .ok names)
    (hn : t.node? names ≠ some .directory) (content : Bytes) :
    t.write here path content = .ok ⟨t.nodes.insert names (.file content)⟩ := by
  simp only [write, h, bind, Except.bind]
  cases hnode : t.node? names with
  | none => rfl
  | some node =>
    cases node with
    | directory => exact absurd hnode hn
    | file content => rfl

theorem walk_of_more (hmore : ∀ names, t.node? names = some .directory →
      t'.node? names = some .directory) (h : t.walk here parts = .ok names) :
    t'.walk here parts = .ok names := by
  induction parts generalizing here with
  | nil => exact h
  | cons part parts ih =>
    rw [walk] at h ⊢
    split at h
    · cases h
    · cases h
    · rename_i hdirectory
      rw [hmore here hdirectory]
      dsimp only
      split_ifs at h ⊢
      · exact ih h
      · exact ih h
      · exact ih h

structure Stands (t : FileTree) (here : List Text) (path : Path) (names : List Text) : Prop where
  resolve : t.resolve here path = .ok names
  node : t.node? names = some .directory

namespace Stands

theorem exists?_eq_true (h : t.Stands here path names) : t.exists? here path = true := by
  simp [exists?, h.resolve, h.node]

theorem more (h : t.Stands here path names) (hmore : ∀ names, t.node? names = some .directory →
    t'.node? names = some .directory) : t'.Stands here path names := by
  refine ⟨?_, hmore _ h.node⟩
  have hresolve := h.resolve
  unfold FileTree.resolve at hresolve ⊢
  split_ifs at hresolve ⊢ <;> exact walk_of_more hmore hresolve

end Stands

end FileTree
end ContentWeave
