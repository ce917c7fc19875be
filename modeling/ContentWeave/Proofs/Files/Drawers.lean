import ContentWeave.Proofs.Files.Entries

/-!
# Directories of files

A drawer is a directory of files that is made when a file is put into it first. Putting a file into a
drawer changes the content of no other file.
-/

namespace ContentWeave

namespace FileTree

variable {t : FileTree} {here root drawer other names : List Text} {path : Path} {name : Text}
variable {content : Bytes}

def content? (t : FileTree) (names : List Text) : Option Bytes :=
  match t.node? names with
  | some (.file content) => some content
  | _ => none

def make (t : FileTree) (drawer : List Text) : FileTree :=
  ⟨if t.node? drawer = none then t.nodes.insert drawer .directory else t.nodes⟩

def put (t : FileTree) (drawer : List Text) (name : Text) (content : Bytes) : FileTree :=
  ⟨(t.make drawer).nodes.insert (drawer ++ [name]) (.file content)⟩

/-- Files are all that is in a drawer, and nothing is in a drawer that is missing. -/
structure Tidy (t : FileTree) (drawer : List Text) : Prop where
  not_file : ∀ content, t.node? drawer ≠ some (.file content)
  files : ∀ name, t.node? (drawer ++ [name]) ≠ some .directory
  nothing : t.node? drawer = none → ∀ name, t.node? (drawer ++ [name]) = none

theorem make_of_directory (h : t.node? drawer = some .directory) : t.make drawer = t := by
  rw [make, if_neg (by simp [h])]

theorem node?_make (t : FileTree) (drawer names : List Text) : (t.make drawer).node? names =
    if names = drawer ∧ t.node? drawer = none then some .directory else t.node? names := by
  by_cases hmissing : t.node? drawer = none
  · by_cases hnil : names = []
    · by_cases hdrawer : [] = drawer
      · simp [← hdrawer, node?] at hmissing
      · simp [hnil, node?, hdrawer]
    · simp only [make, hmissing, if_true, and_true]
      exact node?_insert t drawer names .directory hnil
  · simp [make, hmissing]

theorem node?_put (t : FileTree) (drawer : List Text) (name : Text) (content : Bytes)
    (names : List Text) : (t.put drawer name content).node? names =
      if names = drawer ++ [name] then some (.file content) else (t.make drawer).node? names := by
  by_cases hnil : names = []
  · simp [hnil, node?]
  · exact node?_insert (t.make drawer) (drawer ++ [name]) names (.file content) hnil

theorem content?_make (t : FileTree) (drawer names : List Text) :
    (t.make drawer).content? names = t.content? names := by
  rw [content?, content?, node?_make]
  by_cases hmade : names = drawer ∧ t.node? drawer = none
  · rw [if_pos hmade, hmade.1, hmade.2]
  · rw [if_neg hmade]

theorem content?_put (t : FileTree) (drawer : List Text) (name : Text) (content : Bytes)
    (names : List Text) : (t.put drawer name content).content? names =
      if names = drawer ++ [name] then some content else t.content? names := by
  rw [← content?_make t drawer, content?, content?, node?_put]
  by_cases hfile : names = drawer ++ [name]
  · rw [if_pos hfile, if_pos hfile]
  · rw [if_neg hfile, if_neg hfile]

theorem directory_of_make (hn : t.node? names = some .directory) :
    (t.make drawer).node? names = some .directory := by
  rw [node?_make]
  split_ifs
  · rfl
  · exact hn

theorem directory_of_put (h : t.node? (drawer ++ [name]) ≠ some .directory)
    (hn : t.node? names = some .directory) :
    (t.put drawer name content).node? names = some .directory := by
  rw [node?_put]
  split_ifs with hfile
  · exact absurd hn (hfile ▸ h)
  · exact directory_of_make hn

namespace Tidy

theorem of_missing (h : t.node? drawer = none)
    (hfiles : ∀ name, t.node? (drawer ++ [name]) = none) : t.Tidy drawer where
  not_file content := by simp [h]
  files name := by simp [hfiles]
  nothing _ := hfiles

theorem of_directory (h : t.node? drawer = some .directory)
    (hfiles : ∀ name, t.node? (drawer ++ [name]) ≠ some .directory) : t.Tidy drawer where
  not_file content := by simp [h]
  files := hfiles
  nothing hnone := by simp [h] at hnone

theorem congr {t' : FileTree} (h : t.Tidy drawer) (hself : t'.node? drawer = t.node? drawer)
    (hfiles : ∀ name, t'.node? (drawer ++ [name]) = t.node? (drawer ++ [name])) :
    t'.Tidy drawer where
  not_file := by simpa only [hself] using h.not_file
  files := by simpa only [hfiles] using h.files
  nothing := by simpa only [hself, hfiles] using h.nothing

theorem node?_eq_none_or (h : t.Tidy drawer) :
    t.node? drawer = none ∨ t.node? drawer = some .directory := by
  cases hnode : t.node? drawer with
  | none => exact .inl rfl
  | some node =>
    cases node with
    | directory => exact .inr rfl
    | file content => exact absurd hnode (h.not_file content)

theorem directory_make (h : t.Tidy drawer) : (t.make drawer).node? drawer = some .directory := by
  rw [node?_make]
  rcases h.node?_eq_none_or with hnone | hsome
  · rw [if_pos ⟨rfl, hnone⟩]
  · simp [hsome]

theorem make (h : t.Tidy drawer) : (t.make drawer).Tidy drawer := by
  refine of_directory h.directory_make fun name => ?_
  rw [node?_make, if_neg (by simp)]
  exact h.files name

theorem put (h : t.Tidy drawer) (name : Text) (content : Bytes) :
    (t.put drawer name content).Tidy drawer := by
  refine of_directory ?_ fun m => ?_
  · rw [node?_put, if_neg (by simp)]
    exact h.directory_make
  · rw [node?_put]
    split_ifs
    · simp
    · exact h.make.files m

section Beside

variable (h : t.Tidy other) (hne : other ≠ drawer) (hlength : other.length = drawer.length)

include h hne hlength

theorem make_beside : (t.make drawer).Tidy other := by
  refine h.congr ?_ fun name => ?_
  · rw [node?_make, if_neg (by simp [hne])]
  · have hdrawer : other ++ [name] ≠ drawer := by
      intro heq
      have hl := congrArg List.length heq
      simp [hlength] at hl
    rw [node?_make, if_neg (by simp [hdrawer])]

theorem put_beside (name : Text) (content : Bytes) : (t.put drawer name content).Tidy other := by
  refine (make_beside h hne hlength).congr ?_ fun m => ?_
  · have hfile : other ≠ drawer ++ [name] := by
      intro heq
      have hl := congrArg List.length heq
      simp [hlength] at hl
    rw [node?_put, if_neg hfile]
  · have hfile : other ++ [m] ≠ drawer ++ [name] := by
      intro heq
      exact hne (List.append_inj_left heq hlength)
    rw [node?_put, if_neg hfile]

end Beside

end Tidy

section Drawer

variable {label : Text} {size size' : ℕ} (h : t.Stands here path root)
  (hlabel : Path.FileName label size) (hname : Path.FileName name size')
  (hroom : Text.byteLength path + 1 + size + 1 + size' < maxPath)
  (htidy : t.Tidy (root ++ [label]))

include h hlabel hname hroom htidy

theorem read_drawer : t.read here (Path.join (Path.join path label) name) =
    match t.content? (root ++ [label] ++ [name]) with
    | some content => .ok content
    | none => .error .notFound := by
  have hlength := Path.byteLength_join_le path hlabel.slash_notMem
  rw [hlabel.size_eq] at hlength
  have hdrawer := h.resolve_join hlabel (by omega)
  have hwalk : t.resolve here (Path.join (Path.join path label) name) =
      t.walk (root ++ [label]) [name] := resolve_join hdrawer hname (by omega)
  rcases htidy.node?_eq_none_or with hnone | hsome
  · rw [walk, hnone] at hwalk
    rw [read, hwalk, content?, htidy.nothing hnone name]
    rfl
  · have hstands : t.Stands here (Path.join path label) (root ++ [label]) := ⟨hdrawer, hsome⟩
    rw [read_of_resolve (hstands.resolve_join hname (by omega)), content?]
    cases hnode : t.node? (root ++ [label] ++ [name]) with
    | none => rfl
    | some node =>
      cases node with
      | directory => exact absurd hnode (htidy.files name)
      | file content => rfl

theorem write_drawer (hdirectory : t.node? (root ++ [label]) = some .directory) (content : Bytes) :
    t.write here (Path.join (Path.join path label) name) content =
      .ok (t.put (root ++ [label]) name content) := by
  have hlength := Path.byteLength_join_le path hlabel.slash_notMem
  rw [hlabel.size_eq] at hlength
  have hstands : t.Stands here (Path.join path label) (root ++ [label]) :=
    ⟨h.resolve_join hlabel (by omega), hdirectory⟩
  rw [write_of_resolve (hstands.resolve_join hname (by omega)) (htidy.files name), put,
    make_of_directory hdirectory]

omit hname hroom in
theorem makeDirectories_drawer (hroom : Text.byteLength path + 1 + size < maxPath) :
    t.makeDirectories here (Path.join path label) = .ok (t.make (root ++ [label])) := by
  rw [h.makeDirectories_join hlabel hroom]
  rcases htidy.node?_eq_none_or with hnone | hsome
  · rw [hnone, make, if_pos hnone]
  · rw [hsome, make_of_directory hsome]

end Drawer

end FileTree
end ContentWeave
