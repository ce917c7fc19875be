import ContentWeave.Proofs.Cache.OnDisk
import ContentWeave.Proofs.Files.Drawers

/-!
# Trees in which a cache is installed

The root of the cache is a directory, and its entries and the versions of its tags are in two drawers
there. What a file of the cache is read as depends on the contents of files alone, and storing one
changes the content of that file.
-/

namespace ContentWeave

theorem Path.FileName.nameOf (s : Text) : FileName (Digest.nameOf s) 64 where
  toPlainName := Digest.plainName_nameOf s
  nul_notMem h := by
    obtain ⟨n, hn, heq⟩ := Bytes.mem_hex h
    have hdigits : ∀ n < 16, '\x00' ≠ Bytes.hexDigit n := by decide
    exact hdigits n hn heq
  size_eq := by
    have hdigits : ∀ n < 16, (String.utf8EncodeChar (Bytes.hexDigit n)).length = 1 := by decide
    rw [Text.byteLength_of_all, Digest.nameOf, Bytes.length_hex, Digest.length_sha256]
    intro c hc
    obtain ⟨n, hn, rfl⟩ := Bytes.mem_hex hc
    exact hdigits n hn
  size_le := by decide

namespace DirectoryCache

inductive Drawer
  | entries
  | tags
deriving DecidableEq

namespace Drawer

def label : Drawer → Text
  | entries => "entries".toList
  | tags => "tags".toList

def path (root : Path) (drawer : Drawer) : Path := Path.join root drawer.label

def names (here : List Text) (root : Path) (drawer : Drawer) : List Text :=
  Path.namesFrom here root ++ [drawer.label]

theorem fileName_label (drawer : Drawer) : ∃ size ≤ 7, Path.FileName drawer.label size := by
  cases drawer with
  | entries =>
    exact ⟨7, Nat.le_refl 7, .of_all (by decide) (by decide), by decide, by decide, by decide⟩
  | tags => exact ⟨4, by decide, .of_all (by decide) (by decide), by decide, by decide, by decide⟩

variable {here : List Text} {root : Path} {drawer drawer' : Drawer}

theorem names_ne_nil : drawer.names here root ≠ [] := by simp [names]

theorem names_injective (h : drawer.names here root = drawer'.names here root) :
    drawer = drawer' := by
  have hlabel : drawer.label = drawer'.label := by simpa [names] using h
  cases drawer <;> cases drawer' <;> first | rfl | exact absurd hlabel (by decide)

theorem file_injective {name name' : Text}
    (h : drawer.names here root ++ [name] = drawer'.names here root ++ [name']) :
    drawer = drawer' ∧ name = name' := by
  obtain ⟨hnames, hname⟩ := List.append_inj' h rfl
  exact ⟨names_injective hnames, (List.cons.inj hname).1⟩

end Drawer

/-- The bytes that a file name needs below the root of a cache: two slashes, and the names of a drawer
and of a file in it. -/
def room : ℕ := 73

/-- A cache that is ready for use: its root is there, and nothing else is in its drawers than their
files. -/
structure Installed (t : FileTree) (here : List Text) (root : Path) : Prop where
  length : Text.byteLength root + room < FileTree.maxPath
  stands : t.Stands here root (Path.namesFrom here root)
  tidy : ∀ drawer : Drawer, t.Tidy (drawer.names here root)

def fileIn (t : FileTree) (here : List Text) (root : Path) (drawer : Drawer) (s : Text) :
    Option Bytes :=
  t.content? (drawer.names here root ++ [Digest.nameOf s])

def putIn (t : FileTree) (here : List Text) (root : Path) (drawer : Drawer) (s : Text)
    (content : Bytes) : FileTree :=
  t.put (drawer.names here root) (Digest.nameOf s) content

namespace Installed

variable {t : FileTree} {here : List Text} {root : Path} (h : Installed t here root)

include h

theorem read_file (drawer : Drawer) (s : Text) :
    t.read here (Path.join (drawer.path root) (Digest.nameOf s)) =
      match fileIn t here root drawer s with
      | some content => .ok content
      | none => .error .notFound := by
  obtain ⟨size, hsize, hlabel⟩ := drawer.fileName_label
  have hlength := h.length
  unfold room at hlength
  exact FileTree.read_drawer h.stands hlabel (.nameOf s) (by omega) (h.tidy drawer)

theorem makeDirectories_drawer (drawer : Drawer) :
    t.makeDirectories here (drawer.path root) = .ok (t.make (drawer.names here root)) := by
  obtain ⟨size, hsize, hlabel⟩ := drawer.fileName_label
  have hlength := h.length
  unfold room at hlength
  exact FileTree.makeDirectories_drawer h.stands hlabel (h.tidy drawer) (by omega)

theorem write_file {drawer : Drawer} (s : Text) (content : Bytes)
    (hdirectory : t.node? (drawer.names here root) = some .directory) :
    t.write here (Path.join (drawer.path root) (Digest.nameOf s)) content =
      .ok (putIn t here root drawer s content) := by
  obtain ⟨size, hsize, hlabel⟩ := drawer.fileName_label
  have hlength := h.length
  unfold room at hlength
  exact FileTree.write_drawer h.stands hlabel (.nameOf s) (by omega) (h.tidy drawer) hdirectory
    content

theorem make (drawer : Drawer) : Installed (t.make (drawer.names here root)) here root where
  length := h.length
  stands := h.stands.more fun _ hn => FileTree.directory_of_make hn
  tidy other := by
    by_cases hother : other = drawer
    · subst hother
      exact (h.tidy other).make
    · exact (h.tidy other).make_beside (fun heq => hother (Drawer.names_injective heq))
        (by simp [Drawer.names])

theorem putIn (drawer : Drawer) (s : Text) (content : Bytes) :
    Installed (putIn t here root drawer s content) here root where
  length := h.length
  stands := h.stands.more fun _ hn =>
    FileTree.directory_of_put ((h.tidy drawer).files (Digest.nameOf s)) hn
  tidy other := by
    by_cases hother : other = drawer
    · subst hother
      exact (h.tidy other).put _ _
    · exact (h.tidy other).put_beside (fun heq => hother (Drawer.names_injective heq))
        (by simp [Drawer.names]) _ _

theorem directory_make (drawer : Drawer) :
    (t.make (drawer.names here root)).node? (drawer.names here root) = some .directory :=
  (h.tidy drawer).directory_make

theorem putIn_make (drawer : Drawer) (s : Text) (content : Bytes) :
    DirectoryCache.putIn (t.make (drawer.names here root)) here root drawer s content =
      DirectoryCache.putIn t here root drawer s content := by
  rw [DirectoryCache.putIn, DirectoryCache.putIn, FileTree.put, FileTree.put,
    FileTree.make_of_directory (h.directory_make drawer)]

end Installed

theorem fileIn_make (t : FileTree) (here : List Text) (root : Path) (drawer other : Drawer)
    (s : Text) : fileIn (t.make (drawer.names here root)) here root other s =
      fileIn t here root other s := FileTree.content?_make ..

theorem fileIn_putIn (t : FileTree) (here : List Text) (root : Path) (drawer other : Drawer)
    (s s' : Text) (content : Bytes) :
    fileIn (putIn t here root drawer s content) here root other s' =
      if other = drawer ∧ Digest.nameOf s' = Digest.nameOf s then some content
      else fileIn t here root other s' := by
  rw [fileIn, putIn, FileTree.content?_put]
  by_cases h : other = drawer ∧ Digest.nameOf s' = Digest.nameOf s
  · obtain ⟨rfl, hname⟩ := h
    simp [hname]
  · have hne : other.names here root ++ [Digest.nameOf s'] ≠
        drawer.names here root ++ [Digest.nameOf s] := fun heq => h (Drawer.file_injective heq)
    rw [if_neg hne, if_neg h]
    rfl

end DirectoryCache
end ContentWeave
