import ContentWeave.Files.Environment
import ContentWeave.Files.Host
import ContentWeave.Table

/-!
A file tree in memory.  It answers like a disk: a name on the way that is missing or is no directory
is told apart, names have a greatest length, and `..` leads back up.
-/

namespace ContentWeave

inductive FileNode where
  | directory
  | file (content : Bytes)
deriving DecidableEq

/-- Files and directories under lists of names.  The root, with no names, is always a directory. -/
structure FileTree where
  nodes : Table (List Text) FileNode := {}

namespace FileTree

def maxName : Nat := 255

/-- The length, in bytes, that a path must stay below. -/
def maxPath : Nat := 4096

def node? (t : FileTree) (names : List Text) : Option FileNode :=
  if names = [] then some .directory else t.nodes.get? names

/-- The names that the parts of a path lead to from `here`; the last of them can be missing. -/
def walk (t : FileTree) : (here : List Text) → (parts : List Text) → Except FileError (List Text)
  | here, [] => .ok here
  | here, part :: parts =>
    match t.node? here with
    | none => .error .notFound
    | some (.file _) => .error .notDirectory
    | some .directory =>
      if part = [] ∨ part = ['.'] then walk t here parts
      else if part = ['.', '.'] then walk t here.dropLast parts
      else if maxName < Text.byteLength part then .error .nameTooLong
      else walk t (here ++ [part]) parts

def resolve (t : FileTree) (here : List Text) (path : Path) : Except FileError (List Text) :=
  if '\x00' ∈ path then .error .invalidName
  else if path = [] then .error .notFound
  else if maxPath ≤ Text.byteLength path then .error .nameTooLong
  else t.walk (if Path.isAbsolute path then [] else here) (Path.parts path)

def exists? (t : FileTree) (here : List Text) (path : Path) : Bool :=
  match t.resolve here path with
  | .ok names => (t.node? names).isSome
  | .error _ => false

def read (t : FileTree) (here : List Text) (path : Path) : Except FileError Bytes := do
  match t.node? (← t.resolve here path) with
  | none => throw .notFound
  | some .directory => throw .isDirectory
  | some (.file content) => return content

def write (t : FileTree) (here : List Text) (path : Path) (content : Bytes) :
    Except FileError FileTree := do
  let names ← t.resolve here path
  match t.node? names with
  | some .directory => throw .isDirectory
  | _ => return ⟨t.nodes.insert names (.file content)⟩

def makeAlong (t : FileTree) : (here : List Text) → (parts : List Text) → Except FileError FileTree
  | _, [] => .ok t
  | here, part :: parts =>
    if part = [] ∨ part = ['.'] then makeAlong t here parts
    else if part = ['.', '.'] then makeAlong t here.dropLast parts
    else if maxName < Text.byteLength part then .error .nameTooLong
    else
      let names := here ++ [part]
      match t.node? names with
      | some .directory => makeAlong t names parts
      | some (.file _) => .error (if parts = [] then .alreadyExists else .notDirectory)
      | none => makeAlong ⟨t.nodes.insert names .directory⟩ names parts

def makeDirectories (t : FileTree) (here : List Text) (path : Path) : Except FileError FileTree :=
  if '\x00' ∈ path then .error .invalidName
  else if maxPath ≤ Text.byteLength path then .error .nameTooLong
  else t.makeAlong (if Path.isAbsolute path then [] else here) (Path.parts path)

def prune (t : FileTree) (names : List Text) : FileTree :=
  ⟨t.nodes.filter fun key _ => !names.isPrefixOf key⟩

def removeTree (t : FileTree) (here : List Text) (path : Path) : Except FileError FileTree := do
  let names ← t.resolve here path
  match t.node? names with
  | none => throw .notFound
  | some (.file _) => throw .notDirectory
  | some .directory => return t.prune names

def filesBelow (t : FileTree) (names : List Text) : List (List Text × Bytes) :=
  t.nodes.entries.filterMap fun (key, node) =>
    match node with
    | .file content => if names.isPrefixOf key then some (key.drop names.length, content) else none
    | .directory => none

section

variable {m : Type → Type} [Monad m] [MonadStateOf FileTree m]

def ask {α : Type} (f : FileTree → Except FileError α) : ExceptT FileError m α := do
  ExceptT.mk (return f (← getThe FileTree))

def change (f : FileTree → Except FileError FileTree) : ExceptT FileError m Unit := do
  match f (← getThe FileTree) with
  | .ok t => set t
  | .error e => throw e

def host (here : List Text) (now : m Nat) (environment : Environment := {})
    (input : Bytes := []) : Host m where
  now := now
  currentDirectory := return Path.ofNames here
  valueOf name := return environment.valueOf? name
  input := return input
  exists? path := return (← getThe FileTree).exists? here path
  read path := ask (·.read here path)
  write path content := change (·.write here path content)
  replace path content := change (·.write here path content)
  makeDirectories path := change (·.makeDirectories here path)
  removeTree path := change (·.removeTree here path)

end

end FileTree
end ContentWeave
