import ContentWeave.Text.Basic

/-!
Paths are text, with slashes between names.  Joining does not tidy: what is written in a
configuration file shows in the path.
-/

namespace ContentWeave

abbrev Path := Text

namespace Path

def isAbsolute : Path → Bool
  | '/' :: _ => true
  | _ => false

def join (directory path : Path) : Path :=
  if isAbsolute path ∨ directory = [] then path
  else if directory.getLast? = some '/' then directory ++ path
  else directory ++ '/' :: path

/-- A path in reverse order without the slashes and single dots at its end. -/
def trimReversed : Path → Path
  | '/' :: p => trimReversed p
  | '.' :: '/' :: p => trimReversed p
  | p => p

/-- The directory that a path lies in.  The root lies in none, and neither does the empty path. -/
def parent? (path : Path) : Option Path :=
  match trimReversed path.reverse with
  | [] => none
  | trimmed =>
    match trimReversed (trimmed.dropWhile (· != '/')) with
    | [] => some (if isAbsolute path then ['/'] else [])
    | directory => some directory.reverse

def chain : (count : Nat) → Path → List Path
  | 0, path => [path]
  | count + 1, path =>
    match parent? path with
    | some directory => path :: chain count directory
    | none => [path]

def ancestors (path : Path) : List Path := chain path.length path

def parts (path : Path) : List Text := Text.splitOn '/' path

def ofNames (names : List Text) : Path := '/' :: Text.joinWith ['/'] names

end Path
end ContentWeave
