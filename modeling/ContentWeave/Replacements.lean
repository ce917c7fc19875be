import ContentWeave.Text.Pattern

/-!
Replacements that are queued first and then made one after the other, each in the whole text as
the earlier ones left it.
-/

namespace ContentWeave

structure Replacements where
  pairs : List (Text × Text) := []

namespace Replacements

def add (r : Replacements) (word new : Text) : Replacements := ⟨r.pairs ++ [(word, new)]⟩

def size (r : Replacements) : Nat := r.pairs.length

def apply (r : Replacements) (s : Text) : Text :=
  r.pairs.foldl (fun s (word, new) => Text.replaceAll word new s) s

end Replacements
end ContentWeave
