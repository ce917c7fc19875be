import ContentWeave.Argument
import ContentWeave.Format.Registry
import ContentWeave.Placeholder
import ContentWeave.Replacements

/-!
Filling a chunk template: every placeholder gives way to the argument that it names.
-/

namespace ContentWeave.Template

/-- What a placeholder stands for: the argument or default of its name in its format, and nothing
if there is neither or if the token is not `+`. -/
def valueOf (formats : Format.Formats) (arguments : ArgumentSet) (p : Placeholder) : Text :=
  if p.substitutes then
    match arguments.resolve? p.name with
    | some v => formats.applyOrShow v p.format p.parameters
    | none => []
  else []

def replacements (formats : Format.Formats) (arguments : ArgumentSet) (template : Text) :
    Replacements :=
  ⟨(Placeholder.scan template).map fun p => (p.raw, valueOf formats arguments p)⟩

def fill (formats : Format.Formats) (arguments : ArgumentSet) (template : Text) : Text :=
  (replacements formats arguments template).apply template

end ContentWeave.Template
