import ContentWeave.Format.Builtin
import ContentWeave.Table

/-!
Formats are asked for by name, and a value under a name that stands for no format is shown as it is.
A registry is one way to keep formats: it holds them together with the settings that they share.
-/

namespace ContentWeave.Format

/-- Formats under names, however they are kept.  The first of the values is the one to show, the
others are its parameters. -/
structure Formats where
  has : Text → Bool
  invoke : Text → List Value → Except Error Text

namespace Formats

/-- A value under a format with text parameters; without a format, or with one that there is not,
it is shown as it is. -/
def apply (f : Formats) (v : Value) (format : Text) (parameters : List Text) : Except Error Text :=
  if format.isEmpty || !f.has format then .ok v.display
  else f.invoke format (v :: parameters.map .text)

def applyOrShow (f : Formats) (v : Value) (format : Text) (parameters : List Text) : Text :=
  match f.apply v format parameters with
  | .ok t => t
  | .error _ => v.display

end Formats

structure Registry where
  settings : Settings := {}
  formatters : Table Text Formatter := {}

namespace Registry

def register (r : Registry) (name : Text) (f : Formatter) : Registry :=
  { r with formatters := r.formatters.insert name f }

def builtins (settings : Settings) : Registry :=
  Builtin.all.foldl (fun r b => r.register b.name b.format) { settings }

def has (r : Registry) (name : Text) : Bool := r.formatters.contains name

def names (r : Registry) : List Text :=
  r.formatters.keys.mergeSort fun a b => decide (a ≤ b)

def invoke (r : Registry) (name : Text) : List Value → Except Error Text
  | [] => .error (if r.has name then .missingValue name else .unknown name)
  | v :: parameters =>
    match r.formatters.get? name with
    | some f => f r.settings v parameters
    | none => .error (.unknown name)

def formats (r : Registry) : Formats := ⟨r.has, r.invoke⟩

instance : Coe Registry Formats := ⟨formats⟩

def apply (r : Registry) (v : Value) (format : Text) (parameters : List Text) :
    Except Error Text :=
  r.formats.apply v format parameters

end Registry
end ContentWeave.Format
