import ContentWeave.Text.Blank
import ContentWeave.Number.Numeral
import ContentWeave.Number.Shortest

/-!
Argument values.  A chunk call passes quoted text and bare numbers; both can be shown as text,
read as a number, and asked for their truth.
-/

namespace ContentWeave

inductive Value where
  | text (t : Text)
  | number (x : Float)
deriving DecidableEq

namespace Value

/-- The number that a bare literal begins with, blanks aside; zero if it begins with none. -/
def ofBare (raw : Text) : Value :=
  match Number.Numeral.scan (Text.trimStart raw) with
  | some (n, _) => .number n.toFloat
  | none => .number 0

def display : Value → Text
  | .text t => t
  | .number x => Number.text x

/-- The value as a number.  Text is one only if all of it, blanks at its ends aside, is a
number. -/
def toNumber? : Value → Option Float
  | .number x => some x
  | .text t => Number.read? (Text.trim t)

/-- Whether the value counts as true: text other than the empty one and `0`, and numbers other than
zero. -/
def isTrue : Value → Bool
  | .number x => x != 0
  | .text t => !t.isEmpty && t != ['0']

end Value
end ContentWeave
