import ContentWeave.Number.Numeral
import ContentWeave.Text.Word

/-!
Form widgets.  The key of a form directive is a form number, an optional element id after `#`, and
an optional `;isModal`, the last in any mixture of case.
-/

namespace ContentWeave

structure FormSpec where
  formId : Int
  elementId : Option Text
  isModal : Bool
deriving DecidableEq

namespace FormSpec

/-- The largest form number; larger ones count as this one. -/
def maxFormId : Nat := 0x7fffffffffffffff

def isElementIdChar (c : Char) : Bool := Text.isIdentifierChar c || c == '-'

def modalWord : Text := "ismodal".toList

/-- A character without regard to case, as far as the letters of `modalWord` go; the long s is a
form of the letter s. -/
def foldCase (c : Char) : Char := if c = 'ſ' then 's' else c.toLower

/-- An element id after `#`, if there is one, and what follows; nothing if `#` stands alone. -/
def elementIdAt? : Text → Option (Option Text × Text)
  | '#' :: s =>
    match s.takeWhile isElementIdChar with
    | [] => none
    | id => some (some id, s.dropWhile isElementIdChar)
  | s => some (none, s)

def modal? : Text → Option Bool
  | [] => some false
  | ';' :: s => if s.map foldCase = modalWord then some true else none
  | _ => none

def parse (key : Text) : Option FormSpec :=
  match key.takeWhile Number.isDigit with
  | [] => none
  | digits => do
    let (elementId, rest) ← elementIdAt? (key.dropWhile Number.isDigit)
    let isModal ← modal? rest
    return ⟨(min (Text.foldDigits 0 digits) maxFormId : Nat), elementId, isModal⟩

def html (spec : FormSpec) : Text :=
  "<div class=\"cb-form\" data-form-id=\"".toList ++ Text.ofInt spec.formId ++ ['"']
    ++ (match spec.elementId with
      | some id => " id=\"".toList ++ id ++ ['"']
      | none => [])
    ++ (if spec.isModal then " data-modal=\"true\"".toList else [])
    ++ "></div>".toList

end FormSpec

abbrev FormRenderer := FormSpec → Text

def FormRenderer.hidden : FormRenderer := fun _ => []

def FormRenderer.html : FormRenderer := FormSpec.html

end ContentWeave
