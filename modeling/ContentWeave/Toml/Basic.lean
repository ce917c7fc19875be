import ContentWeave.Text.Basic

/-!
TOML documents.  Values are held together with how each table came about, since that decides what
may be added to it later in the document.
-/

namespace ContentWeave.Toml

inductive Scalar where
  | string (t : Text)
  | integer (n : Int)
  | float (x : Float)
  | boolean (b : Bool)
  /-- A number that no machine holds. -/
  | oversized
  /-- A date, a time, or both. -/
  | moment
deriving DecidableEq

/-- How a table came about. -/
inductive Origin where
  | header
  /-- As a table on the way to the table of a header. -/
  | implicit
  /-- As a table on the way of a dotted key, or defined by one after it was `implicit`. -/
  | dotted
  | braces
deriving DecidableEq

inductive Value where
  | scalar (s : Scalar)
  | array (items : List Value)
  /-- An array whose items are tables with headers of their own. -/
  | tables (items : List (List (Text × Value)))
  | table (origin : Origin) (fields : List (Text × Value))

abbrev Fields := List (Text × Value)

mutual

def Value.isHeld : Value → Bool
  | .scalar .oversized => false
  | .scalar _ => true
  | .array items => Value.areHeld items
  | .tables items => Value.areTablesHeld items
  | .table _ fields => Value.areFieldsHeld fields

def Value.areHeld : List Value → Bool
  | [] => true
  | item :: items => item.isHeld && Value.areHeld items

def Value.areTablesHeld : List (List (Text × Value)) → Bool
  | [] => true
  | fields :: items => Value.areFieldsHeld fields && Value.areTablesHeld items

def Value.areFieldsHeld : List (Text × Value) → Bool
  | [] => true
  | (_, value) :: fields => value.isHeld && Value.areFieldsHeld fields

end

structure Assignment where
  path : List Text
  value : Value

inductive Header where
  | table (path : List Text)
  | item (path : List Text)

structure Section where
  header : Header
  assignments : List Assignment

structure Document where
  assignments : List Assignment := []
  sections : List Section := []

end ContentWeave.Toml
