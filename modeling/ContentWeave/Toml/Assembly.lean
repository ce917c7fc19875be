import ContentWeave.Toml.Basic

/-!
From the assignments and headers of a document to its table.  No value is given twice, and a table
that is complete gets no further fields: one between braces is complete at once, one with a header
when the next header comes.  A table that only stands on the way to the table of a header can still
be defined, by a header of its own or by dotted keys, but not by both.
-/

namespace ContentWeave.Toml

def replaceField (name : Text) (value : Value) (fields : Fields) : Fields :=
  fields.map fun field => if field.1 = name then (name, value) else field

/-- How a table came about once a path has led through it, if that may be.  `dotted` tells whether
the path is that of a dotted key, which defines the tables on its way, or of a header, which leaves
them as they are. -/
def Origin.passed? (dotted : Bool) : Origin → Option Origin
  | .braces => none
  | .header => if dotted then none else some .header
  | .implicit => some (if dotted then .dotted else .implicit)
  | .dotted => some .dotted

/-- Changes the table that a path leads to, and makes the tables on the way that are missing.  The
way through an array of tables is through the last of them.  `dotted` tells whether the path is
that of a dotted key or of a header. -/
def alter (dotted : Bool) : (path : List Text) → (Origin → Fields → Option Fields) →
    Origin → Fields → Option Fields
  | [], f, origin, fields => f origin fields
  | name :: path, f, _, fields =>
    match fields.lookup name with
    | none =>
      let origin := if dotted then .dotted else .implicit
      (alter dotted path f origin []).map fun inner => fields ++ [(name, .table origin inner)]
    | some (.table origin inner) =>
      match origin.passed? dotted with
      | none => none
      | some origin => (alter dotted path f origin inner).map fun inner =>
        replaceField name (.table origin inner) fields
    | some (.tables items) =>
      match items.getLast? with
      | none => none
      | some last => (alter dotted path f .header last).map fun inner =>
        replaceField name (.tables (items.dropLast ++ [inner])) fields
    | some _ => none

def addField (name : Text) (value : Value) (fields : Fields) : Option Fields :=
  match fields.lookup name with
  | none => some (fields ++ [(name, value)])
  | some _ => none

def assign (origin : Origin) (fields : Fields) (a : Assignment) : Option Fields :=
  match a.path.getLast? with
  | none => none
  | some name =>
    match a.path.dropLast with
    | [] => addField name a.value fields
    | path => alter true path (fun origin fields =>
        if origin = .dotted then addField name a.value fields else none) origin fields

def assignAll (origin : Origin) (fields : Fields) (as : List Assignment) : Option Fields :=
  as.foldlM (assign origin) fields

def addSection (fields : Fields) (s : Section) : Option Fields :=
  match s.header with
  | .table path =>
    match path.getLast? with
    | none => none
    | some name => alter false path.dropLast (fun _ fields =>
        match fields.lookup name with
        | none => (assignAll .header [] s.assignments).map fun inner =>
          fields ++ [(name, .table .header inner)]
        | some (.table .implicit inner) => (assignAll .header inner s.assignments).map fun inner =>
          replaceField name (.table .header inner) fields
        | some _ => none) .header fields
  | .item path =>
    match path.getLast? with
    | none => none
    | some name => alter false path.dropLast (fun _ fields =>
        match fields.lookup name with
        | none => (assignAll .header [] s.assignments).map fun inner =>
          fields ++ [(name, .tables [inner])]
        | some (.tables items) => (assignAll .header [] s.assignments).map fun inner =>
          replaceField name (.tables (items ++ [inner])) fields
        | some _ => none) .header fields

def Document.fields? (d : Document) : Option Fields := do
  d.sections.foldlM addSection (← assignAll .header [] d.assignments)

end ContentWeave.Toml
