import ContentWeave.Text.Basic

/-!
The environment of a program is a list of entries, each a name, an equals sign and a value.  A name
is looked up in the entries as they are written, so that a name with an equals sign reaches into
the value of a shorter one.
-/

namespace ContentWeave

structure Environment where
  entries : List Text := []

namespace Environment

def ofPairs (pairs : List (Text × Text)) : Environment :=
  ⟨pairs.map fun (name, value) => name ++ '=' :: value⟩

/-- What follows a name and an equals sign in the first entry that begins with them.  The empty name
has no value. -/
def valueOf? (e : Environment) (name : Text) : Option Text :=
  if name = [] then none else e.entries.findSome? (Text.stripStart (name ++ ['=']))

end Environment
end ContentWeave
