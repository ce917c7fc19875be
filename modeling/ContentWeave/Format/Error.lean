import ContentWeave.Text.Quoted

/-!
Why a value could not be formatted.
-/

namespace ContentWeave.Format

inductive Error where
  | unknown (format : Text)
  | missingValue (format : Text)
  | badValue (format value : Text)
  | badParameter (format parameter reason : Text)
deriving DecidableEq

def Error.message : Error → Text
  | .unknown format => "unknown format: ".toList ++ format
  | .missingValue format => "format ".toList ++ format ++ " requires a value".toList
  | .badValue format value =>
    "format ".toList ++ format ++ " cannot format value ".toList ++ Text.quoted value
  | .badParameter format parameter reason =>
    "format ".toList ++ format ++ ": invalid parameter ".toList ++ Text.quoted parameter
      ++ ": ".toList ++ reason

end ContentWeave.Format
