import ContentWeave.Text.Basic

/-!
Text as it is put into a page: the characters that a page would take for markup become entities,
and line ends become line breaks.
-/

namespace ContentWeave.Format

def escapeChar (c : Char) : Text :=
  if c = '&' then "&amp;".toList
  else if c = '<' then "&lt;".toList
  else if c = '>' then "&gt;".toList
  else if c = '"' then "&quot;".toList
  else if c = '\'' then "&#039;".toList
  else [c]

def escape (s : Text) : Text := s.flatMap escapeChar

def breakLines (s : Text) : Text :=
  s.flatMap fun c => if c = '\n' then "<br />\n".toList else [c]

end ContentWeave.Format
