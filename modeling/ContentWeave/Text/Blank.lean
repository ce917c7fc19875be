import ContentWeave.Text.Basic

/-!
Blank characters are those with the Unicode property White_Space; they separate the parts of a
directive and are trimmed from the ends of text.
-/

namespace ContentWeave.Text

/-- Whether a character has the property White_Space. -/
def isBlank (c : Char) : Bool :=
  c == ' ' || ('\t' ≤ c && c ≤ '\r') || c == '\u0085' || c == '\u00a0' || c == '\u1680'
    || ('\u2000' ≤ c && c ≤ '\u200a') || c == '\u2028' || c == '\u2029' || c == '\u202f'
    || c == '\u205f' || c == '\u3000'

def trimStart (s : Text) : Text := s.dropWhile isBlank

def trim (s : Text) : Text := trimBoth isBlank s

end ContentWeave.Text
