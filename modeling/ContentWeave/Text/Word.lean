import ContentWeave.Text.Property.Letters
import ContentWeave.Text.Property.Numbers
import ContentWeave.Text.Property.Marks
import ContentWeave.Text.Property.Recent

/-!
Two classes of word characters.  Argument names are made of letters, numbers and underscores;
element ids also take combining marks and joiners, but no number that is not a decimal digit or a
letter, and only characters that version 16 of Unicode knows.  Both agree with the ASCII classes on
ASCII characters.
-/

namespace ContentWeave.Text

/-- Letters (property Alphabetic) and numbers (categories Nd, Nl, No). -/
def isAlphanumeric (c : Char) : Bool :=
  if c.toNat < 0x80 then c.isAlphanum
  else alphabetic.has c || decimalDigits.has c || otherNumbers.has c

def isWordChar (c : Char) : Bool := isAlphanumeric c || c == '_'

/-- Characters that element ids are made of, the hyphen apart: letters, combining marks, decimal
digits, connecting punctuation and the two joiners, as far as version 16 of Unicode has them. -/
def isIdentifierChar (c : Char) : Bool :=
  if c.toNat < 0x80 then c.isAlphanum || c == '_'
  else (alphabetic.has c || marks.has c || decimalDigits.has c || connectors.has c
    || joinControls.has c) && !addedInVersion17.has c

end ContentWeave.Text
