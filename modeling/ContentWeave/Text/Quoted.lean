import ContentWeave.Text.Basic
import ContentWeave.Text.Property.Marks
import ContentWeave.Text.Property.Printing

/-!
Text as it is quoted in messages: between double quotes, with a backslash before quotes and
backslashes, short names for common controls, and code points in hexadecimal for whatever would
not show by itself.
-/

namespace ContentWeave.Text

def hex (n : Nat) : Text := Nat.toDigits 16 n

/-- Letters with the property Grapheme_Extend that take a place of their own. -/
def spacingExtenders : Ranges := [(0xFF9E, 0xFF9F)]

def fillers : Ranges := [(0x115F, 0x1160), (0x3164, 0x3164), (0xFFA0, 0xFFA0)]

/-- Whether a character shows by itself: it is a visible one, and not drawn over its neighbour. -/
def showsAlone (c : Char) : Bool :=
  !unprintable.has c && !fillers.has c && (!graphemeExtenders.has c || spacingExtenders.has c)

def quotedChar (c : Char) : Text :=
  if c = '"' then ['\\', '"']
  else if c = '\\' then ['\\', '\\']
  else if c = '\n' then ['\\', 'n']
  else if c = '\r' then ['\\', 'r']
  else if c = '\t' then ['\\', 't']
  else if c = '\x00' then ['\\', '0']
  else if 0x20 ≤ c.toNat ∧ c.toNat < 0x7f then [c]
  else if showsAlone c then [c]
  else ['\\', 'u', '\x7b'] ++ hex c.toNat ++ ['\x7d']

def quoted (s : Text) : Text := ['"'] ++ s.flatMap quotedChar ++ ['"']

end ContentWeave.Text
