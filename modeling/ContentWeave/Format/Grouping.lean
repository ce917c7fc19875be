import ContentWeave.Format.Settings
import ContentWeave.Number.Fixed
import ContentWeave.Number.Shortest

/-!
Numbers as people read them: digits in groups of three, a separator before the decimals, and a
minus sign only if some digit shown is not zero.
-/

namespace ContentWeave.Format

def groupsOfReversed : Text → List Text
  | a :: b :: c :: d :: rest => [c, b, a] :: groupsOfReversed (d :: rest)
  | short => [short.reverse]

def groups (digits : Text) : List Text := (groupsOfReversed digits.reverse).reverse

def groupedExact (x : Number.Exact) (decimals : Nat) (settings : Settings) : Text :=
  let d := x.fixedDigits decimals
  (if x.negative && d.digits.any (· != '0') then ['-'] else [])
    ++ Text.joinWith settings.thousandSeparator (groups d.whole)
    ++ (if d.fraction.isEmpty then [] else settings.decimalSeparator ++ d.fraction)

def grouped (x : Float) (decimals : Nat) (settings : Settings) : Text :=
  match Number.exactOf? x with
  | some e => groupedExact e decimals settings
  | none => Number.text x

def groupedWhole (x : Float) (settings : Settings) : Text :=
  match Number.exactOf? x with
  | some e => groupedExact e.truncate 0 settings
  | none => Number.text x

end ContentWeave.Format
