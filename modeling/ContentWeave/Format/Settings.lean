import ContentWeave.Text.Basic

/-!
What a place is used to: separators of numbers, a currency, and words for yes and no.
-/

namespace ContentWeave.Format

structure Settings where
  decimalSeparator : Text := ['.']
  /-- Stands between groups of three digits; the empty text leaves numbers ungrouped. -/
  thousandSeparator : Text := [',']
  currencyCode : Text := ['U', 'S', 'D']
  booleanTrue : Text := ['Y', 'e', 's']
  booleanFalse : Text := ['N', 'o']
deriving DecidableEq

end ContentWeave.Format
