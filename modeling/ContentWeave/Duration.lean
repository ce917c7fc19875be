import ContentWeave.Text.Basic

/-!
Spans of time in words, in the largest unit of which they hold at least one.
-/

namespace ContentWeave.Duration

def thousandths (n : Nat) : Text :=
  let digits := Text.ofNat n
  let padded := List.replicate (3 - digits.length) '0' ++ digits
  match padded.reverse.dropWhile (· == '0') with
  | [] => []
  | kept => '.' :: kept.reverse

def text (milliseconds : Nat) : Text :=
  if milliseconds = 0 then "0ns".toList
  else if milliseconds < 1000 then Text.ofNat milliseconds ++ "ms".toList
  else Text.ofNat (milliseconds / 1000) ++ thousandths (milliseconds % 1000) ++ ['s']

end ContentWeave.Duration
