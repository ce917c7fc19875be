import ContentWeave.Text.Slice
import ContentWeave.Value

/-!
Numbers in place.  The numeral that a bare literal begins with is looked for among the bytes of the
literal, which is then cut behind it; what was cut off is read as a number of its own.
-/

namespace ContentWeave.Number

def isDigitByte (b : UInt8) : Bool := 0x30 ≤ b && b ≤ 0x39

def isSignByte (b : UInt8) : Bool := b == 0x2b || b == 0x2d

def isPointByte (b : UInt8) : Bool := b == 0x2e

def isMarkByte (b : UInt8) : Bool := b == 0x65 || b == 0x45

def digitsEnd (bytes : Bytes) (place : Nat) : Nat :=
  place + ((bytes.drop place).takeWhile isDigitByte).length

def signEnd (bytes : Bytes) (place : Nat) : Nat :=
  if bytes[place]?.any isSignByte then place + 1 else place

/-- Where the digits behind a point at this place end, if there is one. -/
def fractionEnd? (bytes : Bytes) (place : Nat) : Option Nat :=
  if bytes[place]?.any isPointByte then some (digitsEnd bytes (place + 1)) else none

/-- Where an exponent at this place ends.  A mark without digits is none. -/
def exponentEnd (bytes : Bytes) (place : Nat) : Nat :=
  if bytes[place]?.any isMarkByte then
    let start := signEnd bytes (place + 1)
    let stop := digitsEnd bytes start
    if start < stop then stop else place
  else place

/-- Where the longest numeral at the start of some bytes ends, if one is there.  A sign or a point
without digits is none. -/
def numeralEnd? (bytes : Bytes) : Option Nat :=
  let start := signEnd bytes 0
  let wholeEnd := digitsEnd bytes start
  let (digits, stop) :=
    match fractionEnd? bytes wholeEnd with
    | some stop =>
      let digits := (wholeEnd - start) + (stop - (wholeEnd + 1))
      (digits, if 0 < digits then stop else wholeEnd)
    | none => (wholeEnd - start, wholeEnd)
  if digits = 0 then none else some (exponentEnd bytes stop)

def cutNumeral? (s : Text) : Except Text.Misplaced (Option Text) :=
  match numeralEnd? s.toUtf8 with
  | some stop => do return some (← Text.slice s 0 stop)
  | none => return none

end ContentWeave.Number

namespace ContentWeave.Value

/-- `ofBare` in place.  What was cut off counts as zero if it does not read as a number. -/
def ofBareInPlace (raw : Text) : Except Text.Misplaced Value := do
  match ← Number.cutNumeral? (Text.trimStart raw) with
  | some numeral => return .number ((Number.read? numeral).getD 0)
  | none => return .number 0

end ContentWeave.Value
