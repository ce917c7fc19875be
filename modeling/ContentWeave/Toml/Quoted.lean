import ContentWeave.Json.Reader

/-!
Strings of TOML, on one line or on several.  Between double quotes a backslash begins an escape;
between single quotes every character stands for itself.
-/

namespace ContentWeave.Toml

/-- Whether a character may stand in a comment or a string: any but the controls, of which only the
tab may. -/
def isPlain (c : Char) : Bool := c == '\t' || (0x20 ≤ c.toNat && c.toNat != 0x7f)

def isSpace (c : Char) : Bool := c == ' ' || c == '\t'

def afterLineEnd? : Text → Option Text
  | '\n' :: s => some s
  | '\r' :: '\n' :: s => some s
  | _ => none

def charOf? (code : Nat) : Option Char := if code.isValidChar then some (Char.ofNat code) else none

def escaped? (c : Char) : Option Char :=
  if c = '"' ∨ c = '\\' then some c
  else if c = 'b' then some '\x08'
  else if c = 't' then some '\t'
  else if c = 'n' then some '\n'
  else if c = 'f' then some '\x0c'
  else if c = 'r' then some '\r'
  else if c = 'e' then some '\x1b'
  else none

def hexDigitsAfter? (c : Char) : Option Nat :=
  if c = 'x' then some 2 else if c = 'u' then some 4 else if c = 'U' then some 8 else none

def escapeAt? : Text → Option (Char × Nat)
  | [] => none
  | c :: s =>
    match hexDigitsAfter? c with
    | some count =>
      if (s.take count).length = count then
        match (Json.hexNumber? (s.take count)).bind charOf? with
        | some e => some (e, count + 1)
        | none => none
      else none
    | none => (escaped? c).map (·, 1)

def basicFrom : (skip : Nat) → Text → Option (Text × Text)
  | _, [] => none
  | skip + 1, _ :: s => basicFrom skip s
  | 0, c :: s =>
    if c = '"' then some ([], s)
    else if c = '\\' then
      match escapeAt? s with
      | some (e, count) => (basicFrom count s).map fun (t, rest) => (e :: t, rest)
      | none => none
    else if isPlain c then (basicFrom 0 s).map fun (t, rest) => (c :: t, rest)
    else none

def literal? (s : Text) : Option (Text × Text) :=
  let content := s.takeWhile (· != '\'')
  match s.dropWhile (· != '\'') with
  | _ :: rest => if content.all isPlain then some (content, rest) else none
  | [] => none

/-- The quotes that end a string on several lines: three, and before them up to two that belong to
the string.  Their count is given, and what follows is returned. -/
def closing? (quotes : Nat) (rest : Text) (quote : Char) : Option (Text × Text) :=
  if 3 ≤ quotes ∧ quotes ≤ 5 then some (List.replicate (quotes - 3) quote, rest) else none

def countBlank : Text → Nat
  | '\n' :: s => countBlank s + 1
  | '\r' :: '\n' :: s => countBlank s + 2
  | c :: s => if isSpace c then countBlank s + 1 else 0
  | [] => 0

def basicLinesFrom : (skip : Nat) → Text → Option (Text × Text)
  | _, [] => none
  | skip + 1, _ :: s => basicLinesFrom skip s
  | 0, c :: s =>
    if c = '"' then
      let more := (s.takeWhile (· == '"')).length
      if 2 ≤ more then closing? (more + 1) (s.drop more) '"'
      else (basicLinesFrom more s).map fun (t, rest) => (List.replicate (more + 1) '"' ++ t, rest)
    else if c = '\\' then
      match afterLineEnd? (s.dropWhile isSpace) with
      | some _ =>
        -- a backslash at the end of a line takes the blanks behind it with it
        basicLinesFrom (countBlank s) s
      | none =>
        match escapeAt? s with
        | some (e, count) => (basicLinesFrom count s).map fun (t, rest) => (e :: t, rest)
        | none => none
    else if isPlain c || c == '\n' || (c == '\r' && s.head? == some '\n') then
      (basicLinesFrom 0 s).map fun (t, rest) => (c :: t, rest)
    else none

def literalLinesFrom : (skip : Nat) → Text → Option (Text × Text)
  | _, [] => none
  | skip + 1, _ :: s => literalLinesFrom skip s
  | 0, c :: s =>
    if c = '\'' then
      let more := (s.takeWhile (· == '\'')).length
      if 2 ≤ more then closing? (more + 1) (s.drop more) '\''
      else (literalLinesFrom more s).map fun (t, rest) =>
        (List.replicate (more + 1) '\'' ++ t, rest)
    else if isPlain c || c == '\n' || (c == '\r' && s.head? == some '\n') then
      (literalLinesFrom 0 s).map fun (t, rest) => (c :: t, rest)
    else none

def dropLineEnd (s : Text) : Text := (afterLineEnd? s).getD s

def string? : Text → Option (Text × Text)
  | '"' :: '"' :: '"' :: s => basicLinesFrom 0 (dropLineEnd s)
  | '"' :: s => basicFrom 0 s
  | '\'' :: '\'' :: '\'' :: s => literalLinesFrom 0 (dropLineEnd s)
  | '\'' :: s => literal? s
  | _ => none

end ContentWeave.Toml
