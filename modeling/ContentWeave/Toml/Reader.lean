import ContentWeave.Toml.Assembly
import ContentWeave.Toml.Quoted
import ContentWeave.Toml.Scalar

/-!
Reading TOML documents, line by line.
-/

namespace ContentWeave.Toml

def skipSpace (s : Text) : Text := s.dropWhile isSpace

def isBareChar (c : Char) : Bool := c.isAlphanum || c == '_' || c == '-'

def skipComment : Text → Text
  | '#' :: s => s.dropWhile isPlain
  | s => s

def skipLines : (fuel : Nat) → Text → Text
  | 0, s => s
  | fuel + 1, s =>
    let s := skipComment (skipSpace s)
    match afterLineEnd? s with
    | some s => skipLines fuel s
    | none => s

def skipBlank (s : Text) : Text := skipLines (s.length + 1) s

def keyPart? (s : Text) : Option (Text × Text) :=
  match s with
  | '"' :: s => basicFrom 0 s
  | '\'' :: s => literal? s
  | s =>
    match s.takeWhile isBareChar with
    | [] => none
    | part => some (part, s.dropWhile isBareChar)

def keyParts? : (limit : Nat) → Text → Option (List Text × Text)
  | 0, _ => none
  | limit + 1, s =>
    match keyPart? s with
    | none => none
    | some (part, s) =>
      match skipSpace s with
      | '.' :: s => (keyParts? limit (skipSpace s)).map fun (parts, rest) => (part :: parts, rest)
      | s => some ([part], s)

/-- How deep values can stand inside of each other, and how many parts a key can have. -/
def maxDepth : Nat := 80

def key? (s : Text) : Option (List Text × Text) := keyParts? maxDepth s

def isScalarChar (c : Char) : Bool :=
  c.isAlphanum || c == '_' || c == '-' || c == '+' || c == '.' || c == ':'

def bareScalar? (s : Text) : Option (Scalar × Text) :=
  let word := s.takeWhile isScalarChar
  let rest := s.dropWhile isScalarChar
  match afterDate? word, rest with
  | some [], ' ' :: c :: rest' =>
    if Number.isDigit c then
      let second := (c :: rest').takeWhile isScalarChar
      (scalar? (word ++ ' ' :: second)).map (·, (c :: rest').dropWhile isScalarChar)
    else (scalar? word).map (·, rest)
  | _, _ => (scalar? word).map (·, rest)

mutual

/-- The value that a text begins with, and what follows.  `fuel` bounds the steps, and `depth` is
how much deeper values can stand inside of this one. -/
def value? : (fuel depth : Nat) → Text → Option (Value × Text)
  | 0, _, _ => none
  | fuel + 1, depth, s =>
    match s, depth with
    | '[' :: s, depth + 1 => (items? fuel depth s).map fun (items, rest) => (.array items, rest)
    | '\x7b' :: s, depth + 1 =>
      match assignments? fuel depth s with
      | none => none
      | some (as, rest) => (assignAll .braces [] as).map fun fields => (.table .braces fields, rest)
    | '"' :: _, _ => (string? s).map fun (t, rest) => (.scalar (.string t), rest)
    | '\'' :: _, _ => (string? s).map fun (t, rest) => (.scalar (.string t), rest)
    | s, _ => (bareScalar? s).map fun (v, rest) => (.scalar v, rest)

def items? : (fuel depth : Nat) → Text → Option (List Value × Text)
  | 0, _, _ => none
  | fuel + 1, depth, s =>
    match skipBlank s with
    | ']' :: rest => some ([], rest)
    | s =>
      match value? fuel depth s with
      | none => none
      | some (item, s) =>
        match skipBlank s with
        | ',' :: s => (items? fuel depth s).map fun (items, rest) => (item :: items, rest)
        | ']' :: rest => some ([item], rest)
        | _ => none

def assignments? : (fuel depth : Nat) → Text → Option (List Assignment × Text)
  | 0, _, _ => none
  | fuel + 1, depth, s =>
    match skipBlank s with
    | '\x7d' :: rest => some ([], rest)
    | s =>
      match assignment? skipBlank fuel depth s with
      | none => none
      | some (a, s) =>
        match skipBlank s with
        | ',' :: s => (assignments? fuel depth s).map fun (as, rest) => (a :: as, rest)
        | '\x7d' :: rest => some ([a], rest)
        | _ => none

/-- The assignment that a text begins with, and what follows.  `skip` leaves out what may stand
around the sign between key and value. -/
def assignment? (skip : Text → Text) : (fuel depth : Nat) → Text → Option (Assignment × Text)
  | 0, _, _ => none
  | fuel + 1, depth, s =>
    match key? s with
    | none => none
    | some (path, s) =>
      match skip s with
      | '=' :: s => (value? fuel depth (skip s)).map fun (value, rest) => (⟨path, value⟩, rest)
      | _ => none

end

def header? (s : Text) : Option (Header × Text) :=
  match s with
  | '[' :: '[' :: s =>
    match key? (skipSpace s) with
    | some (path, ']' :: ']' :: rest) => some (.item path, rest)
    | _ => none
  | '[' :: s =>
    match key? (skipSpace s) with
    | some (path, ']' :: rest) => some (.table path, rest)
    | _ => none
  | _ => none

def restOfLine? (s : Text) : Option Text :=
  match skipComment (skipSpace s) with
  | [] => some []
  | s => afterLineEnd? s

def Document.addAssignment (a : Assignment) (d : Document) : Document :=
  { d with assignments := a :: d.assignments }

/-- The document with a header at its front: the assignments in front of all headers are now below
this one. -/
def Document.addHeader (h : Header) (d : Document) : Document :=
  { assignments := [], sections := ⟨h, d.assignments⟩ :: d.sections }

def document? : (fuel : Nat) → Text → Option Document
  | 0, _ => none
  | fuel + 1, s =>
    match skipBlank s with
    | [] => some {}
    | '[' :: s =>
      match header? ('[' :: s) with
      | none => none
      | some (h, s) =>
        match restOfLine? s with
        | none => none
        | some s => (document? fuel s).map (·.addHeader h)
    | s =>
      match assignment? skipSpace (2 * s.length + 2) maxDepth s with
      | none => none
      | some (a, s) =>
        match restOfLine? s with
        | none => none
        | some s => (document? fuel s).map (·.addAssignment a)

def parse? (s : Text) : Option Fields :=
  let s := (Text.stripStart ['\ufeff'] s).getD s
  (document? (s.length + 1) s).bind Document.fields?

end ContentWeave.Toml
