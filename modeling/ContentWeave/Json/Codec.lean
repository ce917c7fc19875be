import ContentWeave.Json.Reader
import ContentWeave.Table

/-!
Values kept as JSON text.  A codec writes the values of a type as documents and reads back the
documents that it could have written.
-/

namespace ContentWeave.Json

/-- A number of at most `limit`, written without a sign, a point or an exponent. -/
def toNat? (limit : Nat) : Json → Option Nat
  | number written =>
    if !written.isEmpty && written.all Number.isDigit then
      let n := Text.foldDigits 0 written
      if n ≤ limit then some n else none
    else none
  | _ => none

def toText? : Json → Option Text
  | string t => some t
  | _ => none

def toList? {α : Type} (f : Json → Option α) : Json → Option (List α)
  | array items => items.mapM f
  | _ => none

def namedText? : Option Text × Json → Option (Text × Text)
  | (some name, string t) => some (name, t)
  | _ => none

structure Codec (α : Type) where
  toJson : α → Json
  ofJson? : Json → Option α

namespace Codec

variable {α : Type}

def encode (c : Codec α) (a : α) : Text := write (c.toJson a)

def decode? (c : Codec α) (s : Text) : Option α := (parse? s).bind c.ofJson?

def text : Codec Text := ⟨string, toText?⟩

def optionalText : Codec (Option Text) where
  toJson
    | some t => string t
    | none => null
  ofJson?
    | null => some none
    | string t => some (some t)
    | _ => none

def bool : Codec Bool where
  toJson := Json.bool
  ofJson?
    | Json.bool b => some b
    | _ => none

def words : Codec (List Nat) where
  toJson ns := array (ns.map ofNat)
  ofJson? := toList? (toNat? 0xffffffff)

/-- Texts under names, written in the order of their names.  Of two fields with one name the later
counts. -/
def texts : Codec (Table Text Text) where
  toJson t := object (t.sorted.map fun (name, t) => (some name, string t))
  ofJson?
    | object fields => (fields.mapM namedText?).map Table.ofList
    | _ => none

end Codec
end ContentWeave.Json
