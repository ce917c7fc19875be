import ContentWeave.Text.Utf8

/-!
JSON documents and their compact written form.
-/

namespace ContentWeave

inductive Json where
  | null
  | bool (b : Bool)
  | number (written : Text)
  | string (t : Text)
  /-- A string written with half of a surrogate pair, which no text equals. -/
  | unpaired
  | array (items : List Json)
  /-- Fields in the order in which they are written.  A name can come twice, and a name that no text
  equals is left out. -/
  | object (fields : List (Option Text × Json))
deriving Inhabited

namespace Json

def escapeChar (c : Char) : Text :=
  if c = '"' then ['\\', '"']
  else if c = '\\' then ['\\', '\\']
  else if c = '\n' then ['\\', 'n']
  else if c = '\r' then ['\\', 'r']
  else if c = '\t' then ['\\', 't']
  else if c = '\x08' then ['\\', 'b']
  else if c = '\x0c' then ['\\', 'f']
  else if c.toNat < 0x20 then
    ['\\', 'u', '0', '0', Bytes.hexDigit (c.toNat / 16), Bytes.hexDigit (c.toNat % 16)]
  else [c]

def writeString (s : Text) : Text := '"' :: s.flatMap escapeChar ++ ['"']

def writeUnpaired : Text := "\"\\ud800\"".toList

def writeName (name : Option Text) : Text := (name.map writeString).getD writeUnpaired

mutual

def write : Json → Text
  | null => "null".toList
  | bool true => "true".toList
  | bool false => "false".toList
  | number written => written
  | string t => writeString t
  | unpaired => writeUnpaired
  | array items => '[' :: writeItems items ++ [']']
  | object fields => '\x7b' :: writeFields fields ++ ['\x7d']

def writeItems : List Json → Text
  | [] => []
  | [item] => write item
  | item :: next :: items => write item ++ ',' :: writeItems (next :: items)

def writeFields : List (Option Text × Json) → Text
  | [] => []
  | [(name, value)] => writeName name ++ ':' :: write value
  | (name, value) :: next :: fields =>
    writeName name ++ ':' :: write value ++ ',' :: writeFields (next :: fields)

end

def ofNat (n : Nat) : Json := number (Text.ofNat n)

def ofTexts (ts : List Text) : Json := array (ts.map string)

end Json
end ContentWeave
