import ContentWeave.Table
import ContentWeave.Text.Blank
import ContentWeave.Text.Word
import ContentWeave.Value

/-!
Arguments of a chunk call.  They are written `name='text'`, `name=12` or `name=12|'default'`
behind the key.  A quoted literal may hold quotes itself: it ends at the first quote that something
follows which can follow a literal.  What cannot be read as quoted is read as bare.
-/

namespace ContentWeave

inductive Literal where
  | quoted (content : Text)
  | bare (content : Text)
deriving DecidableEq

def Literal.value? : Literal → Option Value
  | .quoted [] => none
  | .bare [] => none
  | .quoted content => some (.text content)
  | .bare content => some (.ofBare content)

structure Assignment where
  name : Text
  value : Literal
  default : Option Literal
deriving DecidableEq

namespace Assignment

def isEnd (c : Char) : Bool := c == ']' || Text.isBlank c

def isValueEnd (c : Char) : Bool := isEnd c || c == '|'

/-- Whether a quote behind this content can close it.  The content is given last character
first. -/
def canClose : Text → Bool
  | [] => false
  | last :: _ => last != '\\'

def endAt? (stop : Char → Bool) : Text → Option (Char × Text)
  | [] => none
  | c :: rest => if stop c then some (c, rest) else none

/-- A quoted literal of which `reversed` is the content so far, last character first; the character
`stop` accepts after it, and what follows that.  The content is not empty, does not end in a
backslash, and holds no line end but as its last character. -/
def quotedFrom? (stop : Char → Bool) (reversed : Text) : Text → Option (Literal × Char × Text)
  | [] => none
  | c :: cs =>
    match if c = '\'' ∧ canClose reversed then endAt? stop cs else none with
    | some (e, rest) => some (.quoted reversed.reverse, e, rest)
    | none =>
      match reversed with
      | '\n' :: _ => none
      | _ => quotedFrom? stop (c :: reversed) cs

def quotedAt? (stop : Char → Bool) : Text → Option (Literal × Char × Text)
  | '\'' :: s => quotedFrom? stop [] s
  | _ => none

def bareAt? (stop : Char → Bool) (s : Text) : Option (Literal × Char × Text) :=
  match s.dropWhile (!stop ·) with
  | c :: rest => some (.bare (s.takeWhile (!stop ·)), c, rest)
  | [] => none

def literalAt? (stop : Char → Bool) (s : Text) : Option (Literal × Char × Text) :=
  (quotedAt? stop s).or (bareAt? stop s)

def valuesAt? (s : Text) : Option (Literal × Option Literal × Text) :=
  match literalAt? isValueEnd s with
  | none => none
  | some (value, c, rest) =>
    if c = '|' then
      (literalAt? isEnd rest).map fun (default, _, rest) => (value, some default, rest)
    else some (value, none, rest)

/-- The assignments of a text, of which `skip` characters belong to an assignment already read.
`reversed` is the run of word characters that comes right before, last character first.  Reading
stops at an assignment that nothing ends. -/
def allFrom : (skip : Nat) → (reversed : Text) → Text → List Assignment
  | _, _, [] => []
  | skip + 1, _, _ :: cs => allFrom skip [] cs
  | 0, reversed, c :: cs =>
    if c = '=' then
      match valuesAt? cs with
      | none => []
      | some (value, default, rest) =>
        ⟨reversed.reverse, value, default⟩ :: allFrom (cs.length - rest.length) [] cs
    else if Text.isWordChar c then allFrom 0 (c :: reversed) cs
    else allFrom 0 [] cs

def all (raw : Text) : List Assignment := allFrom 0 [] raw

end Assignment

structure ArgumentSet where
  values : Table Text Value := {}

namespace ArgumentSet

def defaultName (name : Text) : Text := name ++ "-default".toList

def insert (a : ArgumentSet) (name : Text) (v : Value) : ArgumentSet := ⟨a.values.insert name v⟩

def insertDefault (a : ArgumentSet) (name : Text) (v : Value) : ArgumentSet :=
  a.insert (defaultName name) v

def assign (a : ArgumentSet) (e : Assignment) : ArgumentSet :=
  let a := match e.value.value? with
    | some v => a.insert e.name v
    | none => a
  match e.default.bind Literal.value? with
  | some v => a.insertDefault e.name v
  | none => a

def parse (raw : Text) : ArgumentSet := (Assignment.all raw).foldl assign {}

def get? (a : ArgumentSet) (name : Text) : Option Value := a.values.get? name

def defaultFor? (a : ArgumentSet) (name : Text) : Option Value := a.get? (defaultName name)

def resolve? (a : ArgumentSet) (name : Text) : Option Value := (a.get? name).or (a.defaultFor? name)

def size (a : ArgumentSet) : Nat := a.values.size

end ArgumentSet
end ContentWeave
