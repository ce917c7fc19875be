import ContentWeave.Text.Basic
import ContentWeave.Text.Word

/-!
References to variables inside of settings.  A reference in braces can name a default that counts
if the variable has no value: `${NAME:-default}`.  Once a setting has a brace behind a dollar, a
name behind a dollar is a reference too, and two dollars stand for one.  What a reference stands for
is not looked at again.
-/

namespace ContentWeave

inductive SettingPart where
  | char (c : Char)
  | reference (name : Text) (default : Option Text)
deriving DecidableEq

namespace SettingPart

def cutDefault? : Text → Option (Text × Text)
  | [] => none
  | ':' :: '-' :: s => some ([], s)
  | c :: s => (cutDefault? s).map fun (name, default) => (c :: name, default)

def ofBody (body : Text) : SettingPart :=
  match cutDefault? body with
  | some (c :: name, default) => reference (c :: name) (some default)
  | _ => reference body none

def afterDollar : Text → SettingPart × Nat
  | '$' :: _ => (char '$', 1)
  | '\x7b' :: s =>
    let body := s.takeWhile (· != '\x7d')
    if body.length < s.length then (ofBody body, body.length + 2) else (char '$', 0)
  | s =>
    match s.takeWhile Text.isWordChar with
    | [] => (char '$', 0)
    | name => (reference name none, name.length)

def scanFrom : (skip : Nat) → Text → List SettingPart
  | _, [] => []
  | skip + 1, _ :: s => scanFrom skip s
  | 0, c :: s =>
    if c = '$' then (afterDollar s).1 :: scanFrom (afterDollar s).2 s
    else char c :: scanFrom 0 s

/-- The parts of a setting.  Without a brace behind a dollar there are no references. -/
def scan (s : Text) : List SettingPart :=
  if Text.contains "$\x7b".toList s then scanFrom 0 s else s.map char

variable {m : Type → Type} [Monad m]

def value (lookup : Text → m (Option Text)) : SettingPart → ExceptT Text m Text
  | char c => return [c]
  | reference name default => do
    match ← lookup name, default with
    | some value, _ => return value
    | none, some default => return default
    | none, none => throw name

def expand (lookup : Text → m (Option Text)) (s : Text) : ExceptT Text m Text :=
  List.flatten <$> (scan s).mapM (value lookup)

end SettingPart
end ContentWeave
