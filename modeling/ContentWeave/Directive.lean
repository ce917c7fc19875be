import ContentWeave.Text.Blank
import ContentWeave.Text.Pattern
import ContentWeave.Text.Word

/-!
Directives of content.  A directive is written `[[body]]` with a body that holds no brackets, so
directives never nest.  Its body begins with an optional token character and a key; what the
token is decides what the directive stands for.
-/

namespace ContentWeave

inductive DirectiveKind where
  | chunk
  | form
  | unknown
deriving DecidableEq

structure Directive where
  raw : Text
  /-- The character in front of the key, if it is no word character. -/
  token : Option Char
  key : Text
deriving DecidableEq

namespace Directive

def isKeyChar (c : Char) : Bool := !Text.isBlank c && c != '[' && c != ']'

def endsKey (c : Char) : Bool := Text.isBlank c || c == ']'

def keyAt? (s : Text) : Option Text :=
  match s.takeWhile isKeyChar, s.dropWhile isKeyChar with
  | [], _ => none
  | key, c :: _ => if endsKey c then some key else none
  | _, [] => none

/-- The first token and key of a text.  Where a key can be read with a token in front of it and
also without one, the token counts. -/
def tokenAndKey? : Text → Option (Option Char × Text)
  | [] => none
  | c :: cs =>
    let withToken := if Text.isWordChar c || c == '[' then none else keyAt? cs
    match withToken, keyAt? (c :: cs) with
    | some key, _ => some (some c, key)
    | none, some key => some (none, key)
    | none, none => tokenAndKey? cs

def parse (raw : Text) : Directive :=
  match tokenAndKey? raw with
  | some (token, key) => ⟨raw, token, key⟩
  | none => ⟨raw, none, []⟩

def kind (d : Directive) : DirectiveKind :=
  match d.token with
  | some '$' => .chunk
  | some '%' => .form
  | _ => .unknown

def isBracket (c : Char) : Bool := c == '[' || c == ']'

def bodyAt? : Text → Option Text
  | '[' :: '[' :: s =>
    match s.takeWhile (!isBracket ·), s.dropWhile (!isBracket ·) with
    | [], _ => none
    | body, ']' :: ']' :: _ => some body
    | _, _ => none
  | _ => none

def enclose (body : Text) : Text := ['[', '['] ++ body ++ [']', ']']

theorem enclose_prefix_of_bodyAt? {s body : Text} (h : bodyAt? s = some body) :
    enclose body <+: s := by
  unfold bodyAt? at h
  split at h
  · rename_i t
    have ht := List.takeWhile_append_dropWhile (p := (!isBracket ·)) (l := t)
    split at h
    · simp at h
    · rename_i rest hd _
      cases h
      rw [hd] at ht
      have he : enclose (t.takeWhile (!isBracket ·)) ++ rest = '[' :: '[' ::
          (t.takeWhile (!isBracket ·) ++ ']' :: ']' :: rest) := by simp [enclose]
      rw [ht] at he
      exact ⟨rest, he⟩
    · simp at h
  · simp at h

def pattern : Text.Pattern Directive where
  first? s := (bodyAt? s).map fun body => parse (enclose body)
  raw := raw
  raw_of_first? := by
    intro s d h
    obtain ⟨body, hb, rfl⟩ := Option.map_eq_some_iff.1 h
    have hraw : (parse (enclose body)).raw = enclose body := by
      unfold parse
      split <;> rfl
    rw [hraw]
    exact ⟨by simp [enclose], enclose_prefix_of_bodyAt? hb⟩

def scan (s : Text) : List Directive := pattern.items s

end Directive
end ContentWeave
