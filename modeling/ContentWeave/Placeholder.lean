import ContentWeave.Text.Blank
import ContentWeave.Text.Pattern

/-!
Placeholders of templates.  A placeholder is written `[[+name:format,parameter,…]]`; format and
parameters may be left out.  The tokens `*` and `%` are reserved and stand for nothing.
-/

namespace ContentWeave

structure Placeholder where
  raw : Text
  token : Char
  name : Text
  format : Text
  parameters : List Text
deriving DecidableEq

namespace Placeholder

def isToken (c : Char) : Bool := c == '+' || c == '*' || c == '%'

def isNameChar (c : Char) : Bool := !Text.isBlank c && c != ':'

def cutAtComma (s : Text) : Text × Text := (s.takeWhile (· != ','), (s.dropWhile (· != ',')).drop 1)

def parametersOf (s : Text) : List Text :=
  let dense := s.filter (!Text.isBlank ·)
  if dense.isEmpty then [] else Text.splitOn ',' dense

def enclose (token : Char) (body : Text) : Text := ['[', '[', token] ++ body ++ [']', ']']

def ofBody? (token : Char) (body : Text) : Option Placeholder :=
  match body.takeWhile isNameChar, body.dropWhile isNameChar with
  | [], _ => none
  | name, rest =>
    let (format, parameters) := cutAtComma ((Text.stripStart [':'] rest).getD rest)
    some ⟨enclose token body, token, name, Text.trim format, parametersOf parameters⟩

def tokenAndBody? : Text → Option (Char × Text)
  | '[' :: '[' :: token :: s =>
    match s.dropWhile (· != ']') with
    | ']' :: ']' :: _ => if isToken token then some (token, s.takeWhile (· != ']')) else none
    | _ => none
  | _ => none

theorem enclose_prefix_of_tokenAndBody? {s body : Text} {token : Char}
    (h : tokenAndBody? s = some (token, body)) : enclose token body <+: s := by
  unfold tokenAndBody? at h
  split at h
  · rename_i t u
    have hu := List.takeWhile_append_dropWhile (p := (· != ']')) (l := u)
    split at h
    · rename_i rest hd
      split at h
      · cases h
        rw [hd] at hu
        have he : enclose token (u.takeWhile (· != ']')) ++ rest = '[' :: '[' :: token ::
            (u.takeWhile (· != ']') ++ ']' :: ']' :: rest) := by simp [enclose]
        rw [hu] at he
        exact ⟨rest, he⟩
      · simp at h
    · simp at h
  · simp at h

def pattern : Text.Pattern Placeholder where
  first? s := (tokenAndBody? s).bind fun found => ofBody? found.1 found.2
  raw := raw
  raw_of_first? := by
    intro s p h
    obtain ⟨⟨token, body⟩, hb, hp⟩ := Option.bind_eq_some_iff.1 h
    dsimp only at hp
    have hraw : p.raw = enclose token body := by
      unfold ofBody? at hp
      split at hp
      · simp at hp
      · cases hp
        rfl
    rw [hraw]
    exact ⟨by simp [enclose], enclose_prefix_of_tokenAndBody? hb⟩

def scan (template : Text) : List Placeholder := pattern.items template

def substitutes (p : Placeholder) : Bool := p.token == '+'

end Placeholder
end ContentWeave
