import ContentWeave.Files.Error
import ContentWeave.Files.Path
import ContentWeave.Text.Utf8

/-!
What a program may ask of the machine that it runs on: files, the current directory, variables of
the environment, input, and the time.  The answers come in a monad of the caller's choice, so that
the same program runs on a disk and on a file tree in memory.
-/

namespace ContentWeave

structure Host (m : Type → Type) where
  /-- The time in milliseconds since the beginning of 1970. -/
  now : m Nat
  currentDirectory : m Path
  valueOf : Text → m (Option Text)
  input : ExceptT FileError m Bytes
  exists? : Path → m Bool
  read : Path → ExceptT FileError m Bytes
  write : Path → Bytes → ExceptT FileError m Unit
  /-- Puts a file in place as a whole: a reader sees all of it or what was there before. -/
  replace : Path → Bytes → ExceptT FileError m Unit
  makeDirectories : Path → ExceptT FileError m Unit
  removeTree : Path → ExceptT FileError m Unit

namespace Host

variable {m : Type → Type} [Monad m]

def decode (bytes : Bytes) : Except FileError Text :=
  match Text.ofUtf8? bytes with
  | some t => .ok t
  | none => .error .notText

def readText (host : Host m) (path : Path) : ExceptT FileError m Text := do
  ExceptT.mk (pure (decode (← host.read path)))

def inputText (host : Host m) : ExceptT FileError m Text := do
  ExceptT.mk (pure (decode (← host.input)))

end Host
end ContentWeave
