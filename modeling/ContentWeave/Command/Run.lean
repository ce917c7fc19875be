import ContentWeave.Command.Help
import ContentWeave.Command.Invocation
import ContentWeave.Command.Project

/-!
Running commands.
-/

namespace ContentWeave

structure Outcome where
  /-- The exit code: one after a failure, two if the arguments are at fault. -/
  code : Nat := 0
  output : Text := []
  messages : Text := []
deriving DecidableEq

namespace Outcome

def closeLine (t : Text) : Text := if t.getLast? = some '\n' then t else t ++ ['\n']

def result (t : Text) : Outcome := { output := closeLine t }

def done (message : Text) : Outcome := { messages := message ++ ['\n'] }

def failed (e : RunError) : Outcome :=
  { code := 1, messages := "Error: ".toList ++ e.message ++ ['\n'] }

def halted (fallback : Option Path) : Command.Halt → Outcome
  | .misuse =>
    { code := 2, messages := "error: bad arguments\n\nUsage: ".toList
        ++ Command.Topic.program.usage ++ "\n\nFor more information, try '--help'.\n".toList }
  | .help topic => { output := topic.helpText (fallback.getD []) }
  | .version => { output := "cb ".toList ++ Project.version ++ ['\n'] }

end Outcome

namespace Invocation

variable {m : Type → Type} [Monad m]

def overrides (i : Invocation) : Overrides where
  chunkDirectory := i.chunkDirectory
  cacheEnabled := if i.noCache then some false else none

def project (i : Invocation) (host : Host m) : ExceptT RunError m (Project m) :=
  Project.load host i.config i.overrides

/-- The content to compile: that of a file, or the input in place of the file `-`. -/
def content (host : Host m) (file : Path) : ExceptT RunError m Text :=
  (if file = ['-'] then host.inputText else host.readText file).adapt .io

def perform (i : Invocation) (host : Host m) : ExceptT RunError m Outcome :=
  match i.command with
  | .render file contentKey tags => do
    let content ← content host file
    let project ← i.project host
    let compiled ← Project.compile
      (project.compiler.compile content (contentKey.getD file) ⟨tags⟩)
    return .result compiled
  | .chunk key => do
    let project ← i.project host
    match ← Project.compile (project.compiler.templates.fetch key) with
    | some template => return .result template
    | none => throw (.chunkNotFound key)
  | .invalidate tags => do
    let project ← i.project host
    (project.cache.invalidate tags).adapt .cache
    return .done ("Invalidated ".toList ++ Text.ofNat tags.length ++ " tag(s)".toList)

def run (i : Invocation) (host : Host m) : m Outcome := do
  match ← (i.perform host).run with
  | .ok outcome => return outcome
  | .error e => return .failed e

end Invocation

namespace Command

variable {m : Type → Type} [Monad m]

def run (host : Host m) (arguments : List Text) : m Outcome := do
  let fallback ← host.valueOf chunkDirectoryVariable
  match Invocation.ofArguments arguments fallback with
  | .ok invocation => invocation.run host
  | .error halt => return .halted fallback halt

end Command
end ContentWeave
