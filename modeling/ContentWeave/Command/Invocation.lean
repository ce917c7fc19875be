import ContentWeave.Command.Reading
import ContentWeave.Files.Path

/-!
What a user asks of the program: a command, and the options that all commands have.  These can stand
in front of the command as well as behind it, where they count more.
-/

namespace ContentWeave

inductive Command where
  | render (file : Path) (contentKey : Option Text) (tags : List Text)
  | chunk (key : Text)
  | invalidate (tags : List Text)
deriving DecidableEq

structure Invocation where
  command : Command
  config : Option Path := none
  chunkDirectory : Option Path := none
  noCache : Bool := false
  verbose : Bool := false
deriving DecidableEq

namespace Invocation

open Command (Topic Switch Halt Given)

def commandOf (topic : Topic) (g : Given) : Except Halt Command :=
  match topic, g.words with
  | .render, [file] => .ok (.render file (g.value? .contentKey) (g.valuesOf .tag))
  | .chunk, [key] => .ok (.chunk key)
  | .invalidate, tag :: tags => .ok (.invalidate (tag :: tags))
  | _, _ => .error .misuse

/-- The chunk directory: the one behind the command, the one in front of it, or the one of the
environment.  What the environment says is read for each level that gives none, and an empty path is
a fault there too. -/
def chunkDirectoryOf (outer inner : Given) (fallback : Option Path) :
    Except Halt (Option Path) :=
  match inner.value? .chunkDirectory, outer.value? .chunkDirectory, fallback with
  | some directory, some _, _ => .ok (some directory)
  | _, _, some [] => .error .misuse
  | some directory, none, _ => .ok (some directory)
  | none, some directory, _ => .ok (some directory)
  | none, none, fallback => .ok fallback

def ofLevels (topic : Topic) (outer inner : Given) (fallback : Option Path) :
    Except Halt Invocation := do
  let command ← commandOf topic inner
  let chunkDirectory ← chunkDirectoryOf outer inner fallback
  return {
    command
    chunkDirectory
    config := (inner.value? .config).or (outer.value? .config)
    noCache := decide (Switch.noCache ∈ inner.flags ++ outer.flags)
    verbose := decide (Switch.verbose ∈ inner.flags ++ outer.flags) }

def helpOn : List Text → Halt
  | [] => .help .program
  | [name] => match (Topic.commands ++ [Topic.help]).find? (·.name = name) with
    | some topic => .help topic
    | none => .misuse
  | _ => .misuse

def readFrom (fallback : Option Path) (outer : Given) : List Text → Except Halt Invocation
  | [] => .error .misuse
  | argument :: arguments => do
    let next ← outer.step .program argument
    if next.onlyWords then .error .misuse
    else match next.words with
      | [] => readFrom fallback next arguments
      | name :: _ =>
        match Topic.ofName? name with
        | some topic => ofLevels topic next (← Given.ofArguments topic arguments) fallback
        | none => .error (if name = Topic.help.name then helpOn arguments else .misuse)

def ofArguments (arguments : List Text) (fallback : Option Path) : Except Halt Invocation :=
  readFrom fallback {} arguments

end Invocation
end ContentWeave
