import ContentWeave.Command.Run
import Std.Time.DateTime.Timestamp

/-!
The program on a real machine.
-/

namespace ContentWeave

def errorCode : IO.Error → UInt32
  | .alreadyExists _ code _ | .otherError code _ | .resourceBusy code _ | .resourceVanished code _
  | .unsupportedOperation code _ | .hardwareFault code _ | .unsatisfiedConstraints code _
  | .illegalOperation code _ | .protocolError code _ | .timeExpired code _ | .interrupted _ code _
  | .noFileOrDirectory _ code _ | .invalidArgument _ code _ | .permissionDenied _ code _
  | .resourceExhausted _ code _ | .inappropriateType _ code _ | .noSuchThing _ code _ =>
    -- some parts of the machine give the number with a minus
    min code (0 - code)
  | .unexpectedEof | .userError _ => 0

def FileError.ofMachine (e : IO.Error) : FileError :=
  match errorCode e with
  | 2 => .notFound
  | 13 => .denied
  | 17 => .alreadyExists
  | 20 => .notDirectory
  | 21 => .isDirectory
  | 36 => .nameTooLong
  | _ => .other (toString e).toList

def onMachine {α : Type} (x : IO α) : ExceptT FileError IO α :=
  ExceptT.mk do
    try return .ok (← x)
    catch e => return .error (.ofMachine e)

def toBuffer (bytes : Bytes) : ByteArray := ⟨bytes.toArray⟩

partial def readAll (stream : IO.FS.Stream) (soFar : ByteArray) : IO ByteArray := do
  let more ← stream.read 65536
  if more.isEmpty then return soFar else readAll stream (soFar ++ more)

/-- A name for a file that stands beside another one until it takes its place. -/
def draftOf (path : String) : IO String := return path ++ s!".{← IO.monoNanosNow}"

def machine : Host IO where
  now := return (← Std.Time.Timestamp.now).toMillisecondsSinceUnixEpoch.val.toNat
  currentDirectory := return (toString (← IO.currentDir)).toList
  valueOf name := do
    -- the machine would read a name only up to its first zero
    if '\x00' ∈ name then return none
    else return (← IO.getEnv (String.ofList name)).map String.toList
  input := onMachine do return (← readAll (← IO.getStdin) ByteArray.empty).toList
  exists? path := do
    try
      let _ ← IO.FS.realPath (String.ofList path)
      return true
    catch _ => return false
  read path := onMachine do return (← IO.FS.readBinFile (String.ofList path)).toList
  write path content := onMachine (IO.FS.writeBinFile (String.ofList path) (toBuffer content))
  replace path content := onMachine do
    let path := String.ofList path
    let draft ← draftOf path
    IO.FS.writeBinFile draft (toBuffer content)
    IO.FS.rename draft path
  makeDirectories path := onMachine (IO.FS.createDirAll (String.ofList path))
  removeTree path := onMachine (IO.FS.removeDirAll (String.ofList path))

end ContentWeave

def main (arguments : List String) : IO UInt32 := do
  let outcome ← ContentWeave.Command.run ContentWeave.machine (arguments.map String.toList)
  let output ← IO.getStdout
  output.putStr (String.ofList outcome.output)
  output.flush
  let messages ← IO.getStderr
  messages.putStr (String.ofList outcome.messages)
  return outcome.code.toUInt32
