import ContentWeave.Text.Basic

/-!
The options of the command line, and the commands that take them.
-/

namespace ContentWeave.Command

inductive Topic where
  | program
  | render
  | chunk
  | invalidate
  | help
deriving DecidableEq

inductive Switch where
  | config | chunkDirectory | noCache | verbose | contentKey | tag | help | version
deriving DecidableEq

def chunkDirectoryVariable : Text := "CB_CHUNKS_DIR".toList

namespace Topic

def commands : List Topic := [render, chunk, invalidate]

def name : Topic → Text
  | program => "cb".toList
  | render => "render".toList
  | chunk => "chunk".toList
  | invalidate => "invalidate".toList
  | help => "help".toList

def ofName? (name : Text) : Option Topic := commands.find? (·.name = name)

def switches : Topic → List Switch
  | program => [.config, .chunkDirectory, .noCache, .verbose, .help, .version]
  | render => [.config, .contentKey, .chunkDirectory, .tag, .noCache, .verbose, .help]
  | chunk | invalidate => [.config, .chunkDirectory, .noCache, .verbose, .help]
  | help => []

end Topic

namespace Switch

def long : Switch → Text
  | config => "config".toList
  | chunkDirectory => "chunks-dir".toList
  | noCache => "no-cache".toList
  | verbose => "verbose".toList
  | contentKey => "content-key".toList
  | tag => "tag".toList
  | help => "help".toList
  | version => "version".toList

def letter? : Switch → Option Char
  | config => some 'c'
  | verbose => some 'v'
  | help => some 'h'
  | version => some 'V'
  | _ => none

def value? : Switch → Option Text
  | config => some "CONFIG".toList
  | chunkDirectory => some "CHUNKS_DIR".toList
  | contentKey => some "CONTENT_KEY".toList
  | tag => some "TAGS".toList
  | _ => none

def takesValue (s : Switch) : Bool := s.value?.isSome

def isPath (s : Switch) : Bool := s = config ∨ s = chunkDirectory

def isRepeatable (s : Switch) : Bool := s = tag

end Switch
end ContentWeave.Command
