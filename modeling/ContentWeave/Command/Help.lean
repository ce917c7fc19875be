import ContentWeave.Command.Switch

/-!
Help texts.  Names are in a column of their own; what is said about them starts behind the longest
name and is broken between words where a line would be longer than a hundred characters.
-/

namespace ContentWeave.Command

def lineWidth : Nat := 100

/-- The words put into lines of at most `width` characters, after a line that is begun already. -/
def fillFrom (width : Nat) (line : Text) : List Text → List Text
  | [] => [line]
  | word :: words =>
    if line.length + 1 + word.length ≤ width then fillFrom width (line ++ ' ' :: word) words
    else line :: fillFrom width word words

def fill (width : Nat) (s : Text) : List Text :=
  match Text.splitOn ' ' s with
  | [] => []
  | word :: words => fillFrom width word words

def table (rows : List (Text × Text)) : Text :=
  let longest := (rows.map fun row => row.1.length).foldl max 0
  let start := longest + 4
  rows.flatMap fun (name, about) =>
    let padding := List.replicate (longest + 2 - name.length) ' '
    let indent := '\n' :: List.replicate start ' '
    ' ' :: ' ' :: name ++ padding ++ Text.joinWith indent (fill (lineWidth - start) about) ++ ['\n']

namespace Switch

def usage (s : Switch) : Text :=
  (match s.letter? with
    | some c => ['-', c, ',', ' ']
    | none => List.replicate 4 ' ')
  ++ '-' :: '-' :: s.long
  ++ (match s.value? with
    | some value => ' ' :: '<' :: value ++ ['>']
    | none => [])

def about (s : Switch) (fallback : Text) : Text :=
  match s with
  | config => "Path to configuration file (default: auto-discover cb.toml)".toList
  | chunkDirectory => "Chunk directory (overrides config) [env: ".toList ++ chunkDirectoryVariable
    ++ '=' :: fallback ++ [']']
  | noCache => "Disable caching".toList
  | verbose => "Enable verbose output".toList
  | contentKey => "Identity of the content in the result cache (default: the file path)".toList
  | tag => "Dependency tag bound to cached results. Repeatable".toList
  | help => "Print help".toList
  | version => "Print version".toList

end Switch

namespace Topic

def about : Topic → Text
  | program => "Content blocks compiler - CLI".toList
  | render => "Compile chunk and form directives in a content file".toList
  | chunk => "Print the raw template of a chunk".toList
  | invalidate => "Invalidate cached entries bound to tags".toList
  | help => "Print this message or the help of the given subcommand(s)".toList

def usage : Topic → Text
  | program => "cb [OPTIONS] <COMMAND>".toList
  | render => "cb render [OPTIONS] <FILE>".toList
  | chunk => "cb chunk [OPTIONS] <KEY>".toList
  | invalidate => "cb invalidate [OPTIONS] <TAGS>...".toList
  | help => "cb help [COMMAND]...".toList

def parts : Topic → Text × List (Text × Text)
  | program => ("Commands:".toList, (commands ++ [help]).map fun c => (c.name, c.about))
  | render => ("Arguments:".toList,
    [("<FILE>".toList, "Content file to compile, or \x60-\x60 for stdin".toList)])
  | chunk => ("Arguments:".toList, [("<KEY>".toList, "Chunk key".toList)])
  | invalidate => ("Arguments:".toList, [("<TAGS>...".toList,
    "Tags to invalidate (\x60chunks\x60 drops every cached chunk lookup)".toList)])
  | help => ("Arguments:".toList,
    [("[COMMAND]...".toList, "Print help for the subcommand(s)".toList)])

def optionsText (topic : Topic) (fallback : Text) : Text :=
  match topic.switches with
  | [] => []
  | switches => "\nOptions:\n".toList ++ table (switches.map fun s => (s.usage, s.about fallback))

def helpText (topic : Topic) (fallback : Text) : Text :=
  topic.about ++ "\n\nUsage: ".toList ++ topic.usage ++ "\n\n".toList
    ++ topic.parts.1 ++ '\n' :: table topic.parts.2 ++ topic.optionsText fallback

end Topic
end ContentWeave.Command
