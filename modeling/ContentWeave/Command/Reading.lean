import ContentWeave.Command.Switch

/-!
Reading the arguments of a level of the command line, one argument after the other: those of the
program up to the name of a command, or those of a command.
-/

namespace ContentWeave.Command

inductive Halt where
  | misuse
  | help (topic : Topic)
  | version
deriving DecidableEq

structure Use where
  switch : Switch
  attached : Option Text
deriving DecidableEq

/-- The uses of letters behind one hyphen; the first option that takes a value takes the rest. -/
def usesOfLetters (topic : Topic) : Text → Option (List Use)
  | [] => some []
  | c :: s =>
    match topic.switches.find? (·.letter? = some c) with
    | none => none
    | some switch =>
      if switch.takesValue then
        match s with
        | [] => some [⟨switch, none⟩]
        | _ => some [⟨switch, some ((Text.stripStart ['='] s).getD s)⟩]
      else (usesOfLetters topic s).map (⟨switch, none⟩ :: ·)

def useOfName (topic : Topic) (s : Text) : Option Use :=
  let attached := match s.dropWhile (· != '=') with
    | [] => none
    | _ :: value => some value
  match topic.switches.find? (·.long = s.takeWhile (· != '=')) with
  | none => none
  | some switch =>
    if attached.isSome && !switch.takesValue then none else some ⟨switch, attached⟩

inductive Argument where
  | word (w : Text)
  | onlyWords
  | uses (us : List Use)
  | unknown
deriving DecidableEq

def Argument.ofText (topic : Topic) : Text → Argument
  | ['-', '-'] => onlyWords
  | '-' :: '-' :: s => match useOfName topic s with
    | some use => uses [use]
    | none => unknown
  | '-' :: c :: s => match usesOfLetters topic (c :: s) with
    | some us => uses us
    | none => unknown
  | s => word s

structure Given where
  flags : List Switch := []
  values : List (Switch × Text) := []
  words : List Text := []
  pending : Option Switch := none
  onlyWords : Bool := false
deriving DecidableEq

namespace Given

def value? (g : Given) (s : Switch) : Option Text := g.values.lookup s

def valuesOf (g : Given) (s : Switch) : List Text :=
  g.values.filterMap fun (t, value) => if t = s then some value else none

/-- Whether a word can follow the words so far: a command other than `invalidate` takes one, and
`render` takes a path. -/
def accepts (topic : Topic) (g : Given) (word : Text) : Bool :=
  (topic = .invalidate || g.words.isEmpty) && (topic ≠ .render || !word.isEmpty)

def addWord (topic : Topic) (g : Given) (word : Text) : Except Halt Given :=
  if g.accepts topic word then .ok { g with words := g.words ++ [word] } else .error .misuse

def addValue (g : Given) (s : Switch) (value : Text) : Except Halt Given :=
  if (s.isPath && value.isEmpty) || (!s.isRepeatable && (g.value? s).isSome) then .error .misuse
  else .ok { g with values := g.values ++ [(s, value)], pending := none }

def addUse (topic : Topic) (g : Given) (use : Use) : Except Halt Given :=
  match use.switch, use.attached with
  | .help, _ => .error (.help topic)
  | .version, _ => .error .version
  | s, some value => g.addValue s value
  | s, none =>
    if s.takesValue then .ok { g with pending := some s }
    else if s ∈ g.flags then .error .misuse
    else .ok { g with flags := s :: g.flags }

def step (topic : Topic) (g : Given) (argument : Text) : Except Halt Given :=
  match if g.onlyWords then .word argument else Argument.ofText topic argument, g.pending with
  | .word w, none => g.addWord topic w
  | .word w, some s => if g.onlyWords then .error .misuse else g.addValue s w
  | .onlyWords, none => .ok { g with onlyWords := true }
  | .uses us, none => us.foldlM (addUse topic) g
  | _, _ => .error .misuse

def finish (g : Given) : Except Halt Given :=
  if g.pending.isSome then .error .misuse else .ok g

def ofArguments (topic : Topic) (arguments : List Text) : Except Halt Given := do
  finish (← arguments.foldlM (step topic) {})

end Given
end ContentWeave.Command
