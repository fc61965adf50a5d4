import TableSchema.Run.Choices
import TableSchema.Text.Split

/-!
# Command lines

The choices that the words of a command line make. An option takes its value from the next word or
from behind an equals sign. The next word must not start with a dash then, unless it is a single
dash. An option stands once, but for the lists of table names, which grow, and for the switches.

A word is judged in its turn, but an option that takes its value from the next word only when
another option follows or the line ends. So a word that means nothing hides a fault of the option
before it.
-/

namespace TableSchema.Run

/-! ## Options -/

/-- The options with a value. -/
inductive Argument where
  /-- the path of the settings file -/
  | settingsFile
  | setting (s : Setting)
  | includes
  | excludes
  deriving DecidableEq, Repr

/-- The options without a value. -/
inductive Switch where
  | verbose
  | help
  | version
  deriving DecidableEq, Repr

/-- The name of an option with a value. -/
def Argument.text : Argument → String
  | settingsFile => "config"
  | setting s => s.text
  | includes => "include"
  | excludes => "exclude"

/-- Every option with a value. -/
def Argument.all : List Argument :=
  [settingsFile] ++ Setting.all.map setting ++ [includes, excludes]

/-- The option with a value that has a name. -/
def Argument.ofText? (name : String) : Option Argument := all.find? fun a => a.text == name

/-- The name of an option without a value. -/
def Switch.text : Switch → String
  | verbose => "verbose"
  | help => "help"
  | version => "version"

/-- The letter of an option without a value. -/
def Switch.letter : Switch → Char
  | verbose => 'v'
  | help => 'h'
  | version => 'V'

/-- Every option without a value. -/
def Switch.all : List Switch := [verbose, help, version]

/-- The option without a value that has a name. -/
def Switch.ofText? (name : String) : Option Switch := all.find? fun s => s.text == name

/-- The option without a value that has a letter. -/
def Switch.ofLetter? (letter : Char) : Option Switch := all.find? fun s => s.letter == letter

/-! ## Lines -/

/-- What a command line says. -/
structure CommandLine where
  /-- the choices on it -/
  choices : Choices := {}
  /-- the path of the settings file -/
  settingsFile : Option String := none
  /-- how much to tell, from 0 to 255 -/
  verbosity : Nat := 0

/-- What ends a command line early: a question that is answered instead, or a fault. -/
inductive Halt where
  | help
  | version
  /-- a word means nothing -/
  | unknown (word : String)
  /-- an option has no value, or an empty one where there has to be a path -/
  | withoutValue (a : Argument)
  /-- an option stands a second time -/
  | repeated (a : Argument)
  /-- an option has a value that takes none -/
  | needlessValue (s : Switch)
  deriving DecidableEq, Repr

/-- The halt in words. -/
def Halt.message : Halt → String
  | help => "Help is wanted"
  | version => "The version is wanted"
  | unknown word => s!"Unknown argument: {word}"
  | withoutValue a => s!"Missing value: --{a.text}"
  | repeated a => s!"Repeated option: --{a.text}"
  | needlessValue s => s!"Needless value: --{s.text}"

namespace CommandLine

/-- The value of an option that stands once. -/
def single? (l : CommandLine) : Argument → Option String
  | .settingsFile => l.settingsFile
  | .setting s => l.choices.value s
  | .includes | .excludes => none

/-- Whether the value of an option is a path. -/
def isPath (a : Argument) : Bool := a == .settingsFile || a == .setting .outdir

/-- The line with a value for an option. -/
def assign (l : CommandLine) (a : Argument) (value : String) : Except Halt CommandLine :=
  if (l.single? a).isSome then .error (.repeated a)
  else if isPath a && value = "" then .error (.withoutValue a)
  else
    let c := l.choices
    let names := Text.splitString ',' value
    .ok <| match a with
      | .settingsFile => { l with settingsFile := some value }
      | .setting s => { l with choices := c.set s value }
      | .includes => { l with choices := { c with includes := c.includes ++ names } }
      | .excludes => { l with choices := { c with excludes := c.excludes ++ names } }

/-- The line with an option without a value. -/
def switch (l : CommandLine) : Switch → Except Halt CommandLine
  | .verbose => .ok { l with verbosity := min 255 (l.verbosity + 1) }
  | .help => .error .help
  | .version => .error .version

end CommandLine

/-! ## Words -/

/-- A command line that has been read up to some word. -/
structure Reading where
  /-- what the words so far say, but for the pending option -/
  line : CommandLine := {}
  /-- an option that takes its value from the next word, with the value if it is there -/
  pending : Option (Argument × Option String) := none

namespace Reading

/-- What the words so far say. -/
def settle (r : Reading) : Except Halt CommandLine :=
  match r.pending with
  | none => .ok r.line
  | some (a, none) => .error (.withoutValue a)
  | some (a, some value) => r.line.assign a value

/-- Reads an option by its name. -/
def longOption (r : Reading) (word name : String) (value : Option String) :
    Except Halt Reading := do
  match Argument.ofText? name, Switch.ofText? name, value with
  | some a, _, some value => return { line := ← (← r.settle).assign a value }
  | some a, _, none => return { line := ← r.settle, pending := some (a, none) }
  | none, some s, some _ => throw (.needlessValue s)
  | none, some s, none => return { line := ← (← r.settle).switch s }
  | none, none, _ => throw (.unknown word)

/-- Reads options by their letters. -/
def letters (r : Reading) (word : String) : List Char → Except Halt Reading
  | [] => .ok r
  | c :: cs =>
    match Switch.ofLetter? c with
    | some s => do letters { line := ← (← r.settle).switch s } word cs
    | none => .error (.unknown word)

/-- Reads a word that is no option. -/
def value (r : Reading) (word : String) : Except Halt Reading :=
  match r.pending with
  | some (a, none) => .ok { r with pending := some (a, some word) }
  | _ => .error (.unknown word)

/-- Reads a word. -/
def word (r : Reading) (word : String) : Except Halt Reading :=
  match word.toList with
  | '-' :: '-' :: cs =>
    let name := cs.takeWhile (· ≠ '=')
    let value := (cs.dropWhile (· ≠ '=')).tail?.map String.ofList
    r.longOption word (String.ofList name) value
  | '-' :: c :: cs => r.letters word (c :: cs)
  | _ => r.value word

end Reading

/-- What some more words say. No option follows two dashes, and nothing else has a meaning there. -/
def CommandLine.ofWordsFrom (r : Reading) : List String → Except Halt CommandLine
  | [] => r.settle
  | "--" :: words =>
    match words with
    | [] => r.settle
    | word :: _ => .error (.unknown word)
  | word :: words => do CommandLine.ofWordsFrom (← r.word word) words

/-- What the words of a command line say. -/
def CommandLine.ofWords (words : List String) : Except Halt CommandLine := ofWordsFrom {} words

end TableSchema.Run
