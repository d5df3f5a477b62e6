import HostRoster.Command

/-!
# Command lines

Words are read from left to right. A command has a level of its own for its flags;
flags that go with every command may stand on any level, and the innermost value
counts. On one level a flag stands at most once.
-/
namespace HostRoster.Arguments

inductive Flag where
  | config
  | verbose
  | output
  | force
  | warnings
  | yes
  | holder
  | help
  | version
deriving DecidableEq, Repr

namespace Flag

def long : Flag → String
  | config => "config"
  | verbose => "verbose"
  | output => "output"
  | force => "force"
  | warnings => "warnings"
  | yes => "yes"
  | holder => "holder"
  | help => "help"
  | version => "version"

def takesValue : Flag → Bool
  | config => true
  | output => true
  | holder => true
  | _ => false

def common : List (Flag × Option Char) :=
  [(config, some 'c'), (verbose, some 'v'), (output, none), (help, some 'h'),
    (version, some 'V')]

end Flag

/-- Why reading ends without a command. -/
inductive Stop where
  | misuse (reason : String)
  | help
  | version (commands : List String)
deriving DecidableEq, Repr

/-- The flags of a level with their short forms, and the names of the levels below it. -/
structure Grammar where
  flags : List (Flag × Option Char)
  commands : List String := []

/-- What was read of a level. -/
structure Level where
  given : List (Flag × String) := []
  words : List String := []
  /-- The name of the level below and what follows it. -/
  rest : List String := []
deriving DecidableEq, Repr

def formatOf (text : String) : Except Stop Format :=
  if text = "text" then .ok .text
  else if text = "json" then .ok .json
  else .error (.misuse ("invalid value '" ++ text ++ "' for '--output'"))

def valueMissing (flag : Flag) : Stop :=
  .misuse ("a value is required for '--" ++ flag.long ++ "' but none was supplied")

/-- Checks the value of a flag. A path must not be empty. -/
def Flag.check (flag : Flag) (value : String) : Except Stop Unit :=
  match flag with
  | .config => if value = "" then .error (valueMissing .config) else .ok ()
  | .output => (formatOf value).map fun _ => ()
  | _ => .ok ()

namespace Level

def value? (l : Level) (flag : Flag) : Option String := l.given.lookup flag

def has (l : Level) (flag : Flag) : Bool := (l.value? flag).isSome

/-- Adds a flag with its value. No flag may stand on a level twice. -/
def add (l : Level) (flag : Flag) (value : String) : Except Stop Level := do
  if l.has flag then
    throw (.misuse ("the argument '--" ++ flag.long ++ "' cannot be used multiple times"))
  flag.check value
  return { l with given := l.given ++ [(flag, value)] }

/-- Adds a flag that takes no value, on the level that a path of commands leads to. -/
def mark (l : Level) (path : List String) : Flag → Except Stop Level
  | .help => .error .help
  | .version => .error (.version path)
  | flag => l.add flag ""

end Level

namespace Grammar

def ofLong? (g : Grammar) (name : String) : Option Flag :=
  (g.flags.find? fun f => f.1.long == name).map (·.1)

def ofShort? (g : Grammar) (c : Char) : Option Flag :=
  (g.flags.find? fun f => f.2 == some c).map (·.1)

/-- Whether a word is not a value. A single dash is one. -/
def isDashed (word : String) : Bool :=
  match word.toList with
  | '-' :: _ :: _ => true
  | _ => false

def unexpected (word : String) : Stop := .misuse ("unexpected argument '" ++ word ++ "' found")

/-- Reads a long flag; a value may stand behind an equals sign. Gives the flag again if its value
is in the next word. -/
def readLong (g : Grammar) (path : List String) (level : Level) (word : String)
    (text : List Char) : Except Stop (Level × Option Flag) :=
  let name := text.takeWhile (· ≠ '=')
  match g.ofLong? (.ofList name), text.drop name.length with
  | none, _ => .error (unexpected word)
  | some flag, [] =>
    if flag.takesValue then .ok (level, some flag)
    else (level.mark path flag).map fun level => (level, none)
  | some flag, _ :: value =>
    if flag.takesValue then (level.add flag (.ofList value)).map fun level => (level, none)
    else .error (unexpected word)

/-- The value that directly follows a short flag, with or without an equals sign. -/
def attached : List Char → Option String
  | [] => none
  | '=' :: value => some (.ofList value)
  | value => some (.ofList value)

/-- Reads short flags, one a character. The value of a flag may follow it directly. -/
def readShort (g : Grammar) (path : List String) (word : String) :
    Level → List Char → Except Stop (Level × Option Flag)
  | level, [] => .ok (level, none)
  | level, c :: rest =>
    match g.ofShort? c with
    | none => .error (unexpected word)
    | some flag =>
      if flag.takesValue then
        match attached rest with
        | none => .ok (level, some flag)
        | some value => (level.add flag value).map fun level => (level, none)
      else
        match level.mark path flag with
        | .error stop => .error stop
        | .ok level => g.readShort path word level rest

def readDashed (g : Grammar) (path : List String) (level : Level) (word : String) :
    Except Stop (Level × Option Flag) :=
  match word.toList with
  | '-' :: '-' :: text => g.readLong path level word text
  | text => g.readShort path word level text.tail

/-- Reads the words of a level. A flag may wait for its value, and after two dashes no word is a
flag. -/
def scan (g : Grammar) (path : List String) :
    Option Flag → Bool → Level → List String → Except Stop Level
  | none, _, level, [] => .ok level
  | some flag, _, _, [] => .error (valueMissing flag)
  | some flag, plain, level, word :: rest =>
    if isDashed word then .error (valueMissing flag)
    else
      match level.add flag word with
      | .error stop => .error stop
      | .ok level => g.scan path none plain level rest
  | none, plain, level, word :: rest =>
    if plain || !isDashed word then
      if g.commands.isEmpty then
        g.scan path none plain { level with words := level.words ++ [word] } rest
      else if !plain && g.commands.contains word then .ok { level with rest := word :: rest }
      else .error (.misuse ("unrecognized subcommand '" ++ word ++ "'"))
    else if word = "--" then g.scan path none true level rest
    else
      match g.readDashed path level word with
      | .error stop => .error stop
      | .ok (level, waiting) => g.scan path waiting plain level rest

def read (g : Grammar) (path : List String) (words : List String) : Except Stop Level :=
  g.scan path none false {} words

end Grammar

def commandNames : List String :=
  ["init", "validate", "plan", "apply", "status", "drift", "destroy", "state", "help"]

def stateCommandNames : List String := ["show", "lock", "unlock", "help"]

def outer : Grammar := ⟨Flag.common, commandNames⟩

def inner (flags : List (Flag × Option Char)) : Grammar := ⟨Flag.common ++ flags, []⟩

/-- The innermost value of a flag. -/
def innermost? (levels : List Level) (flag : Flag) : Option String :=
  levels.reverse.findSome? (·.value? flag)

/-- A command with the values of the common flags. The fallback for the path, too, must not be
empty where it is needed on a level. -/
def invoke (fallback : Option String) (levels : List Level) (command : Command) :
    Except Stop Invocation := do
  if levels.any fun level => !level.has .config && fallback == some "" then
    throw (valueMissing .config)
  return {
    configPath := (innermost? levels .config).or fallback
    format := ← ((innermost? levels .output).mapM formatOf).map (·.getD .text)
    command }

/-- Refuses words where there is no place for them. -/
def atMost (count : Nat) (level : Level) : Except Stop Unit :=
  match level.words.drop count with
  | [] => .ok ()
  | word :: _ => .error (Grammar.unexpected word)

/-- The directory that a first configuration is written into. -/
def directoryOf (level : Level) : Except Stop String :=
  match level.words with
  | [] => .ok "."
  | "" :: _ => .error (.misuse "a value is required for '[PATH]' but none was supplied")
  | directory :: _ => .ok directory

/-- The commands below those of a path. -/
def commandsBelow : List String → List String
  | [] => commandNames
  | ["state"] => stateCommandNames
  | _ => []

/-- What is asked for help about has to be a command. -/
def helpOn (path : List String) : List String → Stop
  | [] => .help
  | name :: rest =>
    if (commandsBelow path).contains name then helpOn (path ++ [name]) rest
    else .misuse ("unrecognized subcommand '" ++ name ++ "'")

def missing : Stop := .misuse "a subcommand is required but one was not provided"

/-- Reads a command on the recorded state. -/
def parseState (fallback : Option String) (top : Level) (words : List String) :
    Except Stop Invocation := do
  let path := ["hostsync", "state"]
  let middle ← Grammar.read ⟨Flag.common, stateCommandNames⟩ path words
  let done (level : Level) (command : StateCommand) : Except Stop Invocation := do
    atMost 0 level
    invoke fallback [top, middle, level] (.state command)
  match middle.rest with
  | [] => throw missing
  | "show" :: rest => do done (← (inner []).read (path ++ ["show"]) rest) .show
  | "lock" :: rest => do
    let level ← (inner [(.holder, none)]).read (path ++ ["lock"]) rest
    done level (.lock (level.value? .holder))
  | "unlock" :: rest => do
    let level ← (inner [(.holder, none), (.force, none)]).read (path ++ ["unlock"]) rest
    done level (.unlock (level.value? .holder) (level.has .force))
  | _ :: rest => throw (helpOn ["state"] rest)

/-- Reads a command line, given the fallback for the path of the configuration. -/
def parse (fallback : Option String) (words : List String) : Except Stop Invocation := do
  let top ← outer.read ["hostsync"] words
  let level (name : String) (flags : List (Flag × Option Char)) (rest : List String) :
      Except Stop Level := (inner flags).read ["hostsync", name] rest
  let done (l : Level) (command : Command) : Except Stop Invocation := do
    atMost 0 l
    invoke fallback [top, l] command
  match top.rest with
  | [] => throw missing
  | "init" :: rest => do
    let l ← level "init" [(.force, some 'f')] rest
    atMost 1 l
    invoke fallback [top, l] (.init (← directoryOf l) (l.has .force))
  | "validate" :: rest => do
    let l ← level "validate" [(.warnings, some 'w')] rest
    done l (.validate (l.has .warnings))
  | "plan" :: rest => do done (← level "plan" [] rest) .plan
  | "apply" :: rest => do
    let l ← level "apply" [(.yes, some 'y')] rest
    done l (.apply (l.has .yes))
  | "status" :: rest => do done (← level "status" [] rest) .status
  | "drift" :: rest => do done (← level "drift" [] rest) .drift
  | "destroy" :: rest => do
    let l ← level "destroy" [(.yes, some 'y')] rest
    done l (.destroy (l.has .yes))
  | "state" :: rest => parseState fallback top rest
  | _ :: rest => throw (helpOn [] rest)

end HostRoster.Arguments
