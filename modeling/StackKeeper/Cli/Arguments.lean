import StackKeeper.Cli.Output
/-!
# Arguments

What a command line asks for. Options that concern every command may stand before or after its name;
where both are given the later one counts, and the environment counts least. Every option may come
once on each side. An option takes its value from the same word or from the next one, a cluster of
short options may end in one that takes a value, and two dashes end the options.

A command line is read from left to right and the first fault counts, where the value of an option or
operand is only looked at once something else comes after it.
-/
namespace StackKeeper
open StackKeeper.Text

inductive LogFormat where
  | text
  | json
deriving DecidableEq

/-- What is to be done. -/
inductive Command where
  /-- Runs the operator until it is interrupted. -/
  | run (dryRun : Bool) (region : Option String)
  /-- Creates a resource or changes its spec as a manifest says. -/
  | apply (file : String)
  /-- Requests the deletion of a resource. -/
  | delete (locator : String)
  /-- Shows a resource. -/
  | get (locator : String)
  /-- Lists all resources. -/
  | list
  /-- Checks the configuration. -/
  | validate (warnings : Bool)
deriving DecidableEq

/-- All that a command line says. -/
structure Invocation where
  config : Option String
  verbose : Bool
  output : Output.Format
  logFormat : LogFormat
  command : Command

/-- Why there is nothing to be done: a fault in the command line, or a request for information. -/
inductive UsageError where
  | displayHelp
  /-- The version is asked for, of the program or of a command. -/
  | displayVersion (command : Option String)
  /-- Nothing is given at all. -/
  | nothingGiven
  | missingCommand
  | unknownCommand
  | unknownArgument
  /-- An option comes twice. -/
  | repeatedArgument
  | missingArgument
  /-- A value is missing or not allowed. -/
  | invalidValue
  /-- A value is given to an option that takes none. -/
  | unexpectedValue
deriving DecidableEq

namespace Arguments

/-! ## Parameters -/

/-- What can be given on a command line apart from the command itself. -/
inductive Param where
  | config
  | verbose
  | output
  | logFormat
  | dryRun
  | region
  | warnings
  | file
  | locator
  | help
  | version
deriving DecidableEq

namespace Param

/-- The name after two dashes; operands have none. -/
def long? : Param → Option String
  | config => some "config"
  | verbose => some "verbose"
  | output => some "output"
  | logFormat => some "log-format"
  | dryRun => some "dry-run"
  | region => some "region"
  | warnings => some "warnings"
  | help => some "help"
  | version => some "version"
  | file | locator => none

/-- The letter after one dash. -/
def short? : Param → Option Char
  | config => some 'c'
  | verbose => some 'v'
  | warnings => some 'w'
  | help => some 'h'
  | version => some 'V'
  | _ => none

def takesValue : Param → Bool
  | config | output | logFormat | region | file | locator => true
  | _ => false

/-- The environment variable that stands in for the option. -/
def envName? : Param → Option String
  | config => some "STACK_OPERATOR_CONFIG"
  | logFormat => some "STACK_OPERATOR_LOG_FORMAT"
  | region => some "AWS_REGION"
  | _ => none

/-- Whether a value is allowed: paths are not empty and formats are known. -/
def allows (p : Param) (value : String) : Bool :=
  match p with
  | config | file => value != ""
  | output | logFormat => value == "text" || value == "json"
  | _ => true

end Param

inductive CommandName where
  | run
  | apply
  | delete
  | get
  | list
  | validate
deriving DecidableEq

namespace CommandName

/-- The command with a name. -/
def ofText? : String → Option CommandName
  | "run" => some run
  | "apply" => some apply
  | "delete" => some delete
  | "get" => some get
  | "list" => some list
  | "validate" => some validate
  | _ => none

/-- The name of a command. -/
def text : CommandName → String
  | run => "run"
  | apply => "apply"
  | delete => "delete"
  | get => "get"
  | list => "list"
  | validate => "validate"

/-- The options that only the command knows. -/
def ownOptions : CommandName → List Param
  | run => [.dryRun, .region]
  | validate => [.warnings]
  | _ => []

def operand? : CommandName → Option Param
  | apply => some .file
  | delete | get => some .locator
  | _ => none

end CommandName

/-- The options that every command knows. -/
def commonOptions : List Param := [.config, .verbose, .output, .logFormat, .help, .version]

/-- One side of a command line: before the name of the command, or after it. -/
inductive Side where
  | before
  | after (name : CommandName)

namespace Side

def options : Side → List Param
  | before => commonOptions
  | after name => commonOptions ++ name.ownOptions

def operand? : Side → Option Param
  | before => none
  | after name => name.operand?

end Side

/-- What was read of one side: the values given, a parameter whose value was not looked at yet, whether
that value is still to come, and whether the options have ended. -/
structure Reading where
  given : List (Param × String)
  pending : Option (Param × Option String)
  awaitsValue : Bool
  optionsEnded : Bool

namespace Reading

def start : Reading := ⟨[], none, false, false⟩

/-- Takes the value of a parameter. -/
def take (x : Reading) (p : Param) (value : String) : Except UsageError Reading :=
  if x.given.any fun e => e.1 == p then .error .repeatedArgument
  else if p.allows value then .ok { x with given := x.given ++ [(p, value)] }
  else .error .invalidValue

/-- Looks at the value that is pending. -/
def settle (x : Reading) : Except UsageError Reading :=
  match x.pending with
  | none => .ok x
  | some (_, none) => .error .invalidValue
  | some (p, some value) => take { x with pending := none } p value

/-- Takes a parameter whose value is at hand. -/
def give (x : Reading) (p : Param) (value : String) : Except UsageError Reading := do
  let x ← x.settle
  take { x with awaitsValue := false } p value

/-- Takes an option without a value. -/
def flag (x : Reading) (p : Param) : Except UsageError Reading := do
  let x ← x.settle
  match p with
  | .help => .error .displayHelp
  | .version => .error (.displayVersion none)
  | p => take { x with awaitsValue := false } p "true"

/-- Waits for the value of an option. -/
def await (x : Reading) (p : Param) : Except UsageError Reading := do
  let x ← x.settle
  .ok { x with pending := some (p, none), awaitsValue := true }

/-- Takes the next word as the value that is awaited. -/
def supply (x : Reading) (word : String) : Reading :=
  { x with pending := x.pending.map fun e => (e.1, some word), awaitsValue := false }

def operand (x : Reading) (p : Param) (word : String) : Except UsageError Reading := do
  let x ← x.settle
  .ok { x with pending := some (p, some word), awaitsValue := false }

def hasSeen (x : Reading) (p : Param) : Bool :=
  x.given.any (fun e => e.1 == p) || (x.pending.map (·.1) == some p)

end Reading

/-! ## Words -/

/-- A word as an option: its name and a value in the same word. -/
def longParts (name : List Char) : String × Option String :=
  match splitFirst '=' name with
  | some (n, value) => (String.ofList n, some (String.ofList value))
  | none => (String.ofList name, none)

/-- Reads a long option. -/
def readLong (side : Side) (x : Reading) (name : List Char) : Except UsageError Reading :=
  let (n, value?) := longParts name
  match side.options.find? fun p => p.long? == some n with
  | none => .error .unknownArgument
  | some p =>
    match p.takesValue, value? with
    | true, some value => x.give p value
    | true, none => x.await p
    | false, some _ => .error .unexpectedValue
    | false, none => x.flag p

/-- The value in the rest of a cluster, with or without an equals sign. -/
def attachedValue? : List Char → Option String
  | [] => none
  | '=' :: value => some (String.ofList value)
  | value => some (String.ofList value)

/-- Reads a cluster of short options. -/
def readCluster (side : Side) (x : Reading) : List Char → Except UsageError Reading
  | [] => .ok x
  | c :: rest =>
    match side.options.find? fun p => p.short? == some c with
    | none => .error .unknownArgument
    | some p =>
      if p.takesValue then
        match attachedValue? rest with
        | some value => x.give p value
        | none => x.await p
      else do
        let x ← x.flag p
        readCluster side x rest

inductive Word where
  | long (name : List Char)
  | cluster (letters : List Char)
  | endOfOptions
  | plain

/-- The kind of a word. -/
def Word.ofText (s : String) : Word :=
  match s.toList with
  | ['-', '-'] => .endOfOptions
  | '-' :: '-' :: name => .long name
  | ['-'] => .plain
  | '-' :: letters => .cluster letters
  | _ => .plain

/-- The fault of a word that nothing wants. -/
def unwanted (side : Side) (optionsEnded : Bool) (word : String) : UsageError :=
  match side with
  | .after _ => .unknownArgument
  | .before =>
    if optionsEnded && ((CommandName.ofText? word).isSome || word == "help") then .unknownArgument
    else .unknownCommand

/-- Reads a word that is an operand or wanted by nothing. -/
def readOperand (side : Side) (x : Reading) (word : String) : Except UsageError Reading :=
  match side.operand? with
  | some p => if x.hasSeen p then .error .unknownArgument else x.operand p word
  | none => .error (unwanted side x.optionsEnded word)

/-- Reads a word that does not name a command. -/
def readWord (side : Side) (x : Reading) (word : String) : Except UsageError Reading :=
  if x.optionsEnded then readOperand side x word
  else
    match Word.ofText word with
    | .endOfOptions => .ok { x with optionsEnded := true, awaitsValue := false }
    | .long name => readLong side x name
    | .cluster letters => readCluster side x letters
    | .plain => if x.awaitsValue then .ok (x.supply word) else readOperand side x word

/-- The command that a word names where one may stand. -/
def commandAt? (side : Side) (x : Reading) (word : String) : Option CommandName :=
  match side with
  | .before => if x.optionsEnded || x.awaitsValue then none else CommandName.ofText? word
  | .after _ => none

/-- Whether a word asks for help where a command may stand. -/
def isHelpAt (side : Side) (x : Reading) (word : String) : Bool :=
  match side with
  | .before => !x.optionsEnded && !x.awaitsValue && word == "help"
  | .after _ => false

/-- What a request for help about commands leads to: there must be at most one, which exists. -/
def helpAbout : List String → UsageError
  | [] => .displayHelp
  | [word] =>
    if (CommandName.ofText? word).isSome || word == "help" then .displayHelp else .unknownCommand
  | _ => .unknownCommand

/-- Reads words up to the name of a command; the second part is that command and the words after
it. -/
def readWords (side : Side) (x : Reading) :
    List String → Except UsageError (Reading × Option (CommandName × List String))
  | [] => .ok (x, none)
  | word :: rest =>
    match commandAt? side x word with
    | some name => .ok (x, some (name, rest))
    | none =>
      if isHelpAt side x word then .error (helpAbout rest)
      else
        match readWord side x word with
        | .ok x => readWords side x rest
        | .error e => .error e

/-! ## Command lines -/

/-- The value of the environment for a parameter. -/
def fromEnvironment (lookup : String → Option String) (p : Param) : Option String :=
  p.envName?.bind lookup

/-- Whether the values of the environment that are needed on one side are allowed. -/
def allowsEnvironment (lookup : String → Option String) (side : Side) (x : Reading) : Bool :=
  side.options.all fun p =>
    x.given.any (fun e => e.1 == p) ||
      match fromEnvironment lookup p with
      | some value => p.allows value
      | none => true

/-- Looks at all values of one side. -/
def conclude (lookup : String → Option String) (side : Side) (x : Reading) :
    Except UsageError Reading := do
  let x ← x.settle
  if allowsEnvironment lookup side x then .ok x else .error .invalidValue

/-- Whether anything is given before a command. -/
def isAnythingGiven (lookup : String → Option String) (x : Reading) : Bool :=
  !x.given.isEmpty || commonOptions.any fun p => (fromEnvironment lookup p).isSome

/-- The value of a parameter: after the command, before it, or in the environment. -/
def valueOf (lookup : String → Option String) (before after : Reading) (p : Param) :
    Option String :=
  ((after.given.lookup p).or (before.given.lookup p)).or (fromEnvironment lookup p)

/-- The command with its options and operand. -/
def commandOf (value : Param → Option String) : CommandName → Command
  | .run => .run (value .dryRun).isSome (value .region)
  | .apply => .apply ((value .file).getD "")
  | .delete => .delete ((value .locator).getD "")
  | .get => .get ((value .locator).getD "")
  | .list => .list
  | .validate => .validate (value .warnings).isSome

/-- All that was read. -/
def invocation (value : Param → Option String) (name : CommandName) : Invocation where
  config := value .config
  verbose := (value .verbose).isSome
  output := if value .output = some "json" then .json else .text
  logFormat := if value .logFormat = some "json" then .json else .text
  command := commandOf value name

/-- A request for the version after the name of a command is about that command. -/
def aboutCommand (name : CommandName) : UsageError → UsageError
  | .displayVersion _ => .displayVersion (some name.text)
  | e => e

/-- Reads what follows the name of a command. -/
def readCommand (lookup : String → Option String) (name : CommandName) (words : List String) :
    Except UsageError Reading := do
  let (x, _) ← (readWords (.after name) Reading.start words).mapError (aboutCommand name)
  let x ← conclude lookup (.after name) x
  match name.operand? with
  | some p => if x.hasSeen p then .ok x else .error .missingArgument
  | none => .ok x

/-- Reads a command line, the first word of which names the program. -/
def read (lookup : String → Option String) (words : List String) :
    Except UsageError Invocation := do
  let (before, next) ← readWords .before Reading.start (words.drop 1)
  match next with
  | some (name, rest) =>
    let after ← readCommand lookup name rest
    let before ← conclude lookup .before before
    .ok (invocation (valueOf lookup before after) name)
  | none =>
    let before ← conclude lookup .before before
    .error (if isAnythingGiven lookup before then .missingCommand else .nothingGiven)

end Arguments
end StackKeeper
