import StackKeeper.Cli.Arguments
import StackKeeper.Cli.Session
import StackKeeper.Resource.Manifest
import StackKeeper.Store.Request
import StackKeeper.Store.Watcher
/-!
# Commands

What each command does with the files it finds, and what it says. All commands speak on the error
stream; the output stream is for what was asked about the program itself. Every command but the one
that runs the operator ends at once.
-/
namespace StackKeeper
open StackKeeper.Text

/-- What a command has to say, or why it failed, and the files that it leaves. -/
abbrev Report := Except Error String × FileTree

namespace Session

def metricsText : Option SocketAddress → String
  | some a => "http://" ++ a.text ++ "/metrics"
  | none => "disabled"

/-- The settings that a check of the configuration shows. -/
def summary (s : Session) (c : Config) : String :=
  "\nConfiguration summary:\n" ++
    "  State dir: " ++ s.stateDirectory c ++ "\n" ++
    "  Region: " ++ c.region.getD "default" ++ "\n" ++
    "  Poll interval: " ++ decimalText c.pollIntervalSecs ++ "s\n" ++
    "  Resync interval: " ++ decimalText c.resyncIntervalSecs ++ "s\n" ++
    "  Metrics: " ++ metricsText c.metricsAddress ++ "\n" ++
    "  Dry run: " ++ (if c.dryRun then "true" else "false") ++ "\n"

/-- What became of a declaration, in one line. -/
def appliedText (l : Locator) (a : Applied) : String :=
  "Stack resource " ++ l.text ++ " " ++ a.text

/-- What became of a request for deletion, in one line. -/
def deletionText (l : Locator) : Deletion → String
  | .requested => "Deletion of " ++ l.text ++ " requested, the operator will remove its stack"
  | .deleted => "Stack resource " ++ l.text ++ " deleted"

/-- Reads the locator that a user gives. -/
def locator (value : String) : Except Error Locator :=
  match Locator.ofText? value with
  | some l => .ok l
  | none => .error (.invalidLocator value)

/-- Reads the manifest that a user names, which must be valid. -/
def manifest (s : Session) (named : String) : Except Error Resource := do
  let r ← Manifest.load s.files s.directory named
  let _ ← (Validation.ofResource r).verdict
  .ok r

/-! ## Commands that end at once -/

/-- Keeps the resource that a manifest declares. -/
def apply (s : Session) (c : Config) (f : Output.Format) (named : String) : Report :=
  match s.manifest named with
  | .error e => (.error e, s.files)
  | .ok r =>
    let (result, store) := (s.store c).apply r s.uid s.now
    (result.map fun a => Output.message (s.style f) (appliedText r.locator a) ++ "\n", store.files)

/-- Requests the deletion of a resource. -/
def delete (s : Session) (c : Config) (f : Output.Format) (value : String) : Report :=
  match locator value with
  | .error e => (.error e, s.files)
  | .ok l =>
    let (result, store) := (s.store c).requestDeletion l s.now
    (result.map fun d => Output.message (s.style f) (deletionText l d) ++ "\n", store.files)

/-- Shows a resource. -/
def get (s : Session) (c : Config) (f : Output.Format) (value : String) : Except Error String := do
  let l ← locator value
  let r ← (s.store c).get l
  .ok (Output.resource (s.style f) r ++ "\n")

/-- The age of a resource in seconds. -/
def age (s : Session) (r : Resource) : Option Int :=
  r.metadata.created.map fun created => created.secondsUntil s.now

/-- Shows all resources. -/
def list (s : Session) (c : Config) (f : Output.Format) : Except Error String := do
  let locators ← s.stored c
  let resources ← (s.store c).getAll locators
  .ok (Output.list (s.style f) (resources.map fun r => (r, s.age r)) ++ "\n")

/-- Checks the configuration in a file, which must be there. -/
def validate (s : Session) (named : Option String) (f : Output.Format) (showWarnings : Bool) :
    Except Error String := do
  let file ← s.configurationFile named
  let (c, s) ← s.configurationAt file
  let warnings ← (Validation.ofConfig c).verdict
  .ok (Output.validation (s.style f) warnings showWarnings ++ "\n" ++ s.summary c)

/-! ## Running the operator -/

def runConfiguration (c : Config) (dryRun : Bool) (region : Option String) : Config :=
  { c with dryRun := c.dryRun || dryRun, region := region.or c.region }

/-- Opens the metrics endpoint. -/
def openEndpoint : Option SocketAddress → Except Error Unit
  | some a =>
    if a.isLocal then .ok ()
    else
      .error (.internal ("Failed to bind metrics endpoint " ++ a.text ++
        ": the address does not belong to this machine"))
  | none => .ok ()

/-- Prepares a run: the state directory is watched if it can be, and the metrics endpoint opened. -/
def prepare (s : Session) (c : Config) : Except Error Unit × Store :=
  (openEndpoint c.metricsAddress, (s.store c).watch.2)

/-! ## Command lines -/

/-- How a command line ends. -/
inductive Ending where
  /-- With an exit code and texts on the output and the error stream. -/
  | finished (code : Nat) (output errors : String) (files : FileTree)
  /-- Not by itself: the operator runs over a store until it is interrupted. -/
  | running (c : Config) (store : Store)

def programName : String := "stack-operator"

def versionText : Option String → String
  | some command => programName ++ "-" ++ command ++ " 0.1.0\n"
  | none => programName ++ " 0.1.0\n"

/-- How the program is called. -/
def usageText : String :=
  "Usage: " ++ programName ++ " [OPTIONS] <COMMAND>\n\n" ++
    "Commands:\n" ++
    "  run       Run the controller and the follower until interrupted\n" ++
    "  apply     Create a stack resource or update its spec from a manifest\n" ++
    "  delete    Request deletion of a stack resource\n" ++
    "  get       Show a stack resource\n" ++
    "  list      List stack resources\n" ++
    "  validate  Validate the operator configuration\n" ++
    "  help      Print this message\n\n" ++
    "Options:\n" ++
    "  -c, --config <CONFIG>          Path to the configuration file\n" ++
    "  -v, --verbose                  Enable verbose output\n" ++
    "      --output <OUTPUT>          Output format (text, json)\n" ++
    "      --log-format <LOG_FORMAT>  Log format (text, json)\n" ++
    "  -h, --help                     Print help\n" ++
    "  -V, --version                  Print version\n"

def Ending.ofReport : Report → Ending
  | (.ok text, files) => .finished 0 "" text files
  | (.error e, files) => .finished 1 "" ("Error: " ++ e.message ++ "\n") files

/-- How a command line ends that asks for nothing to be done. -/
def Ending.ofUsage (files : FileTree) : UsageError → Ending
  | .displayHelp => .finished 0 usageText "" files
  | .displayVersion command => .finished 0 (versionText command) "" files
  | .nothingGiven => .finished 2 "" usageText files
  | _ => .finished 2 "" ("error: the command line cannot be understood\n\n" ++ usageText) files

/-- Goes on with the configuration, if it can be had. -/
def configured (s : Session) (named : Option String) (next : Session → Config → Ending) : Ending :=
  match s.configuration named with
  | .ok (c, s) => next s c
  | .error e => .ofReport (.error e, s.files)

/-- Starts to run the operator. -/
def start (s : Session) (c : Config) : Ending :=
  match s.prepare c with
  | (.ok (), store) => .running c store
  | (.error e, store) => .ofReport (.error e, store.files)

/-- Does what an invocation asks for. -/
def invoke (s : Session) (v : Invocation) : Ending :=
  match v.command with
  | .run dryRun region =>
    s.configured v.config fun s c => s.start (runConfiguration c dryRun region)
  | .apply file => s.configured v.config fun s c => .ofReport (s.apply c v.output file)
  | .delete value => s.configured v.config fun s c => .ofReport (s.delete c v.output value)
  | .get value => s.configured v.config fun s c => .ofReport (s.get c v.output value, s.files)
  | .list => s.configured v.config fun s c => .ofReport (s.list c v.output, s.files)
  | .validate warnings => .ofReport (s.validate v.config v.output warnings, s.files)

/-! ## What a command line needs -/

/-- The files that a command line makes the program read before it reaches the store. -/
def inputs (s : Session) (words : List String) : List Path :=
  match Arguments.read s.lookup words with
  | .error _ => []
  | .ok v =>
    let configurations := match v.config with
      | some named => [FileTree.namedPath named]
      | none => Config.candidates [Path.here]
    let environments := configurations.map fun p => (p.dropped?).getD [Path.here] ++ [envFileName]
    let manifests := match v.command with
      | .apply named => [FileTree.namedPath named]
      | _ => []
    configurations ++ environments ++ [[envFileName]] ++ manifests

/-- The store that a command line leads to. -/
def storeOf? (s : Session) (words : List String) : Option Store :=
  match Arguments.read s.lookup words with
  | .error _ => none
  | .ok v =>
    match s.configuration v.config with
    | .ok (c, s) => some (s.store c)
    | .error _ => none

/-- Does what a command line asks for; its first word names the program. -/
def perform (s : Session) (words : List String) : Ending :=
  match Arguments.read s.lookup words with
  | .error e => .ofUsage s.files e
  | .ok v => s.invoke v

end Session
end StackKeeper
