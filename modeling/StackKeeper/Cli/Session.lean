import StackKeeper.Cli.Output
import StackKeeper.Config.EnvFile
import StackKeeper.Config.Environment
import StackKeeper.Config.Search
import StackKeeper.Store.Local
/-!
# Sessions

What a command finds when it starts: files, the working directory, environment variables, the time. From
them follow the configuration, the place of the store and the style of the output.

A configuration file that the user names must be there. Without one it is looked for, and the defaults
serve if none is found. The environment file beside it is read first, and the variables override what
it says.
-/
namespace StackKeeper

/-- What a command finds when it starts. -/
structure Session where
  files : FileTree
  /-- The working directory, from the root. -/
  directory : Path
  environment : Variables
  now : Instant
  /-- The uid for a resource that is created. -/
  uid : String

namespace Session

def lookup (s : Session) (name : String) : Option String := s.environment.lookup name

/-! ## Configuration -/

def envFileName : String := ".env"

/-- The error for an environment file that cannot be used. -/
def envFileUnusable (reason : String) : Error :=
  .configUnreadable ("Failed to load .env file: " ++ reason)

/-- The session after the environment file in a directory, if there is one. -/
def withEnvFile (s : Session) (dir : Path) : Except Error Session :=
  match s.files.find (s.directory.under (dir ++ [envFileName])) with
  | .error _ => .ok s
  | .ok (.file text) =>
    match EnvFile.extend? s.environment text with
    | some environment => .ok { s with environment := environment }
    | none => .error (envFileUnusable "a line is no assignment")
  | .ok _ => .error (envFileUnusable "it is no text")

/-- The directory of a file that a user names. -/
def directoryOf (named : String) : Path := ((Path.ofText named).dropped?).getD [Path.here]

/-- The configuration in a file, and the session after the environment file beside it. -/
def configurationAt (s : Session) (named : String) : Except Error (Config × Session) := do
  let s ← s.withEnvFile (directoryOf named)
  let c ← Config.load s.files s.directory named
  .ok (c.override s.lookup, s)

/-- The configuration without a file, and the session after the environment file in the working
directory. -/
def defaultConfiguration (s : Session) : Except Error (Config × Session) := do
  let s ← s.withEnvFile []
  .ok (Config.default.override s.lookup, s)

/-- The configuration file that is used: the one the user names, or the one that is found. -/
def configurationFile (s : Session) : Option String → Except Error String
  | some named => .ok named
  | none => (Config.locate s.files s.directory [Path.here]).map Path.text

/-- The configuration that commands work with. -/
def configuration (s : Session) (named : Option String) : Except Error (Config × Session) := do
  let (c, s) ←
    match s.configurationFile named with
    | .ok file => s.configurationAt file
    | .error _ => s.defaultConfiguration
  let _ ← (Validation.ofConfig c).verdict
  .ok (c, s)

/-! ## Places -/

/-- The data directory of the user. -/
def dataDirectory (s : Session) : Option String :=
  match (s.lookup "XDG_DATA_HOME").filter Path.isRooted with
  | some dir => some dir
  | none =>
    ((s.lookup "HOME").filter (· ≠ "")).map fun home => Config.below home ".local/share"

def stateDirectory (s : Session) (c : Config) : String := c.resolvedStateDir s.dataDirectory

def store (s : Session) (c : Config) : Store :=
  ⟨s.directory.under (Path.ofText (s.stateDirectory c)), s.files⟩

def stored (s : Session) (c : Config) : Except Error (List Locator) :=
  if s.stateDirectory c = "" then .ok [] else (s.store c).list

/-! ## Style -/

/-- Whether output is colored: only on request, since it does not go to a terminal. -/
def isColored (s : Session) : Bool :=
  match s.lookup "CLICOLOR_FORCE" with
  | some value => value ≠ "0"
  | none => false

def style (s : Session) (f : Output.Format) : Output.Style := ⟨f, s.isColored⟩

end Session
end StackKeeper
