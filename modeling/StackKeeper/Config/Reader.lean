import StackKeeper.Config.SocketAddress
import StackKeeper.Error
import StackKeeper.Json.Basic
import StackKeeper.Record
import StackKeeper.Stack.Inputs
import StackKeeper.Text.Blank
import StackKeeper.Yaml.Tree
/-!
# Configuration

The settings of an operator. Every setting has a default, and a configuration, which is written in YAML,
names only those that differ from it. A blank text leaves everything at its default.
-/
namespace StackKeeper

/-- The settings of an operator. -/
structure Config where
  defaultTags : TextMap
  defaultCapabilities : List String
  dryRun : Bool
  pollIntervalSecs : Nat
  requestTimeoutSecs : Nat
  resyncIntervalSecs : Nat
  hubCapacity : Nat
  stateDir : Option String
  region : Option String
  metricsAddress : Option SocketAddress
deriving DecidableEq

namespace Config

/-- Numbers are below this bound. -/
def numberBound : Nat := 0x10000000000000000

/-- The settings when nothing is configured. -/
def default : Config where
  defaultTags := TextMap.empty
  defaultCapabilities := []
  dryRun := false
  pollIntervalSecs := 1
  requestTimeoutSecs := 30
  resyncIntervalSecs := 60
  hubCapacity := 1024
  stateDir := none
  region := none
  metricsAddress := some (.v4 [127, 0, 0, 1] 9090)

/-- How the operator treats every stack. -/
def policy (c : Config) : Policy :=
  ⟨c.defaultTags, c.defaultCapabilities, c.dryRun, c.requestTimeoutSecs⟩

def stateDirName : String := "halldyll-stacks"

def below (dir name : String) : String :=
  if dir.toList.getLast? = some '/' then dir ++ name else dir ++ "/" ++ name

/-- The directory of the stored resources: the configured one, or one under the data directory of the
user, or under the working directory if the user has none. -/
def resolvedStateDir (c : Config) (dataDir : Option String) : String :=
  c.stateDir.getD (below (dataDir.getD ".") stateDirName)

section Reading
open Record
variable {τ : Type} [Layered τ]

/-- A socket address in its written form. -/
def address? (t : τ) : Option SocketAddress := (text? t).bind SocketAddress.ofText?

/-- Reads a configuration. -/
def ofTree? (t : τ) : Option Config := do
  let f ← fields? ["default_tags", "default_capabilities", "dry_run", "poll_interval_secs",
    "request_timeout_secs", "resync_interval_secs", "hub_capacity", "state_dir", "region",
    "metrics_addr"] t
  let defaultTags ← default? f "default_tags" default.defaultTags textMap?
  let defaultCapabilities ← default? f "default_capabilities" default.defaultCapabilities
    (list? text?)
  let dryRun ← default? f "dry_run" default.dryRun boolean?
  let pollIntervalSecs ← default? f "poll_interval_secs" default.pollIntervalSecs
    (natural? numberBound)
  let requestTimeoutSecs ← default? f "request_timeout_secs" default.requestTimeoutSecs
    (natural? numberBound)
  let resyncIntervalSecs ← default? f "resync_interval_secs" default.resyncIntervalSecs
    (natural? numberBound)
  let hubCapacity ← default? f "hub_capacity" default.hubCapacity (natural? numberBound)
  let stateDir ← default? f "state_dir" default.stateDir (optional? text?)
  let region ← default? f "region" default.region (optional? text?)
  let metricsAddress ← default? f "metrics_addr" default.metricsAddress (optional? address?)
  some ⟨defaultTags, defaultCapabilities, dryRun, pollIntervalSecs, requestTimeoutSecs,
    resyncIntervalSecs, hubCapacity, stateDir, region, metricsAddress⟩

end Reading

/-- Reads a configuration from the text of its file. -/
def read (text : String) : Except Error Config :=
  if Text.isBlankText text then .ok default
  else
    match (Yaml.Tree.ofText? text).bind ofTree? with
    | some c => .ok c
    | none => .error (.configUnreadable "YAML parse error: not a configuration")

def optionalSetting (name : String) : Option String → List (String × Json)
  | some s => [(name, .str s)]
  | none => []

/-- The settings as JSON; a disabled metrics endpoint is null. -/
def toJson (c : Config) : Json :=
  .obj ([("default_tags", .obj (c.defaultTags.entries.map fun e => (e.1, .str e.2))),
    ("default_capabilities", Json.ofTexts c.defaultCapabilities), ("dry_run", .bool c.dryRun),
    ("poll_interval_secs", .int c.pollIntervalSecs),
    ("request_timeout_secs", .int c.requestTimeoutSecs),
    ("resync_interval_secs", .int c.resyncIntervalSecs), ("hub_capacity", .int c.hubCapacity)] ++
    optionalSetting "state_dir" c.stateDir ++ optionalSetting "region" c.region ++
    [("metrics_addr",
      match c.metricsAddress with
      | some a => .str a.text
      | none => .null)])

end Config
end StackKeeper
