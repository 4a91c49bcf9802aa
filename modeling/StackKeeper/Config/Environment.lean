import StackKeeper.Config.Reader
import StackKeeper.Text.Blank
import StackKeeper.Text.Parts
/-!
# Settings from the environment

Environment variables override the settings of a configuration. A value that cannot be read as what
the setting needs is ignored.
-/
namespace StackKeeper.Config
open StackKeeper.Text

def variableStart : String := "STACK_OPERATOR_"

def numberOr (current : Nat) : Option String → Nat
  | some value => (boundedNatural? numberBound value).getD current
  | none => current

/-- A truth value, if the value is one. -/
def truthOr (current : Bool) : Option String → Bool
  | some "true" => true
  | some "false" => false
  | _ => current

/-- An address, if the value is one; an empty value or `off` disables the endpoint. -/
def addressOr (current : Option SocketAddress) : Option String → Option SocketAddress
  | some value =>
    if value = "" ∨ value = "off" then none
    else
      match SocketAddress.ofText? value with
      | some a => some a
      | none => current
  | none => current

/-- The items between commas, without blanks around them and without empty ones. -/
def commaList (value : String) : List String := ((parts ',' value).map trim).filter (· ≠ "")

/-- The settings after the overrides of the environment. -/
def override (c : Config) (lookup : String → Option String) : Config :=
  let var := fun key => lookup (variableStart ++ key)
  { defaultTags := c.defaultTags
    defaultCapabilities :=
      match var "DEFAULT_CAPABILITIES" with
      | some value => commaList value
      | none => c.defaultCapabilities
    dryRun := truthOr c.dryRun (var "DRY_RUN")
    pollIntervalSecs := numberOr c.pollIntervalSecs (var "POLL_INTERVAL_SECS")
    requestTimeoutSecs := numberOr c.requestTimeoutSecs (var "REQUEST_TIMEOUT_SECS")
    resyncIntervalSecs := numberOr c.resyncIntervalSecs (var "RESYNC_INTERVAL_SECS")
    hubCapacity := numberOr c.hubCapacity (var "HUB_CAPACITY")
    stateDir := (var "STATE_DIR").or c.stateDir
    region := (var "REGION").or c.region
    metricsAddress := addressOr c.metricsAddress (var "METRICS_ADDR") }

end StackKeeper.Config
