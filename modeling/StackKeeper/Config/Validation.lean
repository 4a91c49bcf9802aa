import StackKeeper.Config.Reader
import StackKeeper.Error
import StackKeeper.Text.Blank
/-!
# Validation

A configuration or a resource is valid if it breaks no rule. The rules are checked in a fixed order
and a failure names the first that is broken; what is allowed but deserves attention is a warning.
-/
namespace StackKeeper

/-- A broken rule: the field and what is wrong with it. -/
structure Violation where
  field : String
  reason : String
deriving DecidableEq

namespace Violation

def text (v : Violation) : String := v.field ++ ": " ++ v.reason

def error (v : Violation) : Error := .invalidField (some v.field) v.reason

end Violation

/-- Everything a check found, each list in the order of the rules. -/
structure Findings where
  violations : List Violation
  warnings : List String

namespace Findings

def isValid (f : Findings) : Bool := f.violations.isEmpty

/-- The warnings of a valid subject, or the error of the first broken rule. -/
def verdict (f : Findings) : Except Error (List String) :=
  match f.violations with
  | [] => .ok f.warnings
  | v :: _ => .error v.error

end Findings

namespace Validation
open StackKeeper.Text

def knownCapabilities : List String :=
  ["CAPABILITY_IAM", "CAPABILITY_NAMED_IAM", "CAPABILITY_AUTO_EXPAND"]

/-- The policies for a failed creation that the provisioning API knows. -/
def knownFailurePolicies : List String := ["DO_NOTHING", "ROLLBACK", "DELETE"]

/-- The violation of a rule unless it holds. -/
def require (holds : Bool) (field reason : String) : List Violation :=
  if holds then [] else [⟨field, reason⟩]

def checkCapabilities (field : String) (l : List String) : List Violation :=
  (l.filter fun c => !knownCapabilities.contains c).map fun c =>
    ⟨field, "Unknown capability '" ++ c ++ "'"⟩

def checkTags (field : String) (m : TextMap) : List Violation :=
  require (!m.keys.any isBlankText) field "Tag keys cannot be empty"

/-- The warnings about tags that decide on ownership. -/
def tagWarnings (field : String) (m : TextMap) : List String :=
  ([controllerKey, ownerKey].filter m.contains).map fun k =>
    field ++ " sets reserved tag '" ++ k ++ "', which controls stack ownership"

def checkInterval (field : String) (secs : Nat) : List Violation :=
  require (secs != 0) field "Interval must be greater than zero"

/-- Checks a configuration. -/
def ofConfig (c : Config) : Findings where
  violations :=
    checkInterval "poll_interval_secs" c.pollIntervalSecs ++
      checkInterval "request_timeout_secs" c.requestTimeoutSecs ++
      checkInterval "resync_interval_secs" c.resyncIntervalSecs ++
      require (c.hubCapacity != 0) "hub_capacity"
        "Follow queue capacity must be greater than zero" ++
      checkCapabilities "default_capabilities" c.defaultCapabilities ++
      checkTags "default_tags" c.defaultTags
  warnings :=
    (if 0 < c.requestTimeoutSecs ∧ 0 < c.pollIntervalSecs ∧
        c.requestTimeoutSecs < c.pollIntervalSecs then
      ["request_timeout_secs is shorter than poll_interval_secs"] else []) ++
      tagWarnings "default_tags" c.defaultTags ++
      (if c.dryRun then ["dry_run is enabled, no stack will be changed"] else [])

/-- The violation of an unknown policy for a failed creation. -/
def checkFailurePolicy : Option String → List Violation
  | none => []
  | some policy =>
    require (knownFailurePolicies.contains policy) "spec.onFailure"
      ("Unknown on-failure policy '" ++ policy ++
        "', expected one of [\"DO_NOTHING\", \"ROLLBACK\", \"DELETE\"]")

/-- Checks a resource before it is stored. -/
def ofResource (r : Resource) : Findings where
  violations :=
    require r.spec.templateSource?.isSome "spec.template"
        (Error.templateNotUnique r.locator.text).detail ++
      checkCapabilities "spec.capabilities" r.spec.capabilities ++
      checkTags "spec.tags" r.spec.tags ++
      require (!r.spec.parameters.keys.contains "") "spec.parameters"
        "Parameter names cannot be empty" ++
      checkFailurePolicy r.spec.onFailure
  warnings := tagWarnings "spec.tags" r.spec.tags

end Validation
end StackKeeper
