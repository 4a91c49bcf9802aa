import StackKeeper.Text.Decimal
/-!
# Errors

What can go wrong between a manifest and a settled stack, as causes. The wording is in one function
(`message`), and so are the three answers that drive what happens next: whether a cause says that
something is missing, whether trying again can help, and how long to wait before it.
-/
namespace StackKeeper
open StackKeeper.Text

/-- A cause of failure. -/
inductive Error where
  /-- No configuration file at the path. -/
  | configNotFound (path : String)
  /-- A configuration or manifest that cannot be read. -/
  | configUnreadable (reason : String)
  /-- A setting or manifest field with a value that is not allowed. -/
  | invalidField (field : Option String) (reason : String)
  /-- A text that names no resource. -/
  | invalidLocator (value : String)
  /-- No resource is stored under the locator. -/
  | resourceNotFound (locator : String)
  /-- A resource is already stored under the locator. -/
  | resourceExists (locator : String)
  /-- A stored document that is no resource. -/
  | documentCorrupted (reason : String)
  /-- A resource that has no written form. -/
  | documentUnwritable (reason : String)
  /-- A failure of the file system under the store. -/
  | storeIo (reason : String)
  /-- The remote stack does not exist. -/
  | stackNotFound (stack : String)
  /-- The remote stack already has the submitted inputs. -/
  | noUpdates (stack : String)
  /-- Any other refusal of the remote API. -/
  | requestFailed (code reason : String)
  /-- The remote API asks for fewer requests. -/
  | throttled (reason : String)
  /-- The remote API could not be reached. -/
  | network (reason : String)
  /-- A reply of the remote API lacks what it must have. -/
  | invalidReply (reason : String)
  /-- A call did not return in time. -/
  | timedOut (operation : String) (secs : Nat)
  /-- A resource sets neither or both of its template sources. -/
  | templateNotUnique (resource : String)
  /-- A failure of the file system outside the store. -/
  | io (reason : String)
  /-- Anything else. -/
  | internal (reason : String)
deriving DecidableEq

namespace Error

/-- The wording of a cause without the area it belongs to. -/
def detail : Error → String
  | configNotFound path => "Configuration file not found: " ++ path
  | configUnreadable reason => "Failed to parse configuration: " ++ reason
  | invalidField _ reason => "Configuration validation failed: " ++ reason
  | invalidLocator value =>
    "Invalid resource locator '" ++ value ++ "', expected <namespace>/<name>"
  | resourceNotFound locator => "Stack resource not found: " ++ locator
  | resourceExists locator => "Stack resource already exists: " ++ locator
  | documentCorrupted reason => "Stored resource is corrupted: " ++ reason
  | documentUnwritable reason => "Resource serialization error: " ++ reason
  | storeIo reason => "Store IO error: " ++ reason
  | stackNotFound stack => "Stack does not exist: " ++ stack
  | noUpdates stack => "No updates are to be performed on stack " ++ stack
  | requestFailed code reason => "Provisioning API request failed: " ++ code ++ " - " ++ reason
  | throttled reason => "Provisioning API throttled the request: " ++ reason
  | network reason => "Network error communicating with the provisioning API: " ++ reason
  | invalidReply reason => "Invalid response from the provisioning API: " ++ reason
  | timedOut operation secs =>
    "Timed out after " ++ decimalText secs ++ "s during " ++ operation
  | templateNotUnique resource =>
    "Stack resource " ++ resource ++
      ": exactly one of template or templateUrl must be provided"
  | io reason => reason
  | internal reason => reason

/-- The area a cause belongs to. -/
def area : Error → String
  | configNotFound _ | configUnreadable _ | invalidField _ _ | invalidLocator _ => "Configuration"
  | resourceNotFound _ | resourceExists _ | documentCorrupted _ | documentUnwritable _
  | storeIo _ => "Store"
  | stackNotFound _ | noUpdates _ | requestFailed _ _ | throttled _ | network _ | invalidReply _
  | timedOut _ _ => "Provisioning"
  | templateNotUnique _ => "Reconciliation"
  | io _ => "IO"
  | internal _ => "Internal"

def message (e : Error) : String := e.area ++ " error: " ++ e.detail

def isNotFound : Error → Bool
  | resourceNotFound _ => true
  | _ => false

/-- Whether the cause is that a remote stack does not exist. -/
def isStackNotFound : Error → Bool
  | stackNotFound _ => true
  | _ => false

/-- Whether the cause is that an update changes nothing. -/
def isNoUpdates : Error → Bool
  | noUpdates _ => true
  | _ => false

def isRetryable : Error → Bool
  | throttled _ | network _ | timedOut _ _ | requestFailed _ _ | storeIo _ => true
  | _ => false

/-- The seconds to wait before the next attempt. -/
def retryDelaySecs : Error → Nat
  | throttled _ => 10
  | templateNotUnique _ => 60
  | _ => 5

theorem isStackNotFound_of_isNoUpdates {e : Error} (h : e.isNoUpdates = true) :
    e.isStackNotFound = false := by
  cases e <;> first | rfl | cases h

theorem isNoUpdates_of_isStackNotFound {e : Error} (h : e.isStackNotFound = true) :
    e.isNoUpdates = false := by
  cases e <;> first | rfl | cases h

end Error
end StackKeeper
