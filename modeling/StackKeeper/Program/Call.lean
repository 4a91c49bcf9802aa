import StackKeeper.Error
import StackKeeper.Follow.Handoff
import StackKeeper.Stack.Inputs
/-!
# Calls

Everything the operator does outside its own decisions is a call: reads and writes of the resource
store, requests to the provisioning API, a submission to the handoff queue, and the end of the
following of a stack. Each call has a type of answers; those of the store and of the API may be errors.
-/
namespace StackKeeper

inductive Call where
  /-- Reads a stored resource. -/
  | getResource (l : Locator)
  /-- Writes metadata and spec of a stored resource. -/
  | updateResource (r : Resource)
  /-- Writes the status of a stored resource. -/
  | updateStatus (r : Resource)
  /-- Lists all stored resources. -/
  | listResources
  /-- Looks up a remote stack by id or name. -/
  | getStack (stack : String)
  /-- Lists the resources inside a remote stack. -/
  | getMembers (stackId : String)
  /-- Creates a remote stack. -/
  | createStack (inputs : StackInputs) (onFailure : Option String)
  /-- Updates a remote stack. -/
  | updateStack (inputs : StackInputs)
  /-- Deletes a remote stack. -/
  | deleteStack (stack : String)
  /-- Hands a stack over to the follower. -/
  | submit (request : FollowRequest)
  /-- Stops following a stack. -/
  | unfollow (stackId : String)
deriving DecidableEq

/-- The type of the answers to a call. -/
abbrev Call.Answer : Call → Type
  | .getResource _ => Except Error Resource
  | .updateResource _ | .updateStatus _ => Except Error Unit
  | .listResources => Except Error (List Locator)
  | .getStack _ => Except Error RemoteStack
  | .getMembers _ => Except Error (List Member)
  | .createStack _ _ => Except Error String
  | .updateStack _ | .deleteStack _ => Except Error Unit
  | .submit _ | .unfollow _ => Unit

/-- The time allowed for a call, and the name under which running out of it is reported. -/
structure Deadline where
  operation : String
  secs : Nat
deriving DecidableEq

namespace Deadline

/-- The error of a call that ran out of time. -/
def exceeded (d : Deadline) : Error := .timedOut d.operation d.secs

end Deadline

/-- The answer to a call that failed; submissions and stops cannot fail. -/
def Call.failed (e : Error) : (c : Call) → c.Answer
  | .getResource _ => .error e
  | .updateResource _ => .error e
  | .updateStatus _ => .error e
  | .listResources => .error e
  | .getStack _ => .error e
  | .getMembers _ => .error e
  | .createStack _ _ => .error e
  | .updateStack _ => .error e
  | .deleteStack _ => .error e
  | .submit _ => ()
  | .unfollow _ => ()

def Call.isMutation : Call → Bool
  | .createStack _ _ | .updateStack _ | .deleteStack _ => true
  | _ => false

def Call.isStoreWrite : Call → Bool
  | .updateResource _ | .updateStatus _ => true
  | _ => false

end StackKeeper
