import StackKeeper.Resource.Basic
import StackKeeper.Stack.Lifecycle
/-!
# Remote stacks

A stack as the provisioning API reports it. The operator marks the stacks it creates with a tag, and
changes or deletes only stacks that carry it.
-/
namespace StackKeeper

def controllerKey : String := "halldyll.io/controlled-by"

def controllerValue : String := "halldyll-stack-operator"

/-- The tag key that carries the uid of the owning resource. -/
def ownerKey : String := "halldyll.io/owned-by"

/-- A stack as the provisioning API reports it. -/
structure RemoteStack where
  id : String
  name : String
  status : String
  created : Option Instant
  updated : Option Instant
  outputs : TextMap
  tags : TextMap
  role : Option String
deriving DecidableEq

namespace RemoteStack

def isDeleted (s : RemoteStack) : Bool := s.status == Lifecycle.deleteComplete

/-- Whether the stack carries the tag of this operator. -/
def isControlled (s : RemoteStack) : Bool := s.tags.get? controllerKey == some controllerValue

end RemoteStack
end StackKeeper
