import StackKeeper.Instant.Basic
import StackKeeper.Resource.Locator
import StackKeeper.TextMap
/-!
# Stack resources

A resource declares the desired state of one remote stack (`Spec`) and carries what the operator
observed of it (`Status`). Its metadata names it, tells incarnations under one locator apart
(`uid`), counts the changes of its spec (`generation`) and holds the finalizers, which keep a
resource that is marked for deletion until its stack is gone.

Results:
* `hasFinalizer_addFinalizer`, `not_hasStackFinalizer_removeStackFinalizers`: a finalizer that was set
  is there, and of the operator's own none is left once they are removed.
-/
namespace StackKeeper

/-- The finalizer that the operator sets. -/
def stackFinalizer : String := "stacks.halldyll.io/finalizer"

/-- The finalizer that earlier releases set. -/
def legacyFinalizer : String := "finalizer.stacks.halldyll.io"

def maxGeneration : Nat := 0xffffffffffffffff

/-- Identity and lifecycle of a resource. -/
structure Metadata where
  name : String
  ns : String
  uid : String
  generation : Nat
  created : Option Instant
  deletion : Option Instant
  finalizers : List String
deriving DecidableEq

/-- The declared state of a stack. -/
structure Spec where
  stackName : Option String
  template : Option String
  templateUrl : Option String
  parameters : TextMap
  tags : TextMap
  capabilities : List String
  role : Option String
  notifications : List String
  onFailure : Option String
deriving DecidableEq

/-- The text or the location of a template. -/
inductive Template where
  | body (text : String)
  | url (location : String)
deriving DecidableEq

/-- One resource inside a remote stack. -/
structure Member where
  logicalId : String
  physicalId : Option String
  kind : String
  status : String
  reason : Option String
deriving DecidableEq

/-- The observed state of a stack. -/
structure Status where
  stackId : String
  stackStatus : String
  created : Option Instant
  updated : Option Instant
  outputs : TextMap
  role : String
  members : List Member
  appliedHash : String
deriving DecidableEq

/-- A declared stack with its observed state. -/
structure Resource where
  metadata : Metadata
  spec : Spec
  status : Status
deriving DecidableEq

namespace Spec

def empty : Spec := ⟨none, none, none, TextMap.empty, TextMap.empty, [], none, [], none⟩

/-- A text that is set and not empty. -/
def given (o : Option String) : Option String := o.filter (· ≠ "")

/-- The template, if exactly one of its two sources is given. -/
def templateSource? (s : Spec) : Option Template :=
  match given s.template, given s.templateUrl with
  | some text, none => some (.body text)
  | none, some location => some (.url location)
  | _, _ => none

end Spec

namespace Status

def empty : Status := ⟨"", "", none, none, TextMap.empty, "", [], ""⟩

end Status

namespace Resource

def locator (r : Resource) : Locator := ⟨r.metadata.ns, r.metadata.name⟩

def isMarked (r : Resource) : Bool := r.metadata.deletion.isSome

def hasFinalizer (r : Resource) (finalizer : String) : Bool :=
  r.metadata.finalizers.contains finalizer

/-- Whether a finalizer of the operator is set, of this or of earlier releases. -/
def hasStackFinalizer (r : Resource) : Bool :=
  r.hasFinalizer stackFinalizer || r.hasFinalizer legacyFinalizer

def withFinalizers (r : Resource) (l : List String) : Resource :=
  { r with metadata := { r.metadata with finalizers := l } }

/-- Appends a finalizer that is not there yet. -/
def addFinalizer (r : Resource) (finalizer : String) : Resource :=
  if r.hasFinalizer finalizer then r
  else r.withFinalizers (r.metadata.finalizers ++ [finalizer])

def isStackFinalizer (finalizer : String) : Bool :=
  finalizer == stackFinalizer || finalizer == legacyFinalizer

def removeStackFinalizers (r : Resource) : Resource :=
  r.withFinalizers (r.metadata.finalizers.filter fun f => !isStackFinalizer f)

def withStatus (r : Resource) (s : Status) : Resource := { r with status := s }

def withAppliedHash (r : Resource) (hash : String) : Resource :=
  { r with status := { r.status with appliedHash := hash } }

/-- The name of the remote stack: the declared one, or namespace and name. -/
def stackName (r : Resource) : String :=
  (Spec.given r.spec.stackName).getD (r.metadata.ns ++ "-" ++ r.metadata.name)

/-- What the remote stack is addressed by: its id once it is known, so that a deleted stack is still
found, else its name. -/
def stackRef (r : Resource) : String :=
  if r.status.stackId = "" then r.stackName else r.status.stackId

theorem hasFinalizer_addFinalizer (r : Resource) (finalizer : String) :
    (r.addFinalizer finalizer).hasFinalizer finalizer = true := by
  rw [addFinalizer]
  split
  · assumption
  · simp [hasFinalizer, withFinalizers]

theorem not_hasStackFinalizer_removeStackFinalizers (r : Resource) :
    r.removeStackFinalizers.hasStackFinalizer = false := by
  simp [hasStackFinalizer, hasFinalizer, removeStackFinalizers, withFinalizers, isStackFinalizer]

end Resource
end StackKeeper
