import StackKeeper.Stack.Inputs
import StackKeeper.Text.Decimal
/-!
# Requests to the provisioning API

Every request is a form: a list of named values. Lists and maps are spread over numbered entries
that count from one without gaps, and an empty one is a single entry with the bare name and no value.
-/
namespace StackKeeper.Api
open StackKeeper.Text

inductive Request where
  | describeStack (stack : String)
  | describeMembers (stack : String)
  | create (inputs : StackInputs) (onFailure : Option String)
  | update (inputs : StackInputs)
  | delete (stack : String)
deriving DecidableEq

abbrev Entry := String × String

namespace Request

def version : String := "2010-05-15"

/-- The name of the entry with a number in a list. -/
def memberName (name : String) (n : Nat) : String := name ++ ".member." ++ decimalText n

/-- The entries of a list from a number on. -/
def listEntriesFrom (name : String) (n : Nat) : List String → List Entry
  | [] => []
  | v :: rest => (memberName name n, v) :: listEntriesFrom name (n + 1) rest

def listEntries (name : String) (l : List String) : List Entry :=
  if l.isEmpty then [(name, "")] else listEntriesFrom name 1 l

/-- The entries of keys and values from a number on. -/
def pairEntriesFrom (name key value : String) (n : Nat) : List (String × String) → List Entry
  | [] => []
  | (k, v) :: rest =>
    (memberName name n ++ "." ++ key, k) :: (memberName name n ++ "." ++ value, v) ::
      pairEntriesFrom name key value (n + 1) rest

def mapEntries (name key value : String) (m : TextMap) : List Entry :=
  if m.isEmpty then [(name, "")] else pairEntriesFrom name key value 1 m.entries

/-- The entry of a value that may be unset. -/
def optionalEntry (name : String) : Option String → List Entry
  | some v => [(name, v)]
  | none => []

def templateEntry : Template → Entry
  | .body text => ("TemplateBody", text)
  | .url location => ("TemplateURL", location)

/-- The entries that open a request. -/
def opening (action stack : String) : List Entry :=
  [("Action", action), ("Version", version), ("StackName", stack)]

/-- The entries of the inputs apart from the name of the stack. -/
def inputEntries (i : StackInputs) : List Entry :=
  templateEntry i.template :: mapEntries "Parameters" "ParameterKey" "ParameterValue" i.parameters ++
    mapEntries "Tags" "Key" "Value" i.tags ++ listEntries "Capabilities" i.capabilities ++
    optionalEntry "RoleARN" i.role ++ listEntries "NotificationARNs" i.notifications

/-- The form of a request. -/
def form : Request → List Entry
  | describeStack stack => opening "DescribeStacks" stack
  | describeMembers stack => opening "DescribeStackResources" stack
  | create i onFailure =>
    opening "CreateStack" i.stack ++ inputEntries i ++ optionalEntry "OnFailure" onFailure
  | update i => opening "UpdateStack" i.stack ++ inputEntries i
  | delete stack => opening "DeleteStack" stack

/-- The stack that a request addresses. -/
def target : Request → String
  | describeStack stack | describeMembers stack | delete stack => stack
  | create i _ => i.stack
  | update i => i.stack

end Request
end StackKeeper.Api
