import StackKeeper.Api.Request
import StackKeeper.Error
import StackKeeper.Text.Parts
/-!
# Replies of the provisioning API

A request is answered by a refusal with a code and a message, by nothing at all, or by what was asked
for. Refusals are told apart by their message first and their code last: this is the only place that
looks at such texts. What is missing in a description counts as empty, and an output or tag without
key or value is left out.
-/
namespace StackKeeper.Api
open StackKeeper.Text

/-- A key with its value, either of which may be missing. -/
structure PartialPair where
  key : Option String
  value : Option String

/-- The description of a stack in a reply. -/
structure StackDescription where
  id : Option String
  name : Option String
  status : Option String
  created : Option Instant
  updated : Option Instant
  outputs : List PartialPair
  tags : List PartialPair
  role : Option String

/-- The description of a resource inside a stack in a reply. -/
structure MemberDescription where
  logicalId : Option String
  physicalId : Option String
  kind : Option String
  status : Option String
  reason : Option String

inductive Reply where
  /-- The request was refused. -/
  | refused (code message : Option String)
  /-- There was no reply. -/
  | unreachable (reason : String)
  /-- The request was granted; each request looks at its own part. -/
  | granted (descriptions : List StackDescription) (members : List MemberDescription)
      (stackId : Option String)

/-- What a request asks for. -/
inductive Result where
  | stack (s : RemoteStack)
  | members (l : List Member)
  | created (id : String)
  | accepted

namespace Reply

/-- The part of a message that says that an update changes nothing. -/
def noUpdatesPhrase : String := "No updates are to be performed"

/-- The part of a message that says that a stack is unknown. -/
def doesNotExistPhrase : String := "does not exist"

/-- The code of a refusal because of too many requests. -/
def throttlingCode : String := "Throttling"

/-- The cause of a refusal. -/
def classify (stack : String) (code : Option String) (message : String) : Error :=
  if contains message noUpdatesPhrase then .noUpdates stack
  else if contains message doesNotExistPhrase then .stackNotFound stack
  else if code = some throttlingCode then .throttled message
  else .requestFailed (code.getD "Unknown") message

/-- The map of the pairs that have a key and a value. -/
def completePairs (l : List PartialPair) : TextMap :=
  TextMap.ofList (l.filterMap fun p =>
    match p.key, p.value with
    | some k, some v => some (k, v)
    | _, _ => none)

/-- The stack that a description tells of. -/
def toRemoteStack (d : StackDescription) : RemoteStack where
  id := d.id.getD ""
  name := d.name.getD ""
  status := d.status.getD ""
  created := d.created
  updated := d.updated
  outputs := completePairs d.outputs
  tags := completePairs d.tags
  role := Spec.given d.role

/-- The resource that a description tells of. -/
def toMember (d : MemberDescription) : Member where
  logicalId := d.logicalId.getD ""
  physicalId := d.physicalId
  kind := d.kind.getD ""
  status := d.status.getD ""
  reason := d.reason

/-- What a granted request yields. -/
def read (q : Request) (descriptions : List StackDescription)
    (members : List MemberDescription) (stackId : Option String) : Except Error Result :=
  match q with
  | .describeStack stack =>
    match descriptions with
    | [] => .error (.stackNotFound stack)
    | d :: _ => .ok (.stack (toRemoteStack d))
  | .describeMembers _ => .ok (.members (members.map toMember))
  | .create _ _ =>
    match stackId with
    | some id => .ok (.created id)
    | none => .error (.invalidReply "CreateStack returned no stack ID")
  | .update _ | .delete _ => .ok .accepted

/-- The result of a request with its reply. -/
def result (q : Request) : Reply → Except Error Result
  | refused code message => .error (classify q.target code (message.getD ""))
  | unreachable reason => .error (.network reason)
  | granted descriptions members stackId => read q descriptions members stackId

end Reply
end StackKeeper.Api
