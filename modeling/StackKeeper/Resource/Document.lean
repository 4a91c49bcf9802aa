import StackKeeper.Instant.Printer
import StackKeeper.Instant.Reader
import StackKeeper.Json.Printer
import StackKeeper.Json.Reader
import StackKeeper.Record
import StackKeeper.Resource.Basic
/-!
# Documents

The written form of a resource. Reading works on any layered tree, so that JSON documents and
manifests in other notations share it; writing gives JSON with the fields in the order of their
declaration, leaving out optional fields that are unset and an empty list of finalizers.
-/
namespace StackKeeper

/-- A JSON value seen as a layer: integers from zero on are natural numbers, and an array may give
the fields of a record in order. -/
instance : Layered Json where
  layer
    | .null => .scalar ⟨none, none, none, .absent, false⟩
    | .bool b => .scalar ⟨none, none, some b, .present, false⟩
    | .int n => .scalar ⟨none, if n < 0 then none else some n.toNat, none, .present, false⟩
    | .real _ => .scalar ⟨none, none, none, .present, false⟩
    | .str s => .scalar ⟨some s, none, none, .present, false⟩
    | .arr items => .list true items
    | .obj fields => .mapping fields
    | .unreadable => .unreadable

namespace Document
open Record

section Reading
variable {τ : Type} [Layered τ]

def instant? (t : τ) : Option Instant := (text? t).bind Instant.ofText?

/-- Reads metadata. -/
def metadata? (t : τ) : Option Metadata := do
  let f ← fields? ["name", "namespace", "uid", "generation", "creationTimestamp",
    "deletionTimestamp", "finalizers"] t
  let name ← required? f "name" text?
  let ns ← default? f "namespace" defaultNamespace text?
  let uid ← default? f "uid" "" text?
  let generation ← default? f "generation" 0 (natural? (maxGeneration + 1))
  let created ← default? f "creationTimestamp" none (optional? instant?)
  let deletion ← default? f "deletionTimestamp" none (optional? instant?)
  let finalizers ← default? f "finalizers" [] (list? text?)
  some ⟨name, ns, uid, generation, created, deletion, finalizers⟩

/-- Reads a spec. -/
def spec? (t : τ) : Option Spec := do
  let f ← fields? ["stackName", "template", "templateUrl", "parameters", "tags", "capabilities",
    "roleArn", "notificationArns", "onFailure"] t
  let stackName ← default? f "stackName" none (optional? text?)
  let template ← default? f "template" none (optional? text?)
  let templateUrl ← default? f "templateUrl" none (optional? text?)
  let parameters ← default? f "parameters" TextMap.empty textMap?
  let tags ← default? f "tags" TextMap.empty textMap?
  let capabilities ← default? f "capabilities" [] (list? text?)
  let role ← default? f "roleArn" none (optional? text?)
  let notifications ← default? f "notificationArns" [] (list? text?)
  let onFailure ← default? f "onFailure" none (optional? text?)
  some ⟨stackName, template, templateUrl, parameters, tags, capabilities, role, notifications,
    onFailure⟩

/-- Reads a resource inside a stack. -/
def member? (t : τ) : Option Member := do
  let f ← fields? ["logicalId", "physicalId", "resourceType", "status", "statusReason"] t
  let logicalId ← required? f "logicalId" text?
  let physicalId ← default? f "physicalId" none (optional? text?)
  let kind ← required? f "resourceType" text?
  let status ← required? f "status" text?
  let reason ← default? f "statusReason" none (optional? text?)
  some ⟨logicalId, physicalId, kind, status, reason⟩

/-- Reads a status. -/
def status? (t : τ) : Option Status := do
  let f ← fields? ["stackId", "stackStatus", "createdTime", "updatedTime", "outputs", "roleArn",
    "resources", "appliedSpecHash"] t
  let stackId ← default? f "stackId" "" text?
  let stackStatus ← default? f "stackStatus" "" text?
  let created ← default? f "createdTime" none (optional? instant?)
  let updated ← default? f "updatedTime" none (optional? instant?)
  let outputs ← default? f "outputs" TextMap.empty textMap?
  let role ← default? f "roleArn" "" text?
  let members ← default? f "resources" [] (list? member?)
  let appliedHash ← default? f "appliedSpecHash" "" text?
  some ⟨stackId, stackStatus, created, updated, outputs, role, members, appliedHash⟩

/-- Reads a resource. -/
def resource? (t : τ) : Option Resource := do
  let f ← fields? ["metadata", "spec", "status"] t
  let metadata ← required? f "metadata" metadata?
  let spec ← required? f "spec" spec?
  let status ← default? f "status" Status.empty status?
  some ⟨metadata, spec, status⟩

end Reading

/-! ## Writing -/

/-- A field that is left out when unset. -/
def optionalField (name : String) (o : Option String) : List (String × Json) :=
  match o with
  | some s => [(name, .str s)]
  | none => []

def optionalTime (name : String) (o : Option Instant) : List (String × Json) :=
  optionalField name (o.map Instant.text)

/-- A map as an object with its keys in order. -/
def ofTextMap (m : TextMap) : Json := .obj (m.entries.map fun e => (e.1, .str e.2))

/-- Metadata as JSON. -/
def ofMetadata (m : Metadata) : Json :=
  .obj ([("name", .str m.name), ("namespace", .str m.ns), ("uid", .str m.uid),
    ("generation", .int m.generation)] ++ optionalTime "creationTimestamp" m.created ++
    optionalTime "deletionTimestamp" m.deletion ++
    (if m.finalizers.isEmpty then [] else [("finalizers", Json.ofTexts m.finalizers)]))

/-- A spec as JSON. -/
def ofSpec (s : Spec) : Json :=
  .obj (optionalField "stackName" s.stackName ++ optionalField "template" s.template ++
    optionalField "templateUrl" s.templateUrl ++
    [("parameters", ofTextMap s.parameters), ("tags", ofTextMap s.tags),
      ("capabilities", Json.ofTexts s.capabilities)] ++
    optionalField "roleArn" s.role ++ [("notificationArns", Json.ofTexts s.notifications)] ++
    optionalField "onFailure" s.onFailure)

/-- A resource inside a stack as JSON. -/
def ofMember (m : Member) : Json :=
  .obj ([("logicalId", .str m.logicalId)] ++ optionalField "physicalId" m.physicalId ++
    [("resourceType", .str m.kind), ("status", .str m.status)] ++
    optionalField "statusReason" m.reason)

/-- A status as JSON. -/
def ofStatus (s : Status) : Json :=
  .obj ([("stackId", .str s.stackId), ("stackStatus", .str s.stackStatus)] ++
    optionalTime "createdTime" s.created ++ optionalTime "updatedTime" s.updated ++
    [("outputs", ofTextMap s.outputs), ("roleArn", .str s.role),
      ("resources", .arr (s.members.map ofMember)), ("appliedSpecHash", .str s.appliedHash)])

def ofResource (r : Resource) : Json :=
  .obj [("metadata", ofMetadata r.metadata), ("spec", ofSpec r.spec),
    ("status", ofStatus r.status)]

def ofText? (s : String) : Option Resource := (Json.ofText? s).bind resource?

def text (r : Resource) : String := (ofResource r).pretty

end Document
end StackKeeper
