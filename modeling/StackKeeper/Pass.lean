import StackKeeper.Fingerprint
import StackKeeper.Refresh
/-!
# Reconcile passes

A pass compares the declared state of one resource with its remote stack and takes at most one
corrective action; work that takes longer is handed over to the follower.

A resource that is not marked for deletion first gets its finalizer. Then the stack is looked up
once: a stack of ours that is at work is handed over, a settled one is updated if its inputs
changed, and if there is no stack of ours one is created. A marked resource keeps its finalizers
until its stack is gone; whether the stack is ours is looked up again right before it is deleted.
-/
namespace StackKeeper

/-- What a pass did. -/
inductive Outcome where
  /-- The resource is no longer stored. -/
  | resourceGone
  /-- The stack is gone and the finalizers were removed. -/
  | finalized
  /-- The finalizer was added; work goes on in the next pass. -/
  | finalizerAdded
  /-- The stack is at work and was handed over to the follower. -/
  | handedOff
  /-- A create call was accepted. -/
  | created
  /-- An update call was accepted. -/
  | updated
  /-- There was nothing to submit, and the status was refreshed. -/
  | upToDate
  /-- A delete call was accepted. -/
  | deleting
  /-- The stack is not ours and was left in place. -/
  | deleteSkipped
  /-- A call was left out because of the dry run. -/
  | dryRun
  /-- There was nothing to do. -/
  | idle
deriving DecidableEq

namespace Outcome

def all : List Outcome :=
  [resourceGone, finalized, finalizerAdded, handedOff, created, updated, upToDate, deleting,
    deleteSkipped, dryRun, idle]

/-- Whether a call that changes remote stacks was accepted. -/
def isMutation : Outcome → Bool
  | created | updated | deleting => true
  | _ => false

/-- The wording of an outcome. -/
def text : Outcome → String
  | resourceGone => "resource gone"
  | finalized => "finalized"
  | finalizerAdded => "finalizer added"
  | handedOff => "handed off to follower"
  | created => "stack create submitted"
  | updated => "stack update submitted"
  | upToDate => "up to date"
  | deleting => "stack delete submitted"
  | deleteSkipped => "delete skipped, stack not owned"
  | dryRun => "dry run"
  | idle => "idle"

end Outcome

namespace Pass
open Job

/-- The deadline of a call of the pass. -/
def within (p : Policy) (operation : String) : Option Deadline :=
  some ⟨operation, p.requestTimeoutSecs⟩

/-- The template of a resource. -/
def templateOf (r : Resource) : Job Template :=
  match r.spec.templateSource? with
  | some t => pure t
  | none => throw (.templateNotUnique r.locator.text)

/-- Looks up the stack of a resource; that there is none is no failure. -/
def lookUp (p : Policy) (r : Resource) : Job (Option RemoteStack) := do
  match ← (getStack r.stackRef (within p "get stack")).attempt with
  | .ok s => pure (some s)
  | .error e => if e.isStackNotFound then pure none else throw e

/-- Creates the stack of a resource, records it and hands it over. -/
def create (p : Policy) (r : Resource) : Job Outcome := do
  let template ← templateOf r
  if p.dryRun then pure .dryRun
  else
    let id ← createStack (p.inputs r template r.stackName) r.spec.onFailure
      (within p "create stack")
    let recorded := (r.withStatus { r.status with stackId := id }).withAppliedHash
      (Fingerprint.ofResource p r)
    unlessMissing (updateStatus recorded none)
    submit (recorded.followRequest id)
    pure .created

/-- Whether a settled stack runs the inputs of the resource: they were the last ones recorded, they
were applied, and nobody has changed the tags since. -/
def isCurrent (p : Policy) (r : Resource) (s : RemoteStack) : Bool :=
  r.status.appliedHash == Fingerprint.ofResource p r && Lifecycle.isSuccessful s.status &&
    s.tags == p.effectiveTags r

/-- Updates a settled stack unless it is current. -/
def update (p : Policy) (r : Resource) (s : RemoteStack) : Job Outcome := do
  let template ← templateOf r
  if isCurrent p r s then
    let _ ← Refresh.refresh (within p "update stack status") r (some s)
    pure .upToDate
  else if p.dryRun then pure .dryRun
  else
    let recorded := r.withAppliedHash (Fingerprint.ofResource p r)
    match ← (updateStack (p.inputs r template s.id) (within p "update stack")).attempt with
    | .ok () =>
      unlessMissing (updateStatus recorded none)
      submit (recorded.followRequest s.id)
      pure .updated
    | .error e =>
      if e.isNoUpdates then
        let (merged, written) ← Refresh.refresh (within p "update stack status") recorded (some s)
        if written then pure .upToDate
        else
          unlessMissing (updateStatus merged none)
          pure .upToDate
      else if e.isStackNotFound then create p r
      else throw e

/-- Brings the stack of a resource that is not marked in line with its spec. -/
def settle (p : Policy) (r : Resource) : Job Outcome := do
  match ← lookUp p r with
  | none => create p r
  | some s =>
    if s.isDeleted || !s.isControlled then create p r
    else if Lifecycle.isTerminal s.status then update p r s
    else
      submit (r.followRequest s.id)
      pure .handedOff

/-- Removes the finalizers of the operator. -/
def release (r : Resource) (o : Outcome) : Job Outcome := do
  unlessMissing (updateResource r.removeStackFinalizers)
  pure o

/-- Deletes the stack of a marked resource if it is ours. -/
def delete (p : Policy) (r : Resource) : Job Outcome := do
  if p.dryRun then pure .dryRun
  else
    match ← lookUp p r with
    | none => release r .finalized
    | some s =>
      if !s.isControlled then release r .deleteSkipped
      else if s.status == Lifecycle.deleteInProgress then
        submit (r.followRequest s.id)
        pure .handedOff
      else
        deleteStack s.id (within p "delete stack")
        submit (r.followRequest s.id)
        pure .deleting

/-- Finishes a marked resource: its finalizers go once the stack is gone. A recorded deletion needs
no look-up; any other recorded status may lag behind a create call. -/
def finalize (p : Policy) (r : Resource) : Job Outcome := do
  if r.status.stackStatus == Lifecycle.deleteComplete then release r .finalized
  else
    match ← lookUp p r with
    | none => release r .finalized
    | some s => if s.isDeleted then release r .finalized else delete p r

/-- What a pass does with the resource it has read. -/
def onResource (p : Policy) (r : Resource) : Job Outcome :=
  if r.isMarked then
    if r.hasStackFinalizer then finalize p r else pure .idle
  else if r.hasFinalizer stackFinalizer then settle p r
  else do
    updateResource (r.addFinalizer stackFinalizer)
    pure .finalizerAdded

/-- One pass over the resource stored under the locator. -/
def reconcile (p : Policy) (l : Locator) : Job Outcome := do
  match ← (getResource l none).attempt with
  | .ok r => onResource p r
  | .error e => if e.isNotFound then pure .resourceGone else throw e

end Pass
end StackKeeper
