import StackKeeper.Program.Basic
import StackKeeper.Resource.Merge
/-!
# Refreshing a status

The status of a resource is refreshed from its remote stack: the stack is looked up unless the
caller has just done so, its resources are listed, and the merged status is written if the
observation brings news. A resource that is gone by then is no failure.
-/
namespace StackKeeper.Refresh
open Job

/-- The stack at hand, or the one found by a look-up. -/
def observe (d : Option Deadline) (r : Resource) : Option RemoteStack → Job RemoteStack
  | some s => pure s
  | none => getStack r.stackRef d

/-- Writes a resource with its new status; the answer says whether it was still there. -/
def persist (d : Option Deadline) (r : Resource) : Job Bool := do
  match ← (updateStatus r d).attempt with
  | .ok () => pure true
  | .error e => if e.isNotFound then pure false else throw e

/-- Refreshes the status of a resource. The answer is the resource with the status merged, and
whether that was written. -/
def refresh (d : Option Deadline) (r : Resource) (known : Option RemoteStack) :
    Job (Resource × Bool) := do
  let s ← observe d r known
  let members ← getMembers s.id d
  if r.status.isNews s members then
    let merged := r.withStatus (r.status.merge s members)
    let written ← persist d merged
    pure (merged, written)
  else pure (r, false)

end StackKeeper.Refresh
