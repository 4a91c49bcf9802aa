import StackKeeper.Refresh
/-!
# Ticks of the follower

A tick looks at every followed stack once: the status of its resource is refreshed, and the stack is
followed no longer when its resource is gone, the stack itself is gone, or it has reached a terminal
status that was recorded. An entry that fails stays and is looked at again in the next tick.
-/
namespace StackKeeper.Follow
open Job

/-- Why a stack is followed no longer. -/
inductive StopReason where
  | resourceGone
  | stackGone
  | terminal
deriving DecidableEq

/-- What became of an entry in a tick. -/
inductive EntryOutcome where
  | stopped (reason : StopReason)
  | inProgress
deriving DecidableEq

/-- How many entries a tick looked at, how many are followed no longer and how many failed. -/
structure TickSummary where
  processed : Nat
  stopped : Nat
  failed : Nat
deriving DecidableEq

namespace TickSummary

def zero : TickSummary := ⟨0, 0, 0⟩

/-- Counts one more entry. -/
def count (s : TickSummary) : Except Error EntryOutcome → TickSummary
  | .ok (.stopped _) => ⟨s.processed + 1, s.stopped + 1, s.failed⟩
  | .ok .inProgress => ⟨s.processed + 1, s.stopped, s.failed⟩
  | .error _ => ⟨s.processed + 1, s.stopped, s.failed + 1⟩

end TickSummary

def stop (id : String) (reason : StopReason) : Job EntryOutcome := do
  unfollow id
  pure (.stopped reason)

/-- Looks at one followed stack; every call has the given time. -/
def lookAt (secs : Nat) (id : String) (l : Locator) : Job EntryOutcome := do
  match ← (getResource l (some ⟨"get resource", secs⟩)).attempt with
  | .error e => if e.isNotFound then stop id .resourceGone else throw e
  | .ok r =>
    match ← (getStack id (some ⟨"get stack", secs⟩)).attempt with
    | .error e => if e.isStackNotFound then stop id .stackGone else throw e
    | .ok s =>
      let _ ← Refresh.refresh (some ⟨"update stack status", secs⟩) r (some s)
      if Lifecycle.isTerminal s.status then stop id .terminal else pure .inProgress

/-- Looks at all entries in turn, adding to a summary. -/
def lookAtAll (secs : Nat) : TickSummary → List (String × Locator) → Program TickSummary
  | summary, [] => .done summary
  | summary, (id, l) :: rest =>
    (lookAt secs id l).run.bind fun result => lookAtAll secs (summary.count result) rest

def tick (secs : Nat) (entries : List (String × Locator)) : Program TickSummary :=
  lookAtAll secs TickSummary.zero entries

end StackKeeper.Follow
