import StackKeeper.Follow.Handoff
import StackKeeper.Follow.Registry
import StackKeeper.Metrics.Basic
/-!
# What the follower keeps

The registry of followed stacks and the metrics that report on it. A request is admitted if it has
an id that is not followed yet; the gauge goes up with every admission and down with every stop.
-/
namespace StackKeeper

/-- The state of the follower. -/
structure Watch where
  registry : Registry
  metrics : Metrics

namespace Watch

def empty : Watch := ⟨Registry.empty, Metrics.zero⟩

def accepts (w : Watch) (r : FollowRequest) : Bool :=
  r.stackId != "" && !w.registry.contains r.stackId

/-- Admits a request; one without an id or for a followed stack changes nothing. -/
def accept (w : Watch) (r : FollowRequest) : Watch :=
  if w.accepts r then
    { registry := w.registry.insertNew r.stackId r.resource
      metrics := (w.metrics.increment Metrics.followedTotalName).increment Metrics.followingName }
  else w

/-- Stops following a stack. -/
def stop (w : Watch) (id : String) : Watch :=
  if w.registry.contains id then
    { registry := w.registry.erase id
      metrics := w.metrics.decrement Metrics.followingName }
  else w

end Watch
end StackKeeper
