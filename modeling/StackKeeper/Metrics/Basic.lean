/-!
# Metrics

Two numbers describe the follower: a gauge of the stacks it follows now and a counter of the stacks
it has followed since the start. Both are 64-bit words that wrap around; the counter only
ever counts up.
-/
namespace StackKeeper

structure Metrics where
  following : Int64
  followedTotal : UInt64
deriving DecidableEq

namespace Metrics

def followingName : String := "stack_operator_stacks_following"

def followedTotalName : String := "stack_operator_stacks_followed_total"

/-- The values at the start. -/
def zero : Metrics := ⟨0, 0⟩

/-- Counts a metric up by one; an unknown name changes nothing. -/
def increment (m : Metrics) (name : String) : Metrics :=
  if name = followingName then { m with following := m.following + 1 }
  else if name = followedTotalName then { m with followedTotal := m.followedTotal + 1 }
  else m

def decrement (m : Metrics) (name : String) : Metrics :=
  if name = followingName then { m with following := m.following - 1 } else m

def set (m : Metrics) (name : String) (value : Int64) : Metrics :=
  if name = followingName then { m with following := value } else m

end Metrics
end StackKeeper
