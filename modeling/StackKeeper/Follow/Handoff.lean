import StackKeeper.Resource.Basic
/-!
# The handoff queue

A pass that leaves work in progress hands the stack over to the follower through a bounded queue.
Submitting never waits: a request that finds the buffer full is deferred and moves up when a slot
is freed. Outside a running operator there is nobody to defer to, and such a request is dropped.

Results:
* `toList_submit`: a request submitted while the receiver is there joins at the end.
* `toList_takeNext`: the receiver takes the oldest request and loses none.
-/
namespace StackKeeper

/-- A request to follow a remote stack on behalf of a resource. -/
structure FollowRequest where
  stackId : String
  resource : Locator
  uid : String
deriving DecidableEq

/-- The request to follow a stack for a resource. -/
def Resource.followRequest (r : Resource) (stackId : String) : FollowRequest :=
  ⟨stackId, r.locator, r.metadata.uid⟩

/-- The queue between passes and the follower. -/
structure Handoff where
  capacity : Nat
  buffer : List FollowRequest
  deferred : List FollowRequest
  hasSender : Bool
  hasReceiver : Bool

/-- What a receiver that waits gets. -/
inductive Handoff.Received where
  | request (r : FollowRequest)
  | closed
  | waiting

namespace Handoff

/-- An empty queue; a capacity of zero counts as one. -/
def ofCapacity (capacity : Nat) : Handoff := ⟨max capacity 1, [], [], true, true⟩

/-- All requests not yet received, oldest first. -/
def toList (h : Handoff) : List FollowRequest := h.buffer ++ h.deferred

def isFull (h : Handoff) : Bool := h.capacity ≤ h.buffer.length

/-- Submits a request without waiting. -/
def submit (h : Handoff) (r : FollowRequest) : Handoff :=
  if h.hasSender && h.hasReceiver then
    if h.isFull then { h with deferred := h.deferred ++ [r] }
    else { h with buffer := h.buffer ++ [r] }
  else h

/-- Submits a request from outside the running operator, where nothing can be deferred. -/
def submitOutside (h : Handoff) (r : FollowRequest) : Handoff :=
  if h.isFull then h else h.submit r

/-- Lets deferred requests take the free slots. -/
def refill (h : Handoff) : Handoff :=
  let free := h.capacity - h.buffer.length
  { h with buffer := h.buffer ++ h.deferred.take free, deferred := h.deferred.drop free }

/-- Takes the oldest request, if there is one. -/
def takeNext (h : Handoff) : Option FollowRequest × Handoff :=
  match h.buffer with
  | [] => (none, h)
  | r :: rest => (some r, { h with buffer := rest }.refill)

/-- What a receiver that waits gets: the oldest request, or that no more can come. -/
def receive (h : Handoff) : Received × Handoff :=
  match h.takeNext with
  | (some r, h) => (.request r, h)
  | (none, h) => (if h.hasSender then .waiting else .closed, h)

def takeAll (h : Handoff) : List FollowRequest × Handoff :=
  (h.toList, { h with buffer := [], deferred := [] })

/-- The queue after its receiver is gone: whatever waits is lost. -/
def dropReceiver (h : Handoff) : Handoff :=
  { h with buffer := [], deferred := [], hasReceiver := false }

/-- The queue after the last sender is gone; deferred requests are still delivered. -/
def dropSender (h : Handoff) : Handoff := { h with hasSender := false }

/-- Deferred requests wait only while the buffer is full, which never holds more than fits. -/
def IsSettled (h : Handoff) : Prop :=
  h.buffer.length ≤ h.capacity ∧ (h.deferred ≠ [] → h.buffer.length = h.capacity)

theorem toList_submit {h : Handoff} (r : FollowRequest) (hs : h.IsSettled)
    (ho : (h.hasSender && h.hasReceiver) = true) : (h.submit r).toList = h.toList ++ [r] := by
  rw [submit, if_pos ho]
  split
  · simp [toList]
  · rename_i hf
    have hd : h.deferred = [] := Decidable.byContradiction fun hne =>
      hf (by simp [isFull, hs.2 hne])
    simp [toList, hd]

theorem toList_refill (h : Handoff) : h.refill.toList = h.toList := by
  simp [refill, toList, List.append_assoc]

theorem toList_takeNext {h : Handoff} {r : FollowRequest} {h' : Handoff}
    (ht : h.takeNext = (some r, h')) : h.toList = r :: h'.toList := by
  rw [takeNext] at ht
  split at ht
  · simp at ht
  · rename_i q rest hb
    obtain ⟨hq, rfl⟩ := Prod.mk.inj ht
    obtain rfl := Option.some.inj hq
    rw [toList_refill]
    simp [toList, hb]

end Handoff
end StackKeeper
