import StackKeeper.Follow.Tick
import StackKeeper.Follow.Watch
import StackKeeper.Control.WorkQueue
import StackKeeper.Pass
import StackKeeper.Rehearsal.Cloud
import StackKeeper.Rehearsal.Fault
import StackKeeper.Store.Feed
import StackKeeper.Store.Local
/-!
# Rehearsals

A rehearsal runs the operator against a store in a file tree and a provisioning API in memory. Its
state holds both, the handoff queue, the follower and the subscriptions to the store. Calls are
answered at once, and the clock only moves when a call that never returns runs into its deadline.
-/
namespace StackKeeper

/-- The state of a rehearsal. -/
structure World where
  policy : Policy
  store : Store
  cloud : Cloud
  faults : List Fault
  hub : Handoff
  watch : Watch
  queue : WorkQueue
  /-- Changes that wait for whoever watches the rehearsal. -/
  feed : Subscription
  /-- Changes that no running controller has been told of yet, latest first. -/
  published : List Locator
  /-- Nanoseconds since the start. -/
  now : Nat
  /-- The calls that reached the remote side or wrote to the store, latest first. -/
  journal : List Call

/-- How far a program got. -/
inductive Progress (α : Type) where
  | done (value : α)
  /-- A call did not return; the program goes on like this after the given nanoseconds. -/
  | waiting (nanos : Nat) (next : Program α)
  /-- A call without a deadline did not return. -/
  | stuck

namespace World

def publish (w : World) (l : Locator) : World :=
  { w with feed := w.feed.publish l, published := l :: w.published }

/-- Whether a call is kept in the journal. -/
def isNoted : Call → Bool
  | .getResource _ | .listResources | .submit _ | .unfollow _ => false
  | _ => true

def note (w : World) (c : Call) : World :=
  if isNoted c then { w with journal := c :: w.journal } else w

/-- The world after a write to the store, whose change is published if it succeeded. -/
def afterWrite (w : World) (l : Locator) (result : Except Error Unit × Store) :
    Except Error Unit × World :=
  let w := { w with store := result.2 }
  match result.1 with
  | .ok () => (.ok (), w.publish l)
  | .error e => (.error e, w)

/-- Answers a call that nothing strikes. -/
def serve (w : World) : (c : Call) → c.Answer × World
  | .getResource l => (w.store.get l, w)
  | .updateResource r => w.afterWrite r.locator (w.store.update r)
  | .updateStatus r => w.afterWrite r.locator (w.store.updateStatus r)
  | .listResources => (w.store.list, w)
  | .getStack ref =>
    let (answer, cloud) := w.cloud.getStack ref w.now
    (answer, { w with cloud := cloud })
  | .getMembers id => (.ok (w.cloud.getMembers id), w)
  | .createStack inputs _ =>
    let (id, cloud) := w.cloud.createStack inputs w.now
    (.ok id, { w with cloud := cloud })
  | .updateStack inputs =>
    let (answer, cloud) := w.cloud.updateStack inputs w.now
    (answer, { w with cloud := cloud })
  | .deleteStack ref => (.ok (), { w with cloud := w.cloud.deleteStack ref w.now })
  | .submit request => ((), { w with hub := w.hub.submit request })
  | .unfollow id => ((), { w with watch := w.watch.stop id })

/-- The blow that a call gets from the planned failures. -/
def struck (w : World) (c : Call) : Option Blow × World :=
  match c.address? with
  | none => (none, w)
  | some (kind, target) =>
    let (blow, faults) := Fault.strikeFirst kind target w.faults
    (blow, { w with faults := faults })

/-- Answers a call, unless it never returns. -/
def answer (w : World) (c : Call) : Option c.Answer × World :=
  match (w.note c).struck c with
  | (none, w) =>
    let (a, w) := w.serve c
    (some a, w)
  | (some (.error e), w) => (some (c.failed e), w)
  | (some .stall, w) => (none, w)

/-- Runs a program up to its end or to a call that does not return. -/
def advance {α : Type} : Program α → World → Progress α × World
  | .done a, w => (.done a, w)
  | .call c d next, w =>
    match w.answer c with
    | (some a, w) => advance (next a) w
    | (none, w) =>
      match d with
      | some d => (.waiting (d.secs * Instant.secondNanos) (next (c.failed d.exceeded)), w)
      | none => (.stuck, w)

/-- Runs a program to its end, letting the clock run into every deadline on the way. The answer is
nothing if a call without a deadline does not return. -/
def complete {α : Type} : Program α → World → Option α × World
  | .done a, w => (some a, w)
  | .call c d next, w =>
    match w.answer c with
    | (some a, w) => complete (next a) w
    | (none, w) =>
      match d with
      | some d =>
        complete (next (c.failed d.exceeded)) { w with now := w.now + d.secs * Instant.secondNanos }
      | none => (none, w)

/-- Runs a job to its end; one that never ends counts as an internal failure. -/
def perform {α : Type} (w : World) (t : Job α) : Except Error α × World :=
  match complete t.run w with
  | (some result, w) => (result, w)
  | (none, w) => (.error (.internal "a call without a deadline did not return"), w)

/-! ## What can be rehearsed -/

/-- The start of a rehearsal. -/
def start (policy : Policy) (capacity : Nat) (settleNanos : Option Nat)
    (initial : List RemoteStack) : World where
  policy := policy
  store := ⟨["state"], FileTree.empty⟩
  cloud := initial.foldl (fun c s => c.putStack s 0) (Cloud.empty settleNanos)
  faults := []
  hub := Handoff.ofCapacity capacity
  watch := Watch.empty
  queue := WorkQueue.empty
  feed := Subscription.fresh
  published := []
  now := 0
  journal := []

def reconcile (w : World) (l : Locator) : Except Error Outcome × World :=
  w.perform (Pass.reconcile w.policy l)

/-- One tick of the follower. -/
def tick (w : World) : Follow.TickSummary × World :=
  match complete (Follow.tick w.policy.requestTimeoutSecs w.watch.registry.entries) w with
  | (some summary, w) => (summary, w)
  | (none, w) => (Follow.TickSummary.zero, w)

/-- Admits a request, and answers whether it was new. -/
def accept (w : World) (r : FollowRequest) : Bool × World :=
  (w.watch.accepts r, { w with watch := w.watch.accept r })

def drain (w : World) : List FollowRequest × World :=
  let (requests, hub) := w.hub.takeAll
  (requests, { w with hub := hub })

/-- Takes all requests from the handoff queue and accepts them. -/
def receive (w : World) : List (FollowRequest × Bool) × World :=
  let (requests, w) := w.drain
  requests.foldl
    (fun acc r =>
      let (admitted, w) := acc.2.accept r
      (acc.1 ++ [(r, admitted)], w))
    ([], w)

/-- Stores a new resource. -/
def create (w : World) (r : Resource) (uid : String) (now : Instant) :
    Except Error Resource × World :=
  match w.store.create r uid now with
  | (.ok stored, store) => (.ok stored, { w with store := store }.publish r.locator)
  | (.error e, store) => (.error e, { w with store := store })

/-- Refreshes the status of a resource, without a deadline. -/
def refresh (w : World) (r : Resource) (known : Option RemoteStack) :
    Except Error (Resource × Bool) × World :=
  w.perform (Refresh.refresh none r known)

def write (w : World) (c : Call) : c.Answer × World := (w.note c).serve c

/-- Writes a resource back as it is, the given number of times. -/
def touch (w : World) (l : Locator) : Nat → Except Error Unit × World
  | 0 => (.ok (), w)
  | n + 1 =>
    match w.store.get l with
    | .error e => (.error e, w)
    | .ok r =>
      match w.afterWrite l (w.store.update r) with
      | (.ok (), w) => w.touch l n
      | (.error e, w) => (.error e, w)

/-- Lets every stored resource wait for a pass, and answers how many are new in the queue. -/
def resync (w : World) : Except Error Nat × World :=
  match w.perform w.queue.resync with
  | (.ok (queue, n), w) => (.ok n, { w with queue := queue })
  | (.error e, w) => (.error e, w)

/-- Makes passes over the waiting resources, at most as many as given. -/
def work (w : World) : Nat → List (Locator × Except Error Outcome) × World
  | 0 => ([], w)
  | n + 1 =>
    match w.queue.pop with
    | (none, _) => ([], w)
    | (some l, queue) =>
      let (result, w) := { w with queue := queue }.reconcile l
      let (results, w) := w.work n
      ((l, result) :: results, w)

end World
end StackKeeper
