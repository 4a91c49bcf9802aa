import StackKeeper.Control.Controller
import StackKeeper.Rehearsal.World
/-!
# Rehearsing a whole run

For a while the controller, the receiver and the poll worker of the follower run together. Whatever
can go on does so before the clock moves, and the clock then moves to the next point in time at which
something is due.

While the controller waits it resyncs on a fixed interval, takes changes, and takes retries. The worker
ticks on a fixed interval. A tick that comes late starts its interval anew, and so does a late
resync.
-/
namespace StackKeeper
namespace Rehearsal

/-- How far the calls of a task have got. -/
inductive Errand (α : Type) where
  /-- No call is under way. -/
  | free
  /-- A call has not returned; the task goes on like this when the call runs out of time. -/
  | waiting (due : Nat) (rest : Program α)
  /-- A call without a deadline has not returned. -/
  | stuck

/-- A run under way. -/
structure Run where
  world : World
  controller : Controller
  control : Errand Controller.Event
  worker : Errand Follow.TickSummary
  resyncDue : Nat
  tickDue : Nat
  resyncInterval : Nat
  pollInterval : Nat
  /-- Whether the change feed of the controller ended. -/
  feedClosed : Bool
  failed : Option Error

namespace Run

/-- The time at which a repeated event is due again: an event that comes late starts its interval
anew. -/
def nextDue (due now interval : Nat) : Nat :=
  if due + 5000000 < now then now + interval else due + interval

/-- Admits every request that waits in the handoff queue. -/
def receive (s : Run) : Run := { s with world := s.world.receive.2 }

/-- Lets an event happen to the controller, if it can. -/
def happen? (s : Run) (e : Controller.Event) : Option Run :=
  (s.controller.step s.world.now e).map fun c => { s with controller := c }

def happenAll (s : Run) (events : List Controller.Event) : Run :=
  events.foldl (fun s e => (s.happen? e).getD s) s

/-- The run in another world, whose changes the controller is told. -/
def enter (s : Run) (w : World) : Run :=
  { s with world := { w with published := [] } }.happenAll (w.published.reverse.map .published)

/-- Lets the controller take the changes that came up during a pass, up to a loss. -/
def drain (s : Run) : Run :=
  match s.controller.phase with
  | .draining => s.happenAll (s.controller.feed.takeAll.map .itemTaken ++ [.drained])
  | _ => s

/-- The run after the calls of the controller have got as far as they can. -/
def afterCalls (s : Run) (result : Progress Controller.Event × World) : Run :=
  let s := s.enter result.2
  match result.1 with
  | .done e => ({ s with control := .free }.happenAll [e]).drain
  | .waiting nanos rest => { s with control := .waiting (s.world.now + nanos) rest }
  | .stuck => { s with control := .stuck }

/-- The run after a tick has got as far as it can. -/
def afterTick (s : Run) (result : Progress Follow.TickSummary × World) : Run :=
  let s := s.enter result.2
  match result.1 with
  | .done _ => { s with worker := .free }
  | .waiting nanos rest => { s with worker := .waiting (s.world.now + nanos) rest }
  | .stuck => { s with worker := .stuck }

/-- Lets the worker do what is due. -/
def stepWorker? (s : Run) : Option Run :=
  match s.worker with
  | .stuck => none
  | .waiting due rest =>
    if due ≤ s.world.now then some (s.afterTick (World.advance rest s.world)) else none
  | .free =>
    if s.tickDue ≤ s.world.now then
      let s := { s with tickDue := nextDue s.tickDue s.world.now s.pollInterval }
      let program := Follow.tick s.world.policy.requestTimeoutSecs s.world.watch.registry.entries
      some (s.afterTick (World.advance program s.world))
    else none

/-- What the controller does while it waits. -/
def stepWaiting? (s : Run) : Option Run :=
  if s.resyncDue ≤ s.world.now then
    { s with resyncDue := nextDue s.resyncDue s.world.now s.resyncInterval }.happen? .resyncBegins
  else if s.feedClosed then
    some { s with failed := some (.internal "store change feed closed") }
  else
    match s.controller.feed.next? with
    | some (i, _) => s.happen? (.itemTaken i)
    | none => (s.controller.dueRetry? s.world.now).bind fun r => s.happen? (.retryTaken r)

/-- Lets the controller do what is due. -/
def stepControl? (s : Run) : Option Run :=
  match s.control with
  | .stuck => none
  | .waiting due rest =>
    if due ≤ s.world.now then some (s.afterCalls (World.advance rest s.world)) else none
  | .free =>
    match s.controller.calls? s.world.policy with
    | some program => some (s.afterCalls (World.advance program s.world))
    | none =>
      match s.controller.queue.pop.1 with
      | some l => s.happen? (.passBegins l)
      | none => s.stepWaiting?

/-- The times at which something is due. -/
def dueTimes (s : Run) : List Nat :=
  (match s.worker with
    | .free => [s.tickDue]
    | .waiting due _ => [due]
    | .stuck => []) ++
  (match s.control with
    | .free => s.resyncDue :: s.controller.retries.map (·.due)
    | .waiting due _ => [due]
    | .stuck => [])

/-- Runs until the given time; the number of steps is bounded. -/
def runUntil (finish : Nat) : Nat → Run → Run
  | 0, s => s
  | n + 1, s =>
    if s.failed.isSome then s
    else
      let s := s.receive
      match s.stepWorker? with
      | some s => runUntil finish n s
      | none =>
        match s.stepControl? with
        | some s => runUntil finish n s
        | none =>
          match s.dueTimes.min? with
          | none => s
          | some due =>
            if finish < due then s
            else runUntil finish n { s with world := { s.world with now := due } }

end Run

/-- Where the controller takes its changes from. -/
inductive FeedSource where
  /-- A subscription that begins with the run. -/
  | fresh
  /-- The subscription that began with the rehearsal. -/
  | early
  /-- A feed that has ended. -/
  | closed

/-- Lets everything run for the given nanoseconds. Afterwards nobody receives from the handoff queue
any more. -/
def run (w : World) (nanos resyncSecs pollSecs : Nat) (source : FeedSource) :
    Except Error Unit × World :=
  let feed := match source with
    | .early => w.feed
    | _ => Subscription.fresh
  let watcher := match source with
    | .early => Subscription.fresh
    | _ => w.feed
  let started : Run :=
    { world := { w with feed := watcher, published := [] }
      controller := Controller.start feed
      control := .free
      worker := .free
      resyncDue := w.now
      tickDue := w.now
      resyncInterval := max (resyncSecs * Instant.secondNanos) 1000000
      pollInterval := max (pollSecs * Instant.secondNanos) 1000000
      feedClosed := match source with
        | .closed => true
        | _ => false
      failed := none }
  let finish := w.now + nanos
  let ended := Run.runUntil finish (100000 + nanos / 10000) started
  let world := { ended.world with hub := ended.world.hub.dropReceiver, now := finish }
  match ended.failed with
  | some e => (.error e, world)
  | none => (.ok (), world)

end Rehearsal
end StackKeeper
