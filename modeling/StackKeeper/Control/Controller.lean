import StackKeeper.Control.WorkQueue
import StackKeeper.Pass
import StackKeeper.Store.Feed
/-!
# The controller

The controller decides which resource gets a pass next. It works off its queue, one pass at a time. A
resource enters the queue when a change of it is taken from the feed, when the store is listed for
a resync, or when the retry of a failed pass is due. Changes that came up during a pass are taken
after it, one by one; when some were lost, a resync makes up for them.

The controller is a machine that is driven by events. Some happen as soon as they can (a pass begins, a
change is taken), some are the ends of calls; an event that cannot happen in a state leads nowhere.

Results:
* `moves_of_step`, `Moves.step`: what each event that can happen does, and when it can.
* `isSound_of_step`: the set and the list of the queue stay in step.
-/
namespace StackKeeper

/-- What the controller is doing. -/
inductive Phase where
  /-- It looks for what comes next. -/
  | ready
  /-- A pass over a resource is under way. -/
  | passing (l : Locator)
  /-- The changes that came up during a pass are being taken. -/
  | draining
  /-- The store is being listed for a resync. -/
  | listing
deriving DecidableEq

/-- A pass that is to be made again once it is due, in nanoseconds. -/
structure Retry where
  resource : Locator
  due : Nat
deriving DecidableEq

/-- The state of the controller. -/
structure Controller where
  phase : Phase
  queue : WorkQueue
  feed : Subscription
  retries : List Retry

namespace Controller

/-- What happens to the controller. -/
inductive Event where
  /-- A change of a stored resource is published. -/
  | published (l : Locator)
  /-- A pass begins over the resource that has waited longest. -/
  | passBegins (l : Locator)
  /-- The pass under way ends. -/
  | passEnds (l : Locator) (result : Except Error Outcome)
  /-- A resync begins because it is time for one. -/
  | resyncBegins
  /-- The listing for a resync ends. -/
  | resyncEnds (result : Except Error (List Locator))
  /-- What comes next in the feed is taken. -/
  | itemTaken (i : Subscription.Item)
  /-- The changes that came up during a pass are all taken. -/
  | drained
  /-- A retry that is due is taken. -/
  | retryTaken (r : Retry)

def start (feed : Subscription) : Controller := ⟨.ready, WorkQueue.empty, feed, []⟩

/-- Whether nothing is under way and nothing is in the queue. -/
def isWaiting (c : Controller) : Bool := c.phase == .ready && c.queue.pending.isEmpty

/-- The controller that took an item from its feed and is left with the rest; a loss is made up for by
a resync. -/
def afterItem (c : Controller) (feed : Subscription) : Subscription.Item → Controller
  | .change l => { c with queue := c.queue.push l, feed := feed }
  | .lagged _ => { c with phase := .listing, feed := feed }

/-- The retry that comes first, if it is due. -/
def dueRetry? (c : Controller) (now : Nat) : Option Retry :=
  match (c.retries.map (·.due)).min? with
  | none => none
  | some due => if due ≤ now then c.retries.find? (·.due == due) else none

/-- The retries after the end of a pass: a failed one is made again after the delay of its error. -/
def retriesAfter (c : Controller) (l : Locator) (now : Nat) : Except Error Outcome → List Retry
  | .ok _ => c.retries
  | .error e => c.retries ++ [⟨l, now + e.retryDelaySecs * Instant.secondNanos⟩]

/-- The state after an event at a time in nanoseconds. -/
def step (c : Controller) (now : Nat) : Event → Option Controller
  | .published l => some { c with feed := c.feed.publish l }
  | .passBegins l =>
    if c.phase = .ready ∧ c.queue.pop.1 = some l then
      some { c with phase := .passing l, queue := c.queue.pop.2 }
    else none
  | .passEnds l result =>
    if c.phase = .passing l then
      some { c with phase := .draining, retries := c.retriesAfter l now result }
    else none
  | .resyncBegins => if c.isWaiting then some { c with phase := .listing } else none
  | .resyncEnds result =>
    match c.phase, result with
    | .listing, .ok ls => some { c with phase := .ready, queue := c.queue.pushAll ls }
    | .listing, .error _ => some { c with phase := .ready }
    | _, _ => none
  | .itemTaken i =>
    match c.feed.next? with
    | some (next, feed) =>
      if (c.isWaiting ∨ c.phase = .draining) ∧ next = i then some (c.afterItem feed i) else none
    | none => none
  | .drained =>
    if c.phase = .draining ∧ c.feed.isReady = false then some { c with phase := .ready } else none
  | .retryTaken r =>
    if c.isWaiting ∧ r ∈ c.retries ∧ r.due ≤ now then
      some { c with queue := c.queue.push r.resource, retries := c.retries.erase r }
    else none

/-- The calls that are under way in a phase, up to the event in which they end. -/
def calls? (p : Policy) (c : Controller) : Option (Program Event) :=
  match c.phase with
  | .ready | .draining => none
  | .passing l => some ((Pass.reconcile p l).run.bind fun result => .done (.passEnds l result))
  | .listing => some (Job.listResources.run.bind fun result => .done (.resyncEnds result))

theorem isWaiting_iff {c : Controller} :
    c.isWaiting = true ↔ c.phase = .ready ∧ c.queue.pending = [] := by
  simp [isWaiting]

/-- The events that can happen at a time, with what they do. -/
inductive Moves (now : Nat) (c : Controller) : Event → Controller → Prop
  | published (l : Locator) : Moves now c (.published l) { c with feed := c.feed.publish l }
  | passBegins {l : Locator} (hp : c.phase = .ready) (hq : c.queue.pop.1 = some l) :
    Moves now c (.passBegins l) { c with phase := .passing l, queue := c.queue.pop.2 }
  | passEnds {l : Locator} (result : Except Error Outcome) (hp : c.phase = .passing l) :
    Moves now c (.passEnds l result)
      { c with phase := .draining, retries := c.retriesAfter l now result }
  | resyncBegins (hw : c.isWaiting = true) : Moves now c .resyncBegins { c with phase := .listing }
  | resynced (ls : List Locator) (hp : c.phase = .listing) :
    Moves now c (.resyncEnds (.ok ls)) { c with phase := .ready, queue := c.queue.pushAll ls }
  | unlisted (e : Error) (hp : c.phase = .listing) :
    Moves now c (.resyncEnds (.error e)) { c with phase := .ready }
  | itemTaken {i : Subscription.Item} {feed : Subscription}
    (hp : c.isWaiting = true ∨ c.phase = .draining) (hn : c.feed.next? = some (i, feed)) :
    Moves now c (.itemTaken i) (c.afterItem feed i)
  | drained (hp : c.phase = .draining) (hf : c.feed.isReady = false) :
    Moves now c .drained { c with phase := .ready }
  | retryTaken {r : Retry} (hw : c.isWaiting = true) (hr : r ∈ c.retries) (hd : r.due ≤ now) :
    Moves now c (.retryTaken r)
      { c with queue := c.queue.push r.resource, retries := c.retries.erase r }

theorem moves_of_step {c d : Controller} {now : Nat} {e : Event} (h : c.step now e = some d) :
    Moves now c e d := by
  cases e with
  | published l => cases h; exact .published l
  | passBegins l =>
    obtain ⟨⟨hp, hq⟩, ⟨⟩⟩ := Option.ite_none_right_eq_some.mp h
    exact .passBegins hp hq
  | passEnds l result =>
    obtain ⟨hp, ⟨⟩⟩ := Option.ite_none_right_eq_some.mp h
    exact .passEnds result hp
  | resyncBegins =>
    obtain ⟨hw, ⟨⟩⟩ := Option.ite_none_right_eq_some.mp h
    exact .resyncBegins hw
  | resyncEnds result =>
    simp only [step] at h
    split at h
    case h_1 ls hp => cases h; exact .resynced ls hp
    case h_2 e hp => cases h; exact .unlisted e hp
    case h_3 => cases h
  | itemTaken i =>
    simp only [step] at h
    split at h
    case h_1 next feed hn =>
      obtain ⟨⟨hp, rfl⟩, ⟨⟩⟩ := Option.ite_none_right_eq_some.mp h
      exact .itemTaken hp hn
    case h_2 => cases h
  | drained =>
    obtain ⟨⟨hp, hf⟩, ⟨⟩⟩ := Option.ite_none_right_eq_some.mp h
    exact .drained hp hf
  | retryTaken r =>
    obtain ⟨⟨hw, hr, hd⟩, ⟨⟩⟩ := Option.ite_none_right_eq_some.mp h
    exact .retryTaken hw hr hd

theorem Moves.step {c d : Controller} {now : Nat} {e : Event} (h : Moves now c e d) :
    c.step now e = some d := by
  cases h with
  | published l => rfl
  | passBegins hp hq => exact if_pos ⟨hp, hq⟩
  | passEnds result hp => exact if_pos hp
  | resyncBegins hw => exact if_pos hw
  | resynced ls hp => simp [Controller.step, hp]
  | unlisted e hp => simp [Controller.step, hp]
  | itemTaken hp hn => simp [Controller.step, hn, hp]
  | drained hp hf => exact if_pos ⟨hp, hf⟩
  | retryTaken hw hr hd => exact if_pos ⟨hw, hr, hd⟩

theorem isSound_of_step {c d : Controller} {now : Nat} {e : Event} (hq : c.queue.IsSound)
    (h : c.step now e = some d) : d.queue.IsSound := by
  cases moves_of_step h with
  | passBegins hp hn => exact hq.pop
  | resynced ls hp => exact hq.pushAll ls
  | @itemTaken i feed hp hn =>
    cases i with
    | change l => exact hq.push l
    | lagged n => exact hq
  | retryTaken hw hr hd => exact hq.push _
  | published | passEnds | resyncBegins | unlisted | drained => exact hq

end Controller
end StackKeeper
