import Mathlib.Data.List.Induction
import StackKeeper.Control.Controller
import StackKeeper.Proofs.MutationGuard
import StackKeeper.Proofs.Serving
/-!
# Retries of failed passes

A pass that fails is made again later. Its retry waits for its time beside the queue, and not in it,
so that several retries of one resource can be outstanding at once. Each of them goes back to a
wake-up: a change that was taken, or a resync that listed the resource.

Results:
* `outstanding_of_moves`: a retry is added by a pass that fails and removed when it is taken.
* `outstanding_le_of_chain`: there are no more retries of a resource than there were wake-ups of it.
* `one_outstanding_iff`: how many retries are outstanding, and when never more than one is.
* `exists_piled`: retries of a resource that keeps failing pile up without bound.
-/
namespace StackKeeper
namespace Controller
open Pass

/-- Events with their times in nanoseconds. -/
abbrev Trace := List (Nat × Controller.Event)

/-- What one thing that happens makes of the controller. Calls end as the program that makes them can
end. -/
def Takes (p : Policy) (c : Controller) (t : Nat × Controller.Event) (d : Controller) : Prop :=
  c.step t.1 t.2 = some d ∧
    ∀ program, c.calls? p = some program → (∃ l, t.2 = .published l) ∨ ∃ log, program.Ran log t.2

def outstanding (c : Controller) (l : Locator) : Nat := c.retries.countP (·.resource = l)

namespace Event

/-- A pass over the resource fails. -/
def isFailureOf (l : Locator) : Controller.Event → Bool
  | .passEnds l' (.error _) => l' = l
  | _ => false

def isRetryOf (l : Locator) : Controller.Event → Bool
  | .retryTaken r => r.resource = l
  | _ => false

/-- The resource is to get a pass for another reason than a retry. -/
def wakes (l : Locator) : Controller.Event → Bool
  | .itemTaken (.change l') => l' = l
  | .resyncEnds (.ok ls) => ls.contains l
  | _ => false

end Event

/-- How often something of a kind happened in a run. -/
def times (kind : Controller.Event → Bool) (run : Trace) : Nat :=
  run.countP fun t => kind t.2

variable {p : Policy} {c d m : Controller} {l : Locator} {now : Nat} {e : Controller.Event}
  {t : Nat × Controller.Event} {run earlier later : Trace} {feed : Subscription}

theorem times_concat (kind : Controller.Event → Bool) :
    times kind (run ++ [t]) = times kind run + if kind t.2 then 1 else 0 := by
  simp [times, List.countP_append, List.countP_singleton]

theorem eq_of_chain (h : Chain (Takes p) c run d) (h' : Chain (Takes p) c run m) : d = m := by
  induction run generalizing c with
  | nil => exact h.trans h'.symm
  | cons t run ih =>
    obtain ⟨x, hx, h⟩ := h
    obtain ⟨y, hy, h'⟩ := h'
    obtain rfl : x = y := Option.some.inj (hx.1.symm.trans hy.1)
    exact ih h h'

theorem isSound_of_chain (hq : c.queue.IsSound) (h : Chain (Takes p) c run d) :
    d.queue.IsSound := by
  induction run generalizing c with
  | nil => exact h ▸ hq
  | cons t run ih =>
    obtain ⟨m, hm, h⟩ := h
    exact ih (isSound_of_step hq hm.1) h

/-! ## Counting -/

/-- A retry is added by a pass that fails, and removed when it is taken. -/
theorem outstanding_of_moves (h : Moves now c e d) :
    d.outstanding l + (if e.isRetryOf l then 1 else 0) =
      c.outstanding l + if e.isFailureOf l then 1 else 0 := by
  cases h with
  | @passEnds l' result hp =>
    cases result with
    | ok o => rfl
    | error x =>
      simp [outstanding, retriesAfter, Event.isRetryOf, Event.isFailureOf, List.countP_append,
        List.countP_singleton]
  | @retryTaken r hw hr hd =>
    have hcount : c.outstanding l = (r :: c.retries.erase r).countP (·.resource = l) :=
      (List.perm_cons_erase hr).countP_eq _
    rw [hcount, List.countP_cons]
    simp [outstanding, Event.isRetryOf, Event.isFailureOf]
  | @itemTaken i feed hp hn => cases i <;> rfl
  | published | passBegins | resyncBegins | resynced | unlisted | drained => rfl

theorem outstanding_of_chain (h : Chain (Takes p) (start feed) run c) :
    c.outstanding l + times (Event.isRetryOf l) run = times (Event.isFailureOf l) run := by
  induction run using List.reverseRecOn generalizing c with
  | nil => subst h; rfl
  | append_singleton run t ih =>
    obtain ⟨m, hm, ht⟩ := chain_concat.mp h
    have hle := ih hm
    have hcount := outstanding_of_moves (l := l) (moves_of_step ht.1)
    simp only [times_concat]
    omega

/-- The pass that a resource waits for in the queue, if it does. -/
def waits (q : WorkQueue) (l : Locator) : Nat := if l ∈ q.pending then 1 else 0

/-- The pass over a resource that is under way, if one is. -/
def running (phase : Phase) (l : Locator) : Nat := if phase = .passing l then 1 else 0

section
variable {q : WorkQueue} {l' : Locator}

theorem waits_push_le (hq : q.IsSound) (l' l : Locator) :
    waits (q.push l') l ≤ waits q l + if l' = l then 1 else 0 := by
  rw [waits, waits]
  by_cases hl : l' = l
  · simp only [hl, if_true]
    split <;> omega
  · simp [WorkQueue.mem_push hq, hl, Ne.symm hl]

theorem waits_pushAll_le (hq : q.IsSound) (ls : List Locator) (l : Locator) :
    waits (q.pushAll ls) l ≤ waits q l + if ls.contains l then 1 else 0 := by
  rw [waits, waits]
  by_cases hl : l ∈ ls
  · simp only [List.contains_iff_mem.mpr hl, if_true]
    split <;> omega
  · simp [WorkQueue.mem_pushAll hq, hl]

theorem waits_pop (hq : q.IsSound) (hn : q.pop.1 = some l') (l : Locator) :
    waits q l = waits q.pop.2 l + if l' = l then 1 else 0 := by
  have hpend := WorkQueue.pending_of_pop hn
  have hnot : l' ∉ q.pop.2.pending := by
    have hnodup := hq.nodup
    rw [hpend] at hnodup
    exact (List.nodup_cons.mp hnodup).1
  rw [waits, waits, hpend]
  by_cases hl : l' = l
  · subst hl
    simp [hnot]
  · simp [hl, Ne.symm hl]

theorem running_passing (l' l : Locator) : running (.passing l') l = if l' = l then 1 else 0 := by
  simp [running]

end

/-- A resource gets a pass to wait for when it wakes up or when a retry of it is taken. A pass that
fails is one that was under way. -/
theorem passes_of_moves (hq : c.queue.IsSound) (h : Moves now c e d) :
    waits d.queue l + running d.phase l + (if e.isFailureOf l then 1 else 0) ≤
      waits c.queue l + running c.phase l + (if e.wakes l then 1 else 0) +
        if e.isRetryOf l then 1 else 0 := by
  unfold Event.isFailureOf Event.wakes Event.isRetryOf
  cases h with
  | published l' => exact Nat.le_refl _
  | @passBegins l' hp hn =>
    have hpop := waits_pop hq hn l
    simp only [running_passing]
    omega
  | @passEnds l' result hp =>
    rw [hp, running_passing]
    cases result <;> simp [running]
  | resynced ls hp =>
    have hpush := waits_pushAll_le hq ls l
    have hready : running .ready l = 0 := rfl
    simp only [hready]
    omega
  | @itemTaken i feed hp hn =>
    cases i with
    | change l' =>
      have hpush := waits_push_le hq l' l
      simp only [afterItem, decide_eq_true_eq]
      omega
    | lagged n => simp [afterItem, running]
  | @retryTaken r hw hr hd =>
    have hpush := waits_push_le hq r.resource l
    simp only [decide_eq_true_eq]
    omega
  | resyncBegins | unlisted | drained => simp [running]

/-- Every retry that is outstanding goes back to a wake-up of its own. -/
theorem outstanding_le_of_chain (h : Chain (Takes p) (start feed) run c) :
    c.outstanding l + waits c.queue l + running c.phase l ≤ times (Event.wakes l) run := by
  induction run using List.reverseRecOn generalizing c with
  | nil => subst h; exact Nat.le_refl 0
  | append_singleton run t ih =>
    obtain ⟨m, hm, ht⟩ := chain_concat.mp h
    have hq : m.queue.IsSound := isSound_of_chain WorkQueue.isSound_empty hm
    have hle := ih hm
    have hpasses := passes_of_moves (l := l) hq (moves_of_step ht.1)
    have hcount := outstanding_of_moves (l := l) (moves_of_step ht.1)
    rw [times_concat]
    omega

/-! ## When retries stand side by side -/

/-- The state is one that the run goes through. -/
def Visits (p : Policy) (feed : Subscription) (run : Trace) (d : Controller) : Prop :=
  ∃ earlier later, run = earlier ++ later ∧ Chain (Takes p) (start feed) earlier d

/-- In the run no pass over the resource fails while a retry of it is outstanding. -/
def FailsAlone (p : Policy) (feed : Subscription) (l : Locator) (run : Trace) : Prop :=
  ∀ earlier t later d, run = earlier ++ t :: later → t.2.isFailureOf l = true →
    Chain (Takes p) (start feed) earlier d → d.outstanding l = 0

theorem FailsAlone.of_append (h : FailsAlone p feed l (earlier ++ later)) :
    FailsAlone p feed l earlier := by
  rintro past t rest d rfl ht hd
  exact h past t (rest ++ later) d (by simp) ht hd

theorem outstanding_of_failsAlone (hf : FailsAlone p feed l run)
    (h : Chain (Takes p) (start feed) run c) : c.outstanding l ≤ 1 := by
  induction run using List.reverseRecOn generalizing c with
  | nil => subst h; exact Nat.zero_le 1
  | append_singleton run t ih =>
    obtain ⟨m, hm, ht⟩ := chain_concat.mp h
    have hcount := outstanding_of_moves (l := l) (moves_of_step ht.1)
    have hle : m.outstanding l ≤ 1 := ih hf.of_append hm
    cases hfail : t.2.isFailureOf l with
    | true =>
      have hzero : m.outstanding l = 0 := hf run t [] m rfl hfail hm
      simp only [hfail, if_true] at hcount
      omega
    | false =>
      simp only [hfail, Bool.false_eq_true, if_false] at hcount
      omega

/-- A pass that fails while a retry of its resource is outstanding leaves two. -/
theorem failsAlone_of_visits (h : Chain (Takes p) (start feed) run c)
    (hone : ∀ d, Visits p feed run d → d.outstanding l ≤ 1) : FailsAlone p feed l run := by
  rintro earlier t later d rfl ht hd
  obtain ⟨m, hm, m', ht', -⟩ := chain_append.mp h
  obtain rfl : d = m := eq_of_chain hd hm
  have hcount := outstanding_of_moves (l := l) (moves_of_step ht'.1)
  have hle : m'.outstanding l ≤ 1 :=
    hone m' ⟨earlier ++ [t], later, by simp, chain_concat.mpr ⟨d, hm, ht'⟩⟩
  rw [ht, if_pos rfl] at hcount
  have hretry : t.2.isRetryOf l = false := by
    cases t with
    | mk now e => cases e <;> first | rfl | cases ht
  simp only [hretry, Bool.false_eq_true, if_false] at hcount
  omega

/-- After every run the outstanding retries of a resource are as many as passes over it failed, less
those that were taken. There are no more of them than there were wake-ups of the resource. All along
there is at most one exactly if no pass over the resource fails while one is outstanding. -/
theorem one_outstanding_iff (h : Chain (Takes p) (start feed) run c) :
    c.outstanding l + times (Event.isRetryOf l) run = times (Event.isFailureOf l) run ∧
      c.outstanding l ≤ times (Event.wakes l) run ∧
      ((∀ d, Visits p feed run d → d.outstanding l ≤ 1) ↔ FailsAlone p feed l run) := by
  refine ⟨outstanding_of_chain h, ?_, failsAlone_of_visits h, ?_⟩
  · have hle := outstanding_le_of_chain (l := l) h
    omega
  · rintro hf d ⟨earlier, later, rfl, hd⟩
    exact outstanding_of_failsAlone hf.of_append hd

/-! ## A resource that keeps failing -/

/-- The controller waits, and there is nothing for it to take but the given retries. -/
structure Rests (c : Controller) (retries : List Retry) : Prop where
  isWaiting : c.isWaiting = true
  isSound : c.queue.IsSound
  feed_eq : c.feed = .fresh
  retries_eq : c.retries = retries

theorem rests_start : (start .fresh).Rests [] :=
  ⟨rfl, WorkQueue.isSound_empty, rfl, rfl⟩

/-- What is read of a resource whose document is damaged. -/
def damage : Error := Store.corrupted ["state", "default", "web.json"]

/-- The delay after which a pass over a damaged document is made again. -/
def delay : Nat := damage.retryDelaySecs * Instant.secondNanos

/-- A pass over a resource, which fails because the document cannot be read. -/
def failingPass (now : Nat) (l : Locator) : Trace :=
  [(now, .passBegins l), (now, .passEnds l (.error damage)), (now, .drained)]

def failingRetry (now : Nat) (r : Retry) : Trace :=
  (now, .retryTaken r) :: failingPass now r.resource

/-- A resync that lists one resource, and its pass that fails. -/
def failingResync (now : Nat) (l : Locator) : Trace :=
  [(now, .resyncBegins), (now, .resyncEnds (.ok [l]))] ++ failingPass now l

theorem takes_of_moves (hc : c.calls? p = none) (h : Moves now c e d) : Takes p c (now, e) d :=
  ⟨h.step, fun program hp => by rw [hc] at hp; cases hp⟩

/-- The pass over a damaged document ends with the failure to read it. -/
theorem takes_failure (hp : c.phase = .passing l) (now : Nat) :
    Takes p c (now, .passEnds l (.error damage))
      { c with phase := .draining, retries := c.retries ++ [⟨l, now + delay⟩] } := by
  refine ⟨(Moves.passEnds (.error damage) hp).step, fun program hprogram => .inr ?_⟩
  simp only [calls?, hp, Option.some.injEq] at hprogram
  subst hprogram
  have hpass : Job.Ran (reconcile p l) [⟨.getResource l, .error damage⟩] (.error damage) :=
    (PassLog.unread damage rfl).ran
  exact ⟨_, Program.ran_bind.mpr ⟨_, _, [], hpass, ⟨rfl, rfl⟩, rfl⟩⟩

/-- A queue with one resource in it is worked off by a pass. -/
theorem chain_failingPass (hp : c.phase = .ready) (hq : c.queue.IsSound)
    (hpend : c.queue.pending = [l]) (hf : c.feed = .fresh) (now : Nat) :
    ∃ d, Chain (Takes p) c (failingPass now l) d ∧ d.Rests (c.retries ++ [⟨l, now + delay⟩]) := by
  have hpop : c.queue.pop.1 = some l := by rw [WorkQueue.pop, hpend]
  have hbegin : Takes p c (now, .passBegins l)
      { c with phase := .passing l, queue := c.queue.pop.2 } :=
    takes_of_moves (by rw [calls?, hp]) (.passBegins hp hpop)
  have hready : c.feed.isReady = false := by rw [hf]; rfl
  have hempty : c.queue.pop.2.pending = [] := by
    have hpop' := WorkQueue.pending_of_pop hpop
    rw [hpend] at hpop'
    exact (List.cons.inj hpop').2.symm
  exact ⟨_, ⟨_, hbegin, _, takes_failure rfl now, _, takes_of_moves rfl (.drained rfl hready), rfl⟩,
    isWaiting_iff.mpr ⟨rfl, hempty⟩, hq.pop, hf, rfl⟩

variable {r : Retry} {retries : List Retry}

theorem pending_push_of_rests (h : c.Rests retries) (l : Locator) :
    (c.queue.push l).pending = [l] := by
  have hpend := (isWaiting_iff.mp h.isWaiting).2
  rw [WorkQueue.push_of_not_mem h.isSound (by simp [hpend]), hpend]
  rfl

theorem chain_failingRetry (h : c.Rests (r :: retries)) (hdue : r.due ≤ now) :
    ∃ d, Chain (Takes p) c (failingRetry now r) d ∧
      d.Rests (retries ++ [⟨r.resource, now + delay⟩]) := by
  have hp := (isWaiting_iff.mp h.isWaiting).1
  have htake : Takes p c (now, .retryTaken r)
      { c with queue := c.queue.push r.resource, retries := c.retries.erase r } :=
    takes_of_moves (by rw [calls?, hp]) (.retryTaken h.isWaiting (by simp [h.retries_eq]) hdue)
  obtain ⟨d, hd, hrests⟩ := chain_failingPass (p := p)
    (c := { c with queue := c.queue.push r.resource, retries := c.retries.erase r }) hp
    (h.isSound.push _) (pending_push_of_rests h r.resource) h.feed_eq now
  refine ⟨d, ⟨_, htake, hd⟩, ?_⟩
  simpa [h.retries_eq] using hrests

theorem chain_failingResync (h : c.Rests retries) (now : Nat) (l : Locator) :
    ∃ d, Chain (Takes p) c (failingResync now l) d ∧ d.Rests (retries ++ [⟨l, now + delay⟩]) := by
  have hp := (isWaiting_iff.mp h.isWaiting).1
  have hbegin : Takes p c (now, .resyncBegins) { c with phase := .listing } :=
    takes_of_moves (by rw [calls?, hp]) (.resyncBegins h.isWaiting)
  have hend : Takes p { c with phase := .listing } (now, .resyncEnds (.ok [l]))
      { c with phase := .ready, queue := c.queue.pushAll [l] } := by
    refine ⟨(Moves.resynced [l] rfl).step, fun program hprogram => .inr ?_⟩
    cases hprogram
    exact ⟨[⟨.listResources, .ok [l]⟩], .ok [l], [], rfl, rfl, rfl⟩
  obtain ⟨d, hd, hrests⟩ := chain_failingPass (p := p)
    (c := { c with phase := .ready, queue := c.queue.pushAll [l] }) rfl (h.isSound.pushAll _)
    (pending_push_of_rests h l) h.feed_eq now
  refine ⟨d, ⟨_, hbegin, _, hend, hd⟩, ?_⟩
  simpa [h.retries_eq] using hrests

/-- As many retries as were due are outstanding again when all of them have failed once more. -/
theorem chain_failingRetries (n : Nat) (h : c.Rests (List.replicate n r ++ retries))
    (hdue : r.due ≤ now) :
    ∃ d, Chain (Takes p) c (List.replicate n (failingRetry now r)).flatten d ∧
      d.Rests (retries ++ List.replicate n ⟨r.resource, now + delay⟩) := by
  induction n generalizing c retries with
  | zero => exact ⟨c, rfl, by simpa using h⟩
  | succ n ih =>
    rw [List.replicate_succ, List.cons_append] at h
    obtain ⟨m, hm, hrests⟩ := chain_failingRetry (p := p) h hdue
    rw [List.append_assoc] at hrests
    obtain ⟨d, hd, hrests⟩ := ih hrests
    refine ⟨d, ?_, ?_⟩
    · rw [List.replicate_succ, List.flatten_cons]
      exact chain_append.mpr ⟨m, hm, hd⟩
    · rwa [List.append_assoc, List.singleton_append, ← List.replicate_succ] at hrests

/-- What happens when as many retries as given are due, and with them a resync. -/
def failingRound (l : Locator) (n : Nat) : Trace :=
  (List.replicate n (failingRetry (n * delay) ⟨l, n * delay⟩)).flatten ++
    failingResync (n * delay) l

/-- Every pass over the resource fails, and a resync comes whenever its retries are due. -/
def failingRun (l : Locator) : Nat → Trace
  | 0 => []
  | n + 1 => failingRun l n ++ failingRound l n

theorem rests_of_failingRun (l : Locator) (n : Nat) :
    ∃ c, Chain (Takes p) (start .fresh) (failingRun l n) c ∧
      c.Rests (List.replicate n ⟨l, n * delay⟩) := by
  induction n with
  | zero => exact ⟨_, rfl, rests_start⟩
  | succ n ih =>
    obtain ⟨c, hc, hrests⟩ := ih
    rw [← List.append_nil (List.replicate n _)] at hrests
    obtain ⟨d, hd, hrests⟩ := chain_failingRetries (p := p) n hrests (Nat.le_refl (n * delay))
    obtain ⟨x, hx, hrests⟩ := chain_failingResync (p := p) hrests (n * delay) l
    refine ⟨x, chain_append.mpr ⟨c, hc, chain_append.mpr ⟨d, hd, hx⟩⟩, ?_⟩
    rwa [List.nil_append, ← List.replicate_succ', ← Nat.succ_mul] at hrests

/-- Any number of retries of a resource that keeps failing can be outstanding at once. -/
theorem exists_piled (l : Locator) (n : Nat) :
    ∃ c, Chain (Takes p) (start .fresh) (failingRun l n) c ∧ c.outstanding l = n := by
  obtain ⟨c, hc, hrests⟩ := rests_of_failingRun (p := p) l n
  exact ⟨c, hc, by simp [outstanding, hrests.retries_eq, List.countP_replicate]⟩

def twoRounds : Trace := failingRun heldResource.locator 2

theorem one_outstanding_iff_twoRounds :
    ∃ c, Chain (Takes plainPolicy) (start .fresh) twoRounds c ∧
      c.outstanding heldResource.locator +
          times (Event.isRetryOf heldResource.locator) twoRounds =
        times (Event.isFailureOf heldResource.locator) twoRounds ∧
      c.outstanding heldResource.locator ≤ times (Event.wakes heldResource.locator) twoRounds ∧
      ((∀ d, Visits plainPolicy .fresh twoRounds d → d.outstanding heldResource.locator ≤ 1) ↔
        FailsAlone plainPolicy .fresh heldResource.locator twoRounds) := by
  obtain ⟨c, hc, -⟩ := exists_piled (p := plainPolicy) heldResource.locator 2
  exact ⟨c, hc, one_outstanding_iff hc⟩

/-- After its second resync the resource has two retries, which are due at the same time. -/
theorem two_outstanding :
    ∃ c, Chain (Takes plainPolicy) (start .fresh) twoRounds c ∧
      c.retries = List.replicate 2 ⟨heldResource.locator, 2 * delay⟩ ∧
      ¬ c.outstanding heldResource.locator ≤ 1 := by
  obtain ⟨c, hc, hrests⟩ := rests_of_failingRun (p := plainPolicy) heldResource.locator 2
  refine ⟨c, hc, hrests.retries_eq, ?_⟩
  simp [outstanding, hrests.retries_eq]

end Controller
end StackKeeper
