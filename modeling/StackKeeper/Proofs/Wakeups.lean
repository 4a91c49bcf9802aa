import StackKeeper.Control.Controller
import StackKeeper.Proofs.Serving
import StackKeeper.Proofs.StoreAccess
/-!
# No change is forgotten

The controller beside a store to which anybody writes at any time. Writes and the changes that are
published of them are events of their own, in any order, and so are those of the controller. A listing
takes time; it is only assumed to find what is stored from its beginning to its end.

Results:
* `Duty.due_of_takes`: once a change of a stored resource is published, a pass over it is due until
  one begins.
* `Duty.keeps_of_published`: when the controller waits, what makes such a pass come is in its feed.
-/
namespace StackKeeper

/-- Whether a listing of the store, as it is now, finds the resource. -/
def Store.Stores (s : Store) (l : Locator) : Prop := ∃ ls, s.list = .ok ls ∧ l ∈ ls

/-- The controller beside the store that it works for. -/
structure Duty where
  controller : Controller
  store : Store
  /-- What the store has been since the listing under way began. -/
  since : List Store

namespace Duty
open Controller

inductive Deed where
  /-- Somebody writes to the store, which is then as given. -/
  | written (s : Store)
  /-- Something happens to the controller at a time in nanoseconds. -/
  | controls (now : Nat) (e : Controller.Event)

def start (s : Store) : Duty := ⟨.start .fresh, s, [s]⟩

/-- A listing that succeeds has found what was stored all the time while it was made. -/
def Finds (x : Duty) : Controller.Event → Prop
  | .resyncEnds (.ok ls) => ∀ l, (∀ s ∈ x.since, s.Stores l) → l ∈ ls
  | _ => True

/-- What one thing that happens makes of the controller and the store. -/
inductive Takes (x : Duty) : Deed → Duty → Prop
  | written (s : Store) : Takes x (.written s) { x with store := s, since := s :: x.since }
  | controls {now : Nat} {e : Controller.Event} {c : Controller}
    (h : x.controller.step now e = some c) (hf : x.Finds e) :
    Takes x (.controls now e)
      ⟨c, x.store, if x.controller.phase = .listing then x.since else [x.store]⟩

/-- What happens leaves the resource stored, begins no pass over it, and is no listing that fails. -/
def Deed.Spares (l : Locator) : Deed → Prop
  | .written s => s.Stores l
  | .controls _ (.passBegins l') => l' ≠ l
  | .controls _ (.resyncEnds result) => ∃ ls, result = .ok ls
  | .controls _ _ => True

/-- A pass over the resource is due: it waits for one, what makes it wait is still to be taken, or
the listing under way is to find it. -/
def Due (x : Duty) (l : Locator) : Prop :=
  l ∈ x.controller.queue.pending ∨ x.controller.feed.Keeps l ∨
    x.controller.phase = .listing ∧ ∀ s ∈ x.since, s.Stores l

variable {x y m : Duty} {d : Deed} {l : Locator} {run earlier later : List Deed} {s : Store}

/-! ## The queue -/

theorem isSound_of_takes (hq : x.controller.queue.IsSound) (h : x.Takes d y) :
    y.controller.queue.IsSound := by
  cases h with
  | written s => exact hq
  | controls h hf => exact isSound_of_step hq h

theorem isSound_of_chain (hq : x.controller.queue.IsSound) (h : Chain Takes x run y) :
    y.controller.queue.IsSound := by
  induction run generalizing x with
  | nil => exact h ▸ hq
  | cons d run ih =>
    obtain ⟨m, hm, h⟩ := h
    exact ih (isSound_of_takes hq hm) h

/-! ## What is due -/

theorem due_of_published {now : Nat} (h : x.Takes (.controls now (.published l)) y) : y.Due l := by
  cases h with
  | controls h hf =>
    cases moves_of_step h
    exact .inr (.inl Subscription.keeps_publish)

/-- While nothing is listed, a pass that is due is one for which the queue or the feed stands in. -/
theorem Due.of_not_listing (hx : x.Due l) (hp : x.controller.phase ≠ .listing) :
    l ∈ x.controller.queue.pending ∨ x.controller.feed.Keeps l :=
  hx.imp_right fun h => h.resolve_right fun hlist => hp hlist.1

theorem phase_of_isWaiting {c : Controller} (hw : c.isWaiting = true) : c.phase ≠ .listing := by
  simp [(isWaiting_iff.mp hw).1]

/-- A pass that is due stays due, whatever is written to the store or published in the meantime. -/
theorem due_of_takes (hq : x.controller.queue.IsSound) (hs : x.store.Stores l) (hx : x.Due l)
    (hd : d.Spares l) (h : x.Takes d y) : y.store.Stores l ∧ y.Due l := by
  cases h with
  | written s =>
    refine ⟨hd, hx.imp_right (Or.imp_right ?_)⟩
    rintro ⟨hp, hall⟩
    exact ⟨hp, List.forall_mem_cons.mpr ⟨hd, hall⟩⟩
  | @controls now e c h hf =>
    refine ⟨hs, ?_⟩
    cases moves_of_step h with
    | published l' =>
      obtain hl | hk | ⟨hp, hall⟩ := hx
      · exact .inl hl
      · exact .inr (.inl hk.publish)
      · exact .inr (.inr ⟨hp, by rwa [if_pos hp]⟩)
    | @passBegins l' hp hn =>
      obtain hl | hk := hx.of_not_listing (by simp [hp])
      · rw [WorkQueue.pending_of_pop hn] at hl
        exact .inl ((List.mem_cons.mp hl).resolve_left (Ne.symm hd))
      · exact .inr (.inl hk)
    | passEnds result hp => exact (hx.of_not_listing (by simp [hp])).imp_right .inl
    | resyncBegins hw => exact (hx.of_not_listing (phase_of_isWaiting hw)).imp_right .inl
    | drained hp hf' => exact (hx.of_not_listing (by simp [hp])).imp_right .inl
    | resynced ls hp =>
      obtain hl | hk | ⟨-, hall⟩ := hx
      · exact .inl ((WorkQueue.mem_pushAll hq).mpr (.inl hl))
      · exact .inr (.inl hk)
      · exact .inl ((WorkQueue.mem_pushAll hq).mpr (.inr (hf l hall)))
    | unlisted e hp =>
      obtain ⟨_, he⟩ := hd
      cases he
    | @itemTaken i feed hp hn =>
      have hne : x.controller.phase ≠ .listing := by
        obtain hw | hp := hp
        · exact phase_of_isWaiting hw
        · simp [hp]
      obtain hl | hk := hx.of_not_listing hne
      · cases i with
        | change l' => exact .inl ((WorkQueue.mem_push hq).mpr (.inl hl))
        | lagged n => exact .inl hl
      · obtain rfl | ⟨n, rfl⟩ | hk := Subscription.keeps_of_next? hn hk
        · exact .inl ((WorkQueue.mem_push hq).mpr (.inr rfl))
        · -- The loss that is taken begins a listing, of the store as it is now.
          refine .inr (.inr ⟨rfl, ?_⟩)
          rw [if_neg hne]
          exact List.forall_mem_singleton.mpr hs
        · cases i <;> exact .inr (.inl hk)
    | retryTaken hw hr hdue =>
      obtain hl | hk := hx.of_not_listing (phase_of_isWaiting hw)
      · exact .inl ((WorkQueue.mem_push hq).mpr (.inl hl))
      · exact .inr (.inl hk)

theorem due_of_chain (hq : x.controller.queue.IsSound) (hs : x.store.Stores l) (hx : x.Due l)
    (hd : ∀ d ∈ run, d.Spares l) (h : Chain Takes x run y) : y.Due l := by
  induction run generalizing x with
  | nil => exact h ▸ hx
  | cons d run ih =>
    obtain ⟨m, hm, h⟩ := h
    rw [List.forall_mem_cons] at hd
    obtain ⟨hs', hx'⟩ := due_of_takes hq hs hx hd.1 hm
    exact ih (isSound_of_takes hq hm) hs' hx' hd.2 h

/-- A controller that waits has nothing in its queue and lists nothing: what is due is in its feed. -/
theorem keeps_of_isWaiting (hw : x.controller.isWaiting = true) (hx : x.Due l) :
    x.controller.feed.Keeps l := by
  obtain hl | hk := hx.of_not_listing (phase_of_isWaiting hw)
  · rw [(isWaiting_iff.mp hw).2] at hl
    cases hl
  · exact hk

/-- A controller that waits and has something in its feed can take it. -/
theorem takes_of_keeps {c : Controller} (hw : c.isWaiting = true) (hk : c.feed.Keeps l)
    (now : Nat) : ∃ i d, c.step now (.itemTaken i) = some d := by
  obtain ⟨i, feed, hn⟩ := hk.next?
  exact ⟨i, _, (Moves.itemTaken (.inl hw) hn).step⟩

/-- A change of a stored resource was published during the run. Since then the resource has stayed
stored (what is removed and created again is another one, whose creation is published), no pass over it
has begun, and no listing has failed. When the controller waits, a change of the resource or the report
of a loss is still to be taken, and the controller can go on with what comes first. -/
theorem keeps_of_published {now : Nat}
    (hearlier : Chain Takes (start s) (earlier ++ [.controls now (.published l)]) m)
    (hs : m.store.Stores l) (hlater : Chain Takes m later x) (hspares : ∀ d ∈ later, d.Spares l)
    (hw : x.controller.isWaiting = true) :
    (l ∈ x.controller.feed.pending ∨ 0 < x.controller.feed.missed) ∧
      ∀ now, ∃ i c, x.controller.step now (.itemTaken i) = some c := by
  obtain ⟨_, hrun, _, hpub, rfl⟩ := chain_append.mp hearlier
  have hq : m.controller.queue.IsSound := isSound_of_chain WorkQueue.isSound_empty hearlier
  have hdue : x.Due l := due_of_chain hq hs (due_of_published hpub) hspares hlater
  have hk : x.controller.feed.Keeps l := keeps_of_isWaiting hw hdue
  exact ⟨hk, takes_of_keeps hw hk⟩

/-! ## A resource that a listing misses -/

def freshStore : Store := ⟨["state"], .empty⟩

theorem not_stores_freshStore (l : Locator) : ¬ freshStore.Stores l := by
  rintro ⟨ls, hls, hl⟩
  have hfresh : freshStore.list = .ok [] := rfl
  cases hfresh.symm.trans hls
  cases hl

theorem stores_webStore (text : String) : (Store.webStore text).Stores Store.webLocator :=
  ⟨[Store.webLocator], Store.list_webStore text, List.mem_singleton.mpr rfl⟩

/-- While the store is listed for a resync, a resource is created in it. -/
def creatingRun : List Deed := [.controls 0 .resyncBegins, .written (Store.webStore "")]

/-- The listing ends without having found the resource. -/
def missingRun : List Deed := [.controls 1 (.resyncEnds (.ok []))]

/-- The change of the resource has been published, and the controller is doing what is given. -/
def announcedDuty (phase : Phase) : Duty :=
  ⟨⟨phase, .empty, ⟨0, [Store.webLocator]⟩, []⟩, Store.webStore "", [Store.webStore "", freshStore]⟩

theorem chain_creatingRun :
    Chain Takes (start freshStore) (creatingRun ++ [.controls 1 (.published Store.webLocator)])
      (announcedDuty .listing) :=
  ⟨_, .controls rfl trivial, _, .written _, _, .controls rfl trivial, rfl⟩

theorem chain_missingRun :
    Chain Takes (announcedDuty .listing) missingRun (announcedDuty .ready) := by
  refine ⟨_, .controls rfl ?_, rfl⟩
  intro l hl
  exact absurd (hl freshStore (by simp [announcedDuty])) (not_stores_freshStore l)

theorem kept_beside_listing :
    Chain Takes (start freshStore) (creatingRun ++ [.controls 1 (.published Store.webLocator)])
        (announcedDuty .listing) ∧
      (announcedDuty .listing).store.Stores Store.webLocator ∧
      Chain Takes (announcedDuty .listing) missingRun (announcedDuty .ready) ∧
      (∀ d ∈ missingRun, d.Spares Store.webLocator) ∧
      (announcedDuty .ready).controller.isWaiting = true ∧
      (Store.webLocator ∈ (announcedDuty .ready).controller.feed.pending ∨
        0 < (announcedDuty .ready).controller.feed.missed) ∧
      ∀ now, ∃ i c, (announcedDuty .ready).controller.step now (.itemTaken i) = some c := by
  have hspares : ∀ d ∈ missingRun, d.Spares Store.webLocator :=
    List.forall_mem_singleton.mpr ⟨[], rfl⟩
  exact ⟨chain_creatingRun, stores_webStore "", chain_missingRun, hspares, rfl,
    keeps_of_published chain_creatingRun (stores_webStore "") chain_missingRun hspares rfl⟩

end Duty
end StackKeeper
