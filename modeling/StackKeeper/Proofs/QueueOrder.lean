import Mathlib.Data.Finset.Card
import StackKeeper.Control.WorkQueue
import StackKeeper.Proofs.Party
/-!
# The work queue as a line without repetitions

Resources enter the queue one by one or by a resync, which offers it all that the store lists, and leave
it one by one. The queue keeps a list and a set; whoever uses it sees a line in which a resource
stands once at most, and which is left at its head.

Results:
* `pending_pushAll`, `mem_admitted`: what a resync adds, and behind what.
* `pending_serve`: a use hands out the head of the line or adds to its end.
* `line_of_uses`: over every sequence of uses, what was accepted is what was taken and what still
  waits, in this order.
-/
namespace StackKeeper.WorkQueue

/-- One use of the queue. A resync comes with what the store answers when it is listed. -/
inductive Use where
  | push (l : Locator)
  | pop
  | resync (listing : Except Error (List Locator))

inductive Reply where
  | pushed (isNew : Bool)
  | popped (l : Option Locator)
  | resynced (count : Except Error Nat)

/-- A store that answers to being listed as given. -/
def lister (listing : Except Error (List Locator)) : Party := fun _ c =>
  match c with
  | .listResources => listing
  | c => c.failed (.internal "not expected")

/-- What a resync answers, and the queue after it; it keeps the queue if the store cannot be listed. -/
def resynced (q : WorkQueue) (listing : Except Error (List Locator)) : Except Error Nat × WorkQueue :=
  match (q.resync.run.against (lister listing) []).2 with
  | .ok (next, n) => (.ok n, next)
  | .error e => (.error e, q)

/-- The reply to a use and the queue after it. -/
def serve (q : WorkQueue) : Use → Reply × WorkQueue
  | .push l => (.pushed (q.offer l).1, q.push l)
  | .pop => (.popped q.pop.1, q.pop.2)
  | .resync listing => (.resynced (q.resynced listing).1, (q.resynced listing).2)

/-- The replies to a sequence of uses, and the queue that they leave. -/
def run (q : WorkQueue) : List Use → List Reply × WorkQueue
  | [] => ([], q)
  | u :: us => ((q.serve u).1 :: ((q.serve u).2.run us).1, ((q.serve u).2.run us).2)

/-- What a use offers to the queue, in order. -/
def Use.offered : Use → List Locator
  | .push l => [l]
  | .resync (.ok ls) => ls
  | .pop | .resync (.error _) => []

/-- Those of the resources that the queue accepts when they are pushed one after another. -/
def admitted (q : WorkQueue) : List Locator → List Locator
  | [] => []
  | l :: ls => (if q.contains l then [] else [l]) ++ (q.push l).admitted ls

/-- The pushes that the queue accepts over a sequence of uses, in order. -/
def accepted (q : WorkQueue) : List Use → List Locator
  | [] => []
  | u :: us => q.admitted u.offered ++ (q.serve u).2.accepted us

def Reply.popped? : Reply → Option Locator
  | .popped l => l
  | .pushed _ | .resynced _ => none

def taken (replies : List Reply) : List Locator := replies.filterMap Reply.popped?

theorem taken_cons (reply : Reply) (replies : List Reply) :
    taken (reply :: replies) = reply.popped?.toList ++ taken replies := by
  rw [taken, List.filterMap_cons]
  cases reply.popped? <;> rfl

variable {q : WorkQueue} {l : Locator} {ls : List Locator}

/-! ## Several pushes -/

theorem contains_eq_decide (h : q.IsSound) (l : Locator) : q.contains l = decide (l ∈ q.pending) := by
  rw [Bool.eq_iff_iff, h.contains_iff, decide_eq_true_iff]

theorem fst_offer (q : WorkQueue) (l : Locator) : (q.offer l).1 = !q.contains l := by
  rw [offer]
  cases q.contains l <;> rfl

theorem pending_push (h : q.IsSound) (l : Locator) :
    (q.push l).pending = q.pending ++ if q.contains l then [] else [l] := by
  rw [contains_eq_decide h]
  by_cases hl : l ∈ q.pending
  · simp [push_of_mem h hl, hl]
  · simp [push_of_not_mem h hl, hl]

/-- What is accepted of several pushes stands behind all that waited before, in their order. -/
theorem pending_pushAll (h : q.IsSound) (ls : List Locator) :
    (q.pushAll ls).pending = q.pending ++ q.admitted ls := by
  induction ls generalizing q with
  | nil => exact (List.append_nil _).symm
  | cons l ls ih =>
    rw [pushAll, List.foldl_cons, ← pushAll, ih (h.push l), pending_push h, admitted,
      List.append_assoc]

theorem admitted_sublist (q : WorkQueue) (ls : List Locator) : (q.admitted ls).Sublist ls := by
  induction ls generalizing q with
  | nil => exact List.Sublist.refl _
  | cons l ls ih =>
    rw [admitted]
    split
    · exact (ih _).cons l
    · exact (ih _).cons_cons l

theorem nodup_admitted (h : q.IsSound) (ls : List Locator) : (q.admitted ls).Nodup := by
  have hn := (h.pushAll ls).nodup
  rw [pending_pushAll h] at hn
  exact (List.nodup_append.mp hn).2.1

/-- Accepted are the resources that did not wait yet. -/
theorem mem_admitted (h : q.IsSound) : l ∈ q.admitted ls ↔ l ∈ ls ∧ l ∉ q.pending := by
  have hn := (h.pushAll ls).nodup
  have hmem : l ∈ (q.pushAll ls).pending ↔ _ := mem_pushAll h
  rw [pending_pushAll h] at hn hmem
  have hdisjoint := (List.nodup_append.mp hn).2.2
  constructor
  · intro hl
    exact ⟨(admitted_sublist q ls).subset hl, fun hq => hdisjoint l hq l hl rfl⟩
  · rintro ⟨hl, hq⟩
    exact (List.mem_append.mp (hmem.mpr (.inr hl))).resolve_left hq

/-! ## Resyncs -/

theorem fst_offerAll (q : WorkQueue) (ls : List Locator) :
    (q.offerAll ls).1 = (q.admitted ls).length := by
  induction ls generalizing q with
  | nil => rfl
  | cons l ls ih =>
    have hrest : (q.offerAll (l :: ls)).1 = (q.offer l).1.toNat + ((q.push l).offerAll ls).1 := rfl
    rw [hrest, ih, fst_offer, admitted, List.length_append]
    cases q.contains l <;> rfl

theorem resynced_ok (q : WorkQueue) (ls : List Locator) :
    q.resynced (.ok ls) = (.ok (q.admitted ls).length, q.pushAll ls) := by
  rw [← fst_offerAll, ← snd_offerAll]
  rfl

theorem resynced_error (q : WorkQueue) (e : Error) : q.resynced (.error e) = (.error e, q) := rfl

/-- A resource that is listed twice counts once. -/
theorem length_admitted (h : q.IsSound) (ls : List Locator) :
    (q.admitted ls).length = (ls.toFinset \ q.pending.toFinset).card := by
  rw [← List.toFinset_card_of_nodup (nodup_admitted h ls)]
  congr 1
  ext l
  simp [mem_admitted h]

theorem admitted_eq_nil (h : q.IsSound) (hls : ∀ l ∈ ls, l ∈ q.pending) : q.admitted ls = [] :=
  List.eq_nil_iff_forall_not_mem.mpr fun l hl =>
    ((mem_admitted h).mp hl).2 (hls l ((mem_admitted h).mp hl).1)

/-! ## Whole runs -/

theorem IsSound.serve (h : q.IsSound) (u : Use) : (q.serve u).2.IsSound := by
  cases u with
  | push l => exact h.push l
  | pop => exact h.pop
  | resync listing =>
    cases listing with
    | ok ls =>
      rw [WorkQueue.serve, resynced_ok]
      exact h.pushAll ls
    | error e => exact h

/-- A use hands out the head of the line, or adds to its end what it is accepted with. -/
theorem pending_serve (h : q.IsSound) (u : Use) :
    q.pending ++ q.admitted u.offered = (q.serve u).1.popped?.toList ++ (q.serve u).2.pending := by
  cases u with
  | push l => simp [serve, Use.offered, Reply.popped?, admitted, pending_push h]
  | pop => cases hq : q.pending <;> simp [serve, Use.offered, Reply.popped?, admitted, pop, hq]
  | resync listing =>
    cases listing with
    | ok ls => simp [serve, Use.offered, Reply.popped?, resynced_ok, pending_pushAll h]
    | error e => simp [serve, Use.offered, Reply.popped?, admitted, resynced_error]

theorem pending_run (h : q.IsSound) (us : List Use) : (q.run us).2.IsSound ∧
    q.pending ++ q.accepted us = taken (q.run us).1 ++ (q.run us).2.pending := by
  induction us generalizing q with
  | nil => exact ⟨h, by simp [accepted, run, taken]⟩
  | cons u us ih =>
    obtain ⟨hsound, hline⟩ := ih (h.serve u)
    refine ⟨hsound, ?_⟩
    rw [accepted, run, taken_cons, ← List.append_assoc, pending_serve h, List.append_assoc, hline,
      List.append_assoc]

/-- However the queue is used from its start, set and list hold the same and the list repeats nothing.
What was accepted so far is what was taken and what still waits, in this order. A push is told whether
the resource did not wait yet, and then it waits behind all others. What is taken is what has waited
longest, and may be pushed again at once. A resync is told how many of the listed resources did not
wait yet; they wait from then on, in the order of the listing, so that there are none the next
time. -/
theorem line_of_uses (us : List Use) :
    ∃ replies q, empty.run us = (replies, q) ∧
      (∀ l, l ∈ q.queued ↔ l ∈ q.pending) ∧ q.pending.Nodup ∧
      taken replies ++ q.pending = empty.accepted us ∧
      (∀ l, ∃ next, q.serve (.push l) = (.pushed (decide (l ∉ q.pending)), next) ∧
        next.pending = if l ∈ q.pending then q.pending else q.pending ++ [l]) ∧
      (∃ next, q.serve .pop = (.popped q.pending.head?, next) ∧ next.pending = q.pending.tail ∧
        ∀ l, q.pending.head? = some l → (next.serve (.push l)).1 = .pushed true) ∧
      (∀ ls, ∃ next added, q.serve (.resync (.ok ls)) =
          (.resynced (.ok (ls.toFinset \ q.pending.toFinset).card), next) ∧
        next.pending = q.pending ++ added ∧ added.Sublist ls ∧
        (∀ l, l ∈ added ↔ l ∈ ls ∧ l ∉ q.pending) ∧ (∀ l ∈ ls, l ∈ next.pending) ∧
        (next.serve (.resync (.ok ls))).1 = .resynced (.ok 0)) ∧
      ∀ e, q.serve (.resync (.error e)) = (.resynced (.error e), q) := by
  obtain ⟨h, hline⟩ := pending_run isSound_empty us
  generalize empty.run us = result at h hline
  obtain ⟨replies, q⟩ := result
  refine ⟨replies, q, rfl, fun l => ?_, h.nodup, hline.symm, fun l => ?_, ?_, fun ls => ?_,
    fun e => rfl⟩
  · rw [← h.contains_iff, contains, Std.HashSet.mem_iff_contains]
  · refine ⟨q.push l, ?_, ?_⟩
    · rw [serve, fst_offer, contains_eq_decide h, decide_not]
    · by_cases hl : l ∈ q.pending
      · rw [push_of_mem h hl, if_pos hl]
      · rw [push_of_not_mem h hl, if_neg hl]
  · have hpop : q.pop.1 = q.pending.head? ∧ q.pop.2.pending = q.pending.tail := by
      rw [pop]
      cases hq : q.pending <;> simp [hq]
    refine ⟨q.pop.2, by rw [serve, hpop.1], hpop.2, fun l hl => ?_⟩
    have hrest : l ∉ q.pop.2.pending := by
      have hn := h.nodup
      rw [pending_of_pop (hpop.1.trans hl)] at hn
      exact (List.nodup_cons.mp hn).1
    rw [serve, fst_offer, contains_eq_decide h.pop, decide_eq_false hrest]
    rfl
  · have hlisted : ∀ l ∈ ls, l ∈ (q.pushAll ls).pending := fun l hl => (mem_pushAll h).mpr (.inr hl)
    refine ⟨q.pushAll ls, q.admitted ls, ?_, pending_pushAll h ls, admitted_sublist q ls,
      fun l => mem_admitted h, hlisted, ?_⟩
    · rw [serve, resynced_ok, length_admitted h]
    · rw [serve, resynced_ok, admitted_eq_nil (h.pushAll ls) hlisted, List.length_nil]

end StackKeeper.WorkQueue
