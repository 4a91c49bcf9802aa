import Std.Data.HashSet
import StackKeeper.Program.Basic
/-!
# The work queue

The resources that wait for a pass, oldest first and each at most once. A set beside the list answers
whether a resource is already waiting. A resync lets every stored resource wait, whether or not a
change of it was noticed.

Results:
* `IsSound.push`, `IsSound.pushAll`, `IsSound.pop`: the set and the list stay in step.
* `mem_push`, `mem_pushAll`, `pending_of_pop`: what waits after an operation.
-/
namespace StackKeeper

deriving instance Hashable for Locator

/-- Resources that wait for a pass. -/
structure WorkQueue where
  pending : List Locator
  queued : Std.HashSet Locator

namespace WorkQueue

def empty : WorkQueue := ⟨[], ∅⟩

def contains (q : WorkQueue) (l : Locator) : Bool := q.queued.contains l

/-- Lets a resource wait and answers whether it is new; one that already waits keeps its place. -/
def offer (q : WorkQueue) (l : Locator) : Bool × WorkQueue :=
  if q.contains l then (false, q) else (true, ⟨q.pending ++ [l], q.queued.insert l⟩)

def push (q : WorkQueue) (l : Locator) : WorkQueue := (q.offer l).2

/-- Lets resources wait one after another and answers how many are new. -/
def offerAll (q : WorkQueue) : List Locator → Nat × WorkQueue
  | [] => (0, q)
  | l :: ls =>
    let (isNew, q) := q.offer l
    let (count, q) := q.offerAll ls
    (isNew.toNat + count, q)

def pushAll (q : WorkQueue) (ls : List Locator) : WorkQueue := ls.foldl push q

/-- Takes the resource that has waited longest. -/
def pop (q : WorkQueue) : Option Locator × WorkQueue :=
  match q.pending with
  | [] => (none, q)
  | l :: rest => (some l, ⟨rest, q.queued.erase l⟩)

def size (q : WorkQueue) : Nat := q.pending.length

/-- Lets every stored resource wait. The answer is the queue and how many resources are new in it. -/
def resync (q : WorkQueue) : Job (WorkQueue × Nat) := do
  let ls ← Job.listResources
  let (count, next) := q.offerAll ls
  pure (next, count)

/-! ## The set and the list -/

/-- The set holds what the list holds, which is there once. -/
structure IsSound (q : WorkQueue) : Prop where
  contains_iff : ∀ l, q.contains l = true ↔ l ∈ q.pending
  nodup : q.pending.Nodup

variable {q : WorkQueue} {l l' : Locator}

theorem isSound_empty : empty.IsSound := ⟨fun l => by simp [empty, contains], List.nodup_nil⟩

theorem push_of_mem (h : q.IsSound) (hl : l ∈ q.pending) : q.push l = q := by
  rw [push, offer, if_pos ((h.contains_iff l).mpr hl)]

theorem push_of_not_mem (h : q.IsSound) (hl : l ∉ q.pending) :
    q.push l = ⟨q.pending ++ [l], q.queued.insert l⟩ := by
  rw [push, offer, if_neg (mt (h.contains_iff l).mp hl)]

theorem IsSound.push (h : q.IsSound) (l : Locator) : (q.push l).IsSound := by
  by_cases hl : l ∈ q.pending
  · rwa [push_of_mem h hl]
  · rw [push_of_not_mem h hl]
    refine ⟨fun l' => ?_, ?_⟩
    · have := h.contains_iff l'
      simp only [contains] at this
      simp only [contains, Std.HashSet.contains_insert, Bool.or_eq_true, beq_iff_eq, this,
        List.mem_append, List.mem_singleton]
      grind
    · have hne : ∀ a ∈ q.pending, a ≠ l := fun a ha he => hl (he ▸ ha)
      exact List.nodup_append.mpr ⟨h.nodup, by simp, by simpa using hne⟩

theorem mem_push (h : q.IsSound) : l' ∈ (q.push l).pending ↔ l' ∈ q.pending ∨ l' = l := by
  by_cases hl : l ∈ q.pending
  · rw [push_of_mem h hl]
    exact ⟨.inl, fun h => h.elim id (· ▸ hl)⟩
  · simp [push_of_not_mem h hl]

theorem snd_offerAll (q : WorkQueue) (ls : List Locator) : (q.offerAll ls).2 = q.pushAll ls := by
  induction ls generalizing q with
  | nil => rfl
  | cons l ls ih => exact ih (q.push l)

theorem IsSound.pushAll (h : q.IsSound) (ls : List Locator) : (q.pushAll ls).IsSound := by
  induction ls generalizing q with
  | nil => exact h
  | cons l ls ih => exact ih (h.push l)

theorem mem_pushAll (h : q.IsSound) {ls : List Locator} :
    l ∈ (q.pushAll ls).pending ↔ l ∈ q.pending ∨ l ∈ ls := by
  induction ls generalizing q with
  | nil => simp [pushAll]
  | cons l' ls ih =>
    rw [pushAll, List.foldl_cons, ← pushAll, ih (h.push l'), mem_push h, List.mem_cons, or_assoc]

/-- What is taken stood first, and what stood behind it is left. -/
theorem pending_of_pop (h : q.pop.1 = some l) : q.pending = l :: q.pop.2.pending := by
  rw [pop] at h ⊢
  cases hq : q.pending with
  | nil => simp [hq] at h
  | cons l' rest => simp_all

theorem IsSound.pop (h : q.IsSound) : q.pop.2.IsSound := by
  cases hq : q.pending with
  | nil => simpa [WorkQueue.pop, hq] using h
  | cons l rest =>
    have hn := h.nodup
    rw [hq, List.nodup_cons] at hn
    simp only [WorkQueue.pop, hq]
    refine ⟨fun l' => ?_, hn.2⟩
    have := h.contains_iff l'
    simp only [contains, hq, List.mem_cons] at this
    simp only [contains, Std.HashSet.contains_erase, Bool.and_eq_true, this]
    grind

end WorkQueue
end StackKeeper
