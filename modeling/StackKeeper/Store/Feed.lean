import StackKeeper.Resource.Locator
/-!
# The change feed

Every successful write to the store publishes the locator of its resource. A subscription buffers
what is published until it is taken; when the buffer is full the oldest change is lost, and how many
were lost is reported before the changes that are left.

Results:
* `length_publish_le`: the buffer never holds more than fits.
* `keeps_publish`, `Keeps.publish`, `keeps_of_next?`: a change that was published is kept, or a loss is
  still to be reported, until it is taken.
-/
namespace StackKeeper

/-- Changes that were published and not taken yet. -/
structure Subscription where
  missed : Nat
  pending : List Locator

/-- What is taken from a subscription. -/
inductive Subscription.Item where
  | change (l : Locator)
  | lagged (missed : Nat)
deriving DecidableEq

namespace Subscription

def capacity : Nat := 256

def fresh : Subscription := ⟨0, []⟩

def publish (s : Subscription) (l : Locator) : Subscription :=
  if s.pending.length < capacity then ⟨s.missed, s.pending ++ [l]⟩
  else ⟨s.missed + 1, s.pending.drop 1 ++ [l]⟩

/-- Whether there is anything to take. -/
def isReady (s : Subscription) : Bool := 0 < s.missed || !s.pending.isEmpty

/-- Takes what comes next: first how many changes were lost, then the changes in order. -/
def next? (s : Subscription) : Option (Item × Subscription) :=
  if 0 < s.missed then some (.lagged s.missed, ⟨0, s.pending⟩)
  else
    match s.pending with
    | [] => none
    | l :: rest => some (.change l, ⟨0, rest⟩)

def takeAll (s : Subscription) : List Item :=
  (if 0 < s.missed then [.lagged s.missed] else []) ++ s.pending.map .change

theorem length_publish_le {s : Subscription} (h : s.pending.length ≤ capacity) (l : Locator) :
    (s.publish l).pending.length ≤ capacity := by
  rw [publish]
  split
  · simp; omega
  · have : 0 < capacity := by decide
    simp only [List.length_append, List.length_drop, List.length_singleton]
    omega

/-! ## What is still to be taken -/

/-- A change of the resource is still to be taken, or the loss of changes is still to be reported. -/
def Keeps (s : Subscription) (l : Locator) : Prop := l ∈ s.pending ∨ 0 < s.missed

variable {s feed : Subscription} {l l' : Locator}

theorem keeps_publish : (s.publish l).Keeps l := by
  rw [publish]
  split <;> exact .inl (by simp)

/-- A change leaves a full buffer only when its loss is reported. -/
theorem Keeps.publish (h : s.Keeps l) : (s.publish l').Keeps l := by
  rw [Subscription.publish]
  split
  · exact h.imp_left (List.mem_append_left _)
  · exact .inr (Nat.succ_pos _)

/-- What comes next is a report of a loss, or the oldest change when no loss is to be reported. -/
theorem next?_cases {i : Item} (h : s.next? = some (i, feed)) :
    (0 < s.missed ∧ i = .lagged s.missed ∧ feed = ⟨0, s.pending⟩) ∨
      ∃ l, s.missed = 0 ∧ i = .change l ∧ s.pending = l :: feed.pending ∧ feed.missed = 0 := by
  rw [next?] at h
  split at h
  case isTrue hm =>
    cases h
    exact .inl ⟨hm, rfl, rfl⟩
  case isFalse hm =>
    split at h
    case h_1 => cases h
    case h_2 l rest hp =>
      cases h
      exact .inr ⟨l, by omega, rfl, hp, rfl⟩

/-- What was kept is kept, unless it is just what is taken or a loss is. -/
theorem keeps_of_next? {i : Item} (h : s.next? = some (i, feed)) (hk : s.Keeps l) :
    i = .change l ∨ (∃ n, i = .lagged n) ∨ feed.Keeps l := by
  obtain ⟨-, rfl, -⟩ | ⟨l', hm, rfl, hp, -⟩ := next?_cases h
  · exact .inr (.inl ⟨_, rfl⟩)
  · obtain hl | hl := hk
    · rw [hp] at hl
      obtain rfl | hl := List.mem_cons.mp hl
      · exact .inl rfl
      · exact .inr (.inr (.inl hl))
    · omega

/-- What is kept does not wait for anything to be published. -/
theorem Keeps.next? (h : s.Keeps l) : ∃ i feed, s.next? = some (i, feed) := by
  rw [Subscription.next?]
  split
  case isTrue => exact ⟨_, _, rfl⟩
  case isFalse hm =>
    obtain ⟨l', rest, hp⟩ := List.exists_cons_of_ne_nil (List.ne_nil_of_mem (h.resolve_right hm))
    rw [hp]
    exact ⟨_, _, rfl⟩

end Subscription
end StackKeeper
