import StackKeeper.Proofs.Course
/-!
# Jobs that run side by side

Two jobs that run at the same time make their calls in one common order, in which each keeps its own
order. All that one of them can notice of the other is what its reads find in the store, and all
that it leaves is its accepted writes, so the accesses of a log stand for the log.

Results:
* `interleaved_pairs`: the six orders of two accesses by each of two jobs.
* `Interleaved.accesses`: the accesses of two jobs are interleaved as their logs are.
* `chain_accesses`: a store is taken where the accesses of a log take it.
-/
namespace StackKeeper

/-- The third list merges the first two and keeps the order of each. -/
inductive Interleaved {α : Type} : List α → List α → List α → Prop
  | nil : Interleaved [] [] []
  | left (x : α) {a b c : List α} (h : Interleaved a b c) : Interleaved (x :: a) b (x :: c)
  | right (x : α) {a b c : List α} (h : Interleaved a b c) : Interleaved a (x :: b) (x :: c)

namespace Interleaved

variable {α : Type} {a b c : List α}

theorem mem_iff (h : Interleaved a b c) {x : α} : x ∈ c ↔ x ∈ a ∨ x ∈ b := by
  induction h with
  | nil => simp
  | left y h ih => simp only [List.mem_cons, ih, or_assoc]
  | right y h ih => simp only [List.mem_cons, ih, or_left_comm]

theorem symm (h : Interleaved a b c) : Interleaved b a c := by
  induction h with
  | nil => exact .nil
  | left x h ih => exact .right x ih
  | right x h ih => exact .left x ih

theorem nil_right (a : List α) : Interleaved a [] a := by
  induction a with
  | nil => exact .nil
  | cons x a ih => exact .left x ih

theorem eq_of_nil_left (h : Interleaved [] b c) : c = b := by
  generalize ha : ([] : List α) = a at h
  induction h with
  | nil => rfl
  | left x h ih => cases ha
  | right x h ih => rw [ih ha]

theorem eq_of_nil_right (h : Interleaved a [] c) : c = a := h.symm.eq_of_nil_left

/-- What two lists have of one kind is interleaved as the lists are. -/
theorem filter (p : α → Bool) (h : Interleaved a b c) :
    Interleaved (a.filter p) (b.filter p) (c.filter p) := by
  induction h with
  | nil => exact .nil
  | left x h ih =>
    cases hp : p x with
    | true =>
      rw [List.filter_cons_of_pos hp, List.filter_cons_of_pos hp]
      exact .left x ih
    | false =>
      rw [List.filter_cons_of_neg (by simp [hp]), List.filter_cons_of_neg (by simp [hp])]
      exact ih
  | right x h ih =>
    cases hp : p x with
    | true =>
      rw [List.filter_cons_of_pos hp, List.filter_cons_of_pos hp]
      exact .right x ih
    | false =>
      rw [List.filter_cons_of_neg (by simp [hp]), List.filter_cons_of_neg (by simp [hp])]
      exact ih

end Interleaved

/-- Two pairs, the second read between the two of the first or the other way round, with the second
pair ending last. -/
def Overtakes {α : Type} (r w r' w' : α) (c : List α) : Prop :=
  c = [r, r', w, w'] ∨ c = [r', r, w, w']

/-- Two pairs come one after another, or they overlap and one of them ends last. -/
theorem interleaved_pairs {α : Type} {r w r' w' : α} {c : List α}
    (h : Interleaved [r, w] [r', w'] c) :
    c = [r, w, r', w'] ∨ c = [r', w', r, w] ∨ Overtakes r w r' w' c ∨ Overtakes r' w' r w c := by
  -- Once one pair has ended, the rest of the other follows.
  cases h with
  | left _ h =>
    cases h with
    | left _ h => exact .inl (by rw [h.eq_of_nil_left])
    | right _ h =>
      cases h with
      | left _ h => exact .inr (.inr (.inl (.inl (by rw [h.eq_of_nil_left]))))
      | right _ h => exact .inr (.inr (.inr (.inr (by rw [h.eq_of_nil_right]))))
  | right _ h =>
    cases h with
    | left _ h =>
      cases h with
      | left _ h => exact .inr (.inr (.inl (.inr (by rw [h.eq_of_nil_left]))))
      | right _ h => exact .inr (.inr (.inr (.inl (by rw [h.eq_of_nil_right]))))
    | right _ h => exact .inr (.inl (by rw [h.eq_of_nil_right]))

/-- Pairs of a read and a write that overlap do not come one after another. -/
theorem Overtakes.not_sequential {α : Type} {r w r' w' : α} {c : List α}
    (h : Overtakes r w r' w' c) (hr : r ≠ w ∧ r ≠ w') (hr' : r' ≠ w ∧ r' ≠ w') :
    ¬ (c = [r, w, r', w'] ∨ c = [r', w', r, w]) := by
  rcases h with rfl | rfl
  · rintro (he | he)
    · exact hr'.1 (List.cons.inj (List.cons.inj he).2).1
    · exact hr'.2 (List.cons.inj (List.cons.inj he).2).1
  · rintro (he | he)
    · exact hr.1 (List.cons.inj (List.cons.inj he).2).1
    · exact hr.2 (List.cons.inj (List.cons.inj he).2).1

/-! ## Accesses -/

namespace Log

/-- Whether the event is a read that found a resource, or a write that was accepted. -/
def isAccess : Event → Bool
  | ⟨.getResource _, .ok _⟩ | ⟨.updateResource _, .ok _⟩ | ⟨.updateStatus _, .ok _⟩ => true
  | _ => false

/-- The reads that found a resource and the writes that were accepted. -/
def accesses (log : Log) : Log := log.filter isAccess

/-- The event has nothing to do with the store, or it is about the resource under the locator. -/
def IsAbout (l : Locator) (e : Event) : Prop :=
  match e with
  | ⟨.getResource l', _⟩ => l' = l
  | ⟨.updateResource r, _⟩ | ⟨.updateStatus r, _⟩ => r.locator = l
  | _ => True

/-- Whatever the log has to do with the store is about the resource under the locator. -/
def Concerns (l : Locator) (log : Log) : Prop := ∀ e ∈ log, IsAbout l e

variable {l : Locator} {log rest : Log} {e : Event}

@[simp] theorem concerns_nil : Concerns l [] := by simp [Concerns]

@[simp] theorem concerns_cons : Concerns l (e :: log) ↔ IsAbout l e ∧ Concerns l log := by
  simp [Concerns]

@[simp] theorem concerns_append : Concerns l (log ++ rest) ↔ Concerns l log ∧ Concerns l rest := by
  simp only [Concerns, List.mem_append, or_imp, forall_and]

@[simp] theorem accesses_nil : accesses [] = [] := rfl

theorem accesses_append : accesses (log ++ rest) = accesses log ++ accesses rest :=
  List.filter_append ..

theorem accesses_cons_of_access (h : isAccess e = true) :
    accesses (e :: log) = e :: accesses log := List.filter_cons_of_pos h

theorem accesses_cons_of_not_access (h : isAccess e = false) :
    accesses (e :: log) = accesses log := List.filter_cons_of_neg (by simp [h])

theorem mem_accesses : e ∈ accesses log ↔ e ∈ log ∧ isAccess e = true :=
  List.mem_filter

end Log

theorem Interleaved.accesses {a b c : Log} (h : Interleaved a b c) :
    Interleaved a.accesses b.accesses c.accesses := h.filter _

theorem Interleaved.concerns {l : Locator} {a b c : Log} (h : Interleaved a b c)
    (ha : a.Concerns l) (hb : b.Concerns l) : c.Concerns l := by
  intro e he
  rcases h.mem_iff.mp he with he | he
  · exact ha e he
  · exact hb e he

namespace Store
open Log

variable {l : Locator} {s s' : Store} {r stored : Resource} {log : Log}

/-- An event that is no access leaves a store as it is. -/
theorem eq_of_serves {e : Event} (hown : s.Owns l) (hl : IsAbout l e) (he : isAccess e = false)
    (h : s.Serves e s') : s' = s := by
  obtain ⟨c, answer⟩ := e
  cases c with
  | getResource l' => exact h.2
  | updateResource r =>
    cases answer with
    | ok _ => cases he
    | error e =>
      simp only [Serves] at h
      rcases update_cases hl hown with ⟨e', hs⟩ | ⟨stored, s₁, -, -, hs, -⟩
      · cases hs.symm.trans h
        rfl
      · cases hs.symm.trans h
  | updateStatus r =>
    cases answer with
    | ok _ => cases he
    | error e =>
      simp only [Serves] at h
      rcases updateStatus_cases hl hown with ⟨e', hs⟩ | ⟨stored, s₁, -, -, hs, -⟩
      · cases hs.symm.trans h
        rfl
      · cases hs.symm.trans h
  | listResources | getStack _ | getMembers _ | createStack _ _ | updateStack _ | deleteStack _
  | submit _ | unfollow _ => exact h

/-- What a store serves moves it in the way of steps that may also fail. -/
theorem Serves.moves {e : Event} (hl : IsAbout l e) (h : s.Serves e s') : s.Moves l e s' := by
  obtain ⟨c, answer⟩ := e
  cases c with
  | getResource l' =>
    simp only [IsAbout] at hl
    subst hl
    simp only [Moves, if_true]
    exact .inl h
  | updateResource r =>
    simp only [IsAbout] at hl
    simp only [Moves, hl, if_true]
    exact .inl h
  | updateStatus r =>
    simp only [IsAbout] at hl
    simp only [Moves, hl, if_true]
    exact .inl h
  | listResources | getStack _ | getMembers _ | createStack _ _ | updateStack _ | deleteStack _
  | submit _ | unfollow _ => exact h

theorem chain_accesses (hown : s.Owns l) (hl : log.Concerns l) (h : Chain Serves s log s') :
    Chain Serves s log.accesses s' := by
  induction log generalizing s with
  | nil => exact h
  | cons e log ih =>
    obtain ⟨m, he, h⟩ := h
    obtain ⟨hle, hlog⟩ := concerns_cons.mp hl
    have hm := ih (owns_after_event hown (he.moves hle)) hlog h
    cases ha : isAccess e with
    | true =>
      rw [accesses_cons_of_access ha]
      exact ⟨m, he, hm⟩
    | false =>
      rw [accesses_cons_of_not_access ha]
      rwa [eq_of_serves hown hle ha he] at hm

/-- Another job that reads while the first one is under way finds the resource under its own
locator. -/
theorem own_of_interleaved {a b c : Log} {e : Event} (hown : s.Owns l) (ha : Concerns l a)
    (he : e = ⟨.getResource l, .ok r⟩) (hi : Interleaved a (e :: b) c) (hc : Chain Serves s c s') :
    r.locator = l := by
  generalize hb : e :: b = b' at hi
  induction hi generalizing s with
  | nil => cases hb
  | left x h ih =>
    obtain ⟨m, hx, hc⟩ := hc
    obtain ⟨hxl, ha⟩ := concerns_cons.mp ha
    exact ih (owns_after_event hown (hx.moves hxl)) ha hc hb
  | right x h ih =>
    cases hb
    subst he
    obtain ⟨m, hx, -⟩ := hc
    exact hown r hx.1.symm

/-- Two jobs that keep to the resource they have read keep to the one under the locator. -/
theorem concerns_of_interleaved {a b c : Log} {r' : Resource} (hown : s.Owns l)
    (ha : r.locator = l → Concerns l a) (hb : r'.locator = l → Concerns l b)
    (hi : Interleaved (⟨.getResource l, .ok r⟩ :: a) (⟨.getResource l, .ok r'⟩ :: b) c)
    (hc : Chain Serves s c s') : Concerns l c := by
  have hread : ∀ x : Resource, IsAbout l ⟨.getResource l, .ok x⟩ := fun _ => rfl
  have hlocators : r.locator = l ∧ r'.locator = l := by
    cases hi with
    | left _ h =>
      obtain ⟨m, hx, hc⟩ := hc
      have hr : r.locator = l := hown r hx.1.symm
      have hm : m.Owns l := owns_after_event hown (hx.moves (hread r))
      exact ⟨hr, own_of_interleaved hm (ha hr) rfl h hc⟩
    | right _ h =>
      obtain ⟨m, hx, hc⟩ := hc
      have hr' : r'.locator = l := hown r' hx.1.symm
      have hm : m.Owns l := owns_after_event hown (hx.moves (hread r'))
      exact ⟨own_of_interleaved hm (hb hr') rfl h.symm hc, hr'⟩
  exact hi.concerns (concerns_cons.mpr ⟨rfl, ha hlocators.1⟩)
    (concerns_cons.mpr ⟨rfl, hb hlocators.2⟩)

/-! ## One access after another -/

theorem chain_read : Chain Serves s (⟨.getResource l, .ok r⟩ :: log) s' ↔
    s.get l = .ok r ∧ Chain Serves s log s' := by
  constructor
  · rintro ⟨m, ⟨hr, rfl⟩, h⟩
    exact ⟨hr.symm, h⟩
  · rintro ⟨hr, h⟩
    exact ⟨s, ⟨hr.symm, rfl⟩, h⟩

/-- Two jobs that both read before either writes have read the same. -/
theorem chain_overtakes {r' : Resource} {w w' : Event}
    (h : Overtakes ⟨.getResource l, .ok r⟩ w ⟨.getResource l, .ok r'⟩ w' log)
    (hc : Chain Serves s log s') : s.get l = .ok r ∧ r' = r ∧ Chain Serves s [w, w'] s' := by
  rcases h with rfl | rfl
  · obtain ⟨hr, hc⟩ := chain_read.mp hc
    obtain ⟨hr', hc⟩ := chain_read.mp hc
    exact ⟨hr, Except.ok.inj (hr'.symm.trans hr), hc⟩
  · obtain ⟨hr', hc⟩ := chain_read.mp hc
    obtain ⟨hr, hc⟩ := chain_read.mp hc
    exact ⟨hr, Except.ok.inj (hr'.symm.trans hr), hc⟩

end Store
end StackKeeper
