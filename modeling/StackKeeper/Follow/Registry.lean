import StackKeeper.Resource.Locator
/-!
# The registry of followed stacks

The stacks under observation by id, each with the resource that owns it. An id is registered at most
once and keeps the resource of its first registration until it is removed.

Results:
* `get?_insertNew`, `get?_erase`: registering and removing touch their own id only.
* `ids_insertNew`, `ids_erase`: the ids that are registered afterwards.
-/
namespace StackKeeper

/-- The followed stacks by id. -/
structure Registry where
  entries : List (String × Locator)

namespace Registry

def empty : Registry := ⟨[]⟩

/-- The resource that owns a followed stack. -/
def get? (g : Registry) (id : String) : Option Locator := g.entries.lookup id

def contains (g : Registry) (id : String) : Bool := (g.get? id).isSome

/-- Registers a stack that is not followed yet; a followed one stays as it is. -/
def insertNew (g : Registry) (id : String) (l : Locator) : Registry :=
  if g.contains id then g else ⟨g.entries ++ [(id, l)]⟩

def erase (g : Registry) (id : String) : Registry := ⟨g.entries.filter fun e => e.1 != id⟩

def size (g : Registry) : Nat := g.entries.length

def ids (g : Registry) : List String := g.entries.map (·.1)

def sorted (g : Registry) : List (String × Locator) :=
  g.entries.mergeSort fun a b => a.1 ≤ b.1

theorem lookup_cons_if (k q : String) (v : Locator) (l : List (String × Locator)) :
    ((k, v) :: l).lookup q = if q = k then some v else l.lookup q := by
  rw [List.lookup_cons]
  by_cases h : q = k
  · simp [h]
  · simp [h, beq_false_of_ne h]

theorem lookup_append_single (l : List (String × Locator)) (id q : String) (v : Locator) :
    (l ++ [(id, v)]).lookup q = (l.lookup q).or (if q = id then some v else none) := by
  induction l with
  | nil => rw [List.nil_append, lookup_cons_if]; rfl
  | cons a l ih =>
    rw [List.cons_append, lookup_cons_if a.1, lookup_cons_if a.1, ih]
    split <;> rfl

theorem get?_insertNew (g : Registry) (id q : String) (l : Locator) :
    (g.insertNew id l).get? q = (g.get? q).or (if q = id then some l else none) := by
  rw [insertNew]
  split
  · rename_i h
    by_cases hq : q = id
    · subst hq
      rw [contains, Option.isSome_iff_exists] at h
      obtain ⟨v, hv⟩ := h
      simp [hv]
    · simp [hq]
  · exact lookup_append_single g.entries id q l

theorem get?_erase (g : Registry) (id q : String) :
    (g.erase id).get? q = if q = id then none else g.get? q := by
  obtain ⟨l⟩ := g
  show (l.filter fun e => e.1 != id).lookup q = if q = id then none else l.lookup q
  induction l with
  | nil => simp
  | cons a l ih =>
    rw [lookup_cons_if a.1]
    by_cases ha : a.1 = id
    · rw [List.filter_cons_of_neg (by simp [ha]), ih, ha]
      split <;> rfl
    · rw [List.filter_cons_of_pos (by simp [ha]), lookup_cons_if a.1, ih]
      by_cases hq : q = a.1
      · simp [hq, ha]
      · simp [hq]

theorem length_ids (g : Registry) : g.ids.length = g.size := List.length_map _

theorem mem_ids {g : Registry} {id : String} : id ∈ g.ids ↔ g.contains id = true := by
  obtain ⟨l⟩ := g
  show id ∈ l.map (·.1) ↔ (l.lookup id).isSome = true
  induction l with
  | nil => simp
  | cons a l ih =>
    rw [lookup_cons_if a.1, List.map_cons, List.mem_cons, ih]
    by_cases ha : id = a.1 <;> simp [ha]

theorem ids_insertNew {g : Registry} {id : String} (h : g.contains id = false) (l : Locator) :
    (g.insertNew id l).ids = g.ids ++ [id] := by
  simp [insertNew, h, ids]

theorem ids_erase (g : Registry) (id : String) : (g.erase id).ids = g.ids.filter (· != id) := by
  simp [ids, erase, List.filter_map, Function.comp_def]

end Registry
end StackKeeper
