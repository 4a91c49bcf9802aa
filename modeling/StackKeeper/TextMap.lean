/-!
# Maps from text to text

Parameters, tags, outputs and labels are maps from text to text that are written in the order of
their keys: by code point, which is also the order of their UTF-8 bytes. A `TextMap` keeps its
entries strictly sorted, so equal maps are equal values and writing one needs no further order.

Results:
* `get?_insert`: an insertion changes the value of its own key only.
* `get?_union`: in a union the right map wins.
* `ext`: maps that give every key the same value are equal.
-/
namespace StackKeeper

/-- A finite map from text to text, its entries strictly sorted by key. -/
structure TextMap where
  entries : List (String × String)
  sorted : entries.Pairwise (fun a b => a.1 < b.1)
deriving DecidableEq

namespace TextMap

/-! ## Entries -/

/-- Sets the value of a key, keeping the entries sorted. -/
def insertEntry (k v : String) : List (String × String) → List (String × String)
  | [] => [(k, v)]
  | e :: rest =>
    if k < e.1 then (k, v) :: e :: rest
    else if k = e.1 then (k, v) :: rest
    else e :: insertEntry k v rest

def lookupEntry (k : String) : List (String × String) → Option String
  | [] => none
  | e :: rest => if e.1 = k then some e.2 else lookupEntry k rest

theorem mem_insertEntry {k v : String} {l : List (String × String)} {e : String × String}
    (h : e ∈ insertEntry k v l) : e = (k, v) ∨ e ∈ l := by
  induction l with
  | nil => simp [insertEntry] at h; exact .inl h
  | cons a rest ih =>
    rw [insertEntry] at h
    split at h
    · simpa using h
    · split at h
      · rcases List.mem_cons.mp h with h | h
        · exact .inl h
        · exact .inr (List.mem_cons_of_mem _ h)
      · rcases List.mem_cons.mp h with h | h
        · exact .inr (h ▸ List.mem_cons_self)
        · exact (ih h).imp id (List.mem_cons_of_mem _)

theorem sorted_insertEntry {k v : String} {l : List (String × String)}
    (h : l.Pairwise (fun a b => a.1 < b.1)) :
    (insertEntry k v l).Pairwise (fun a b => a.1 < b.1) := by
  induction l with
  | nil => simp [insertEntry]
  | cons a rest ih =>
    obtain ⟨ha, hr⟩ := List.pairwise_cons.mp h
    rw [insertEntry]
    split
    · rename_i hlt
      refine List.pairwise_cons.mpr ⟨fun e he => ?_, h⟩
      rcases List.mem_cons.mp he with rfl | he
      · exact hlt
      · exact String.lt_trans hlt (ha e he)
    · split
      · rename_i heq
        exact List.pairwise_cons.mpr ⟨fun e he => heq ▸ ha e he, hr⟩
      · rename_i hlt hne
        refine List.pairwise_cons.mpr ⟨fun e he => ?_, ih hr⟩
        rcases mem_insertEntry he with rfl | he
        · exact Std.lt_of_le_of_ne (String.not_lt.mp hlt) (Ne.symm hne)
        · exact ha e he

theorem lookupEntry_eq_none {k : String} {l : List (String × String)}
    (h : ∀ e ∈ l, e.1 ≠ k) : lookupEntry k l = none := by
  induction l with
  | nil => rfl
  | cons a rest ih =>
    rw [lookupEntry, if_neg (h a List.mem_cons_self)]
    exact ih fun e he => h e (List.mem_cons_of_mem _ he)

theorem lookupEntry_insertEntry (k v q : String) {l : List (String × String)}
    (h : l.Pairwise (fun a b => a.1 < b.1)) :
    lookupEntry q (insertEntry k v l) = if q = k then some v else lookupEntry q l := by
  induction l with
  | nil => simp [insertEntry, lookupEntry, eq_comm (a := k)]
  | cons a rest ih =>
    obtain ⟨ha, hr⟩ := List.pairwise_cons.mp h
    rw [insertEntry]
    split
    · simp [lookupEntry, eq_comm (a := k)]
    · split
      · rename_i heq
        by_cases hq : q = k
        · simp [lookupEntry, hq]
        · have hak : ¬ a.1 = q := fun h => hq (h ▸ heq.symm)
          have hkq : ¬ k = q := fun h => hq h.symm
          simp [lookupEntry, hq, hak, hkq]
      · rename_i hlt hne
        have hka : ¬ a.1 = k := fun h => hne h.symm
        by_cases haq : a.1 = q
        · have hq : ¬ q = k := fun h => hka (haq.trans h)
          simp [lookupEntry, haq, hq]
        · simp [lookupEntry, haq, ih hr]

/-! ## Operations -/

def empty : TextMap := ⟨[], List.Pairwise.nil⟩

instance : Inhabited TextMap := ⟨empty⟩

def insert (m : TextMap) (k v : String) : TextMap :=
  ⟨insertEntry k v m.entries, sorted_insertEntry m.sorted⟩

def get? (m : TextMap) (k : String) : Option String := lookupEntry k m.entries

def contains (m : TextMap) (k : String) : Bool := (m.get? k).isSome

def keys (m : TextMap) : List String := m.entries.map (·.1)

def isEmpty (m : TextMap) : Bool := m.entries.isEmpty

/-- Adds entries one after another, so that the last value of a repeated key stays. -/
def insertAll (m : TextMap) (l : List (String × String)) : TextMap :=
  l.foldl (fun m e => m.insert e.1 e.2) m

/-- The map of a list of entries; of a repeated key the last value stays. -/
def ofList (l : List (String × String)) : TextMap := empty.insertAll l

def union (m n : TextMap) : TextMap := m.insertAll n.entries

/-! ## Laws -/

@[simp] theorem get?_empty (q : String) : empty.get? q = none := rfl

@[simp] theorem get?_insert (m : TextMap) (k v q : String) :
    (m.insert k v).get? q = if q = k then some v else m.get? q :=
  lookupEntry_insertEntry k v q m.sorted

theorem get?_insertAll (m : TextMap) {l : List (String × String)}
    (h : l.Pairwise (fun a b => a.1 < b.1)) (q : String) :
    (m.insertAll l).get? q = (lookupEntry q l).or (m.get? q) := by
  induction l generalizing m with
  | nil => simp [insertAll, lookupEntry]
  | cons a rest ih =>
    obtain ⟨ha, hr⟩ := List.pairwise_cons.mp h
    rw [show m.insertAll (a :: rest) = (m.insert a.1 a.2).insertAll rest from rfl, ih _ hr,
      get?_insert, lookupEntry]
    by_cases hq : a.1 = q
    · subst hq
      rw [lookupEntry_eq_none fun e he => (String.ne_of_lt (ha e he)).symm]
      simp
    · rw [if_neg hq, if_neg fun h => hq h.symm]

@[simp] theorem get?_union (m n : TextMap) (q : String) :
    (m.union n).get? q = (n.get? q).or (m.get? q) :=
  get?_insertAll m n.sorted q

theorem lookupEntry_of_mem {l : List (String × String)}
    (h : l.Pairwise (fun a b => a.1 < b.1)) {e : String × String} (he : e ∈ l) :
    lookupEntry e.1 l = some e.2 := by
  induction l with
  | nil => simp at he
  | cons a rest ih =>
    obtain ⟨ha, hr⟩ := List.pairwise_cons.mp h
    rcases List.mem_cons.mp he with rfl | he
    · simp [lookupEntry]
    · rw [lookupEntry, if_neg (String.ne_of_lt (ha e he)), ih hr he]

theorem mem_of_lookupEntry {l : List (String × String)} {k v : String}
    (h : lookupEntry k l = some v) : (k, v) ∈ l := by
  induction l with
  | nil => simp [lookupEntry] at h
  | cons a rest ih =>
    rw [lookupEntry] at h
    split at h
    · rename_i hk
      obtain rfl := Option.some.inj h
      exact hk ▸ List.mem_cons_self
    · exact List.mem_cons_of_mem _ (ih h)

theorem mem_entries_iff {m : TextMap} {k v : String} : (k, v) ∈ m.entries ↔ m.get? k = some v :=
  ⟨fun h => lookupEntry_of_mem m.sorted h, mem_of_lookupEntry⟩

/-- Sorted lists of entries with the same members are equal. -/
theorem entries_ext {l m : List (String × String)}
    (hl : l.Pairwise (fun a b => a.1 < b.1)) (hm : m.Pairwise (fun a b => a.1 < b.1))
    (h : ∀ e, e ∈ l ↔ e ∈ m) : l = m := by
  induction l generalizing m with
  | nil =>
    cases m with
    | nil => rfl
    | cons b m => exact absurd ((h b).mpr List.mem_cons_self) List.not_mem_nil
  | cons a l ih =>
    cases m with
    | nil => exact absurd ((h a).mp List.mem_cons_self) List.not_mem_nil
    | cons b m =>
      obtain ⟨ha, hl'⟩ := List.pairwise_cons.mp hl
      obtain ⟨hb, hm'⟩ := List.pairwise_cons.mp hm
      have hab : a = b := by
        rcases List.mem_cons.mp ((h a).mp List.mem_cons_self) with hab | hab
        · exact hab
        rcases List.mem_cons.mp ((h b).mpr List.mem_cons_self) with hba | hba
        · exact hba.symm
        exact absurd (String.lt_trans (ha b hba) (hb a hab)) (String.lt_irrefl _)
      subst hab
      refine congrArg (a :: ·) (ih hl' hm' fun e => ?_)
      constructor
      · intro he
        rcases List.mem_cons.mp ((h e).mp (List.mem_cons_of_mem _ he)) with rfl | he'
        · exact absurd (ha e he) (String.lt_irrefl _)
        · exact he'
      · intro he
        rcases List.mem_cons.mp ((h e).mpr (List.mem_cons_of_mem _ he)) with rfl | he'
        · exact absurd (hb e he) (String.lt_irrefl _)
        · exact he'

theorem ext {m n : TextMap} (h : ∀ k, m.get? k = n.get? k) : m = n := by
  have he : m.entries = n.entries := entries_ext m.sorted n.sorted fun ⟨k, v⟩ => by
    rw [mem_entries_iff, mem_entries_iff, h k]
  cases m; cases n; simp_all

end TextMap
end StackKeeper
