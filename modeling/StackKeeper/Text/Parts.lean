/-!
# Parts of a text

Cutting a text at a separator, and finding one text inside another.

Results:
* `splitFirst_eq_some_iff`: the cut is at the first separator and loses nothing else.
* `joinParts_splitAll`: the parts between separators join to the whole again.
-/
namespace StackKeeper.Text

/-- The text before and after the first separator. -/
def splitFirst (sep : Char) : List Char → Option (List Char × List Char)
  | [] => none
  | c :: rest =>
    if c = sep then some ([], rest)
    else (splitFirst sep rest).map fun p => (c :: p.1, p.2)

theorem splitFirst_eq_some_iff {sep : Char} {s a b : List Char} :
    splitFirst sep s = some (a, b) ↔ s = a ++ sep :: b ∧ sep ∉ a := by
  induction s generalizing a with
  | nil => simp [splitFirst]
  | cons c s ih =>
    rw [splitFirst]
    by_cases hc : c = sep
    · subst hc
      rw [if_pos rfl]
      cases a with
      | nil => simp [eq_comm]
      | cons d a =>
        simp only [List.cons_append, List.cons.injEq, List.mem_cons, not_or]
        constructor
        · intro h; simp at h
        · rintro ⟨⟨rfl, -⟩, h, -⟩; exact absurd rfl h
    · rw [if_neg hc, Option.map_eq_some_iff]
      constructor
      · rintro ⟨⟨x, y⟩, hp, he⟩
        obtain ⟨rfl, rfl⟩ := Prod.mk.inj he
        obtain ⟨h, hn⟩ := ih.mp hp
        exact ⟨by rw [h, List.cons_append], by simp [hn, Ne.symm hc]⟩
      · rintro ⟨h, hn⟩
        cases a with
        | nil => exact absurd (List.cons.inj h).1 hc
        | cons d a =>
          obtain ⟨rfl, h⟩ := List.cons.inj h
          exact ⟨(a, b), ih.mpr ⟨by simpa using h, fun hm => hn (List.mem_cons_of_mem _ hm)⟩, rfl⟩

def splitLast (sep : Char) (s : List Char) : Option (List Char × List Char) :=
  (splitFirst sep s.reverse).map fun p => (p.2.reverse, p.1.reverse)

/-- The parts between separators; a text without one is a single part. -/
def splitAll (sep : Char) : List Char → List (List Char)
  | [] => [[]]
  | c :: rest =>
    if c = sep then [] :: splitAll sep rest
    else
      match splitAll sep rest with
      | [] => [[c]]
      | part :: parts => (c :: part) :: parts

/-- The parts with a separator between each two. -/
def joinParts (sep : Char) : List (List Char) → List Char
  | [] => []
  | [part] => part
  | part :: parts => part ++ sep :: joinParts sep parts

theorem splitAll_ne_nil (sep : Char) (s : List Char) : splitAll sep s ≠ [] := by
  cases s with
  | nil => simp [splitAll]
  | cons c s => rw [splitAll]; split <;> (try split) <;> simp

theorem joinParts_splitAll (sep : Char) (s : List Char) : joinParts sep (splitAll sep s) = s := by
  induction s with
  | nil => rfl
  | cons c s ih =>
    rw [splitAll]
    match hp : splitAll sep s with
    | [] => exact absurd hp (splitAll_ne_nil sep s)
    | [part] =>
      rw [hp] at ih
      split <;> simp_all [joinParts]
    | part :: q :: parts =>
      rw [hp] at ih
      split <;> simp_all [joinParts]

def parts (sep : Char) (s : String) : List String := (splitAll sep s.toList).map String.ofList

/-- Whether the first text occurs in the second one. -/
def occursIn (needle : List Char) : List Char → Bool
  | [] => needle.isEmpty
  | c :: rest => needle.isPrefixOf (c :: rest) || occursIn needle rest

def contains (s needle : String) : Bool := occursIn needle.toList s.toList

def endsWith (s ending : String) : Bool := ending.toList.isSuffixOf s.toList

end StackKeeper.Text
