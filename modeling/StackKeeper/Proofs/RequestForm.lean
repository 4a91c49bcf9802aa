import Mathlib.Data.List.Nodup
import Mathlib.Data.List.Infix
import StackKeeper.Api.Request
import StackKeeper.Proofs.DocumentText
/-!
# What the form of a request tells

A form names each of its values. Up to the first point a name says what its value belongs to, and what
follows numbers the members of a list, so all names of a form differ, however many members a list
has. The form of a creation can therefore be read by name alone, in whatever order its entries come,
and what is read are the very inputs that were submitted.

Results:
* `lookup_under`, `nodup_names_of_under`: a form is the entries under each of its heads.
* `lookup_listEntries`, `lookup_key_mapEntries`: the value of a numbered name.
* `creation?_form`: the inputs are read back from the form of a creation.
* `form_tells_inputs`: so they are in any order of the entries; how members are numbered; and how the
  form of an update differs.
-/
namespace StackKeeper

namespace Text

/-- Numbers that are written alike are equal. -/
theorem decimal_inj {n m : Nat} (h : decimal n = decimal m) : n = m := by
  have hn := decimalValue?_decimal n
  rw [h, decimalValue?_decimal] at hn
  exact (Option.some.inj hn).symm

theorem point_not_mem_decimal (n : Nat) : '.' ∉ decimal n := fun h =>
  absurd (isDigit_of_mem_decimal h) (by decide)

end Text

namespace TextMap

theorem lookupEntry_append (k : String) (l m : List (String × String)) :
    lookupEntry k (l ++ m) = (lookupEntry k l).or (lookupEntry k m) := by
  induction l with
  | nil => simp [lookupEntry]
  | cons e l ih =>
    rw [List.cons_append, lookupEntry, lookupEntry]
    split
    · rfl
    · exact ih

/-- Where names differ, the value of a name is that of any of its entries. -/
theorem lookupEntry_eq_some_iff {k v : String} {l : List (String × String)}
    (h : (l.map (·.1)).Nodup) : lookupEntry k l = some v ↔ (k, v) ∈ l := by
  refine ⟨mem_of_lookupEntry, fun hmem => ?_⟩
  induction l with
  | nil => cases hmem
  | cons e l ih =>
    obtain ⟨hne, hl⟩ := List.nodup_cons.mp h
    rw [lookupEntry]
    rcases List.mem_cons.mp hmem with rfl | hmem
    · rw [if_pos rfl]
    · have hk : e.1 ≠ k := by
        rintro rfl
        exact hne (List.mem_map.mpr ⟨_, hmem, rfl⟩)
      rw [if_neg hk, ih hl hmem]

/-- Where names differ, the order of the entries does not count. -/
theorem lookupEntry_perm {k : String} {l m : List (String × String)} (h : l.Perm m)
    (hm : (m.map (·.1)).Nodup) : lookupEntry k l = lookupEntry k m := by
  have hl : (l.map (·.1)).Nodup := (h.map _).nodup_iff.mpr hm
  refine Option.ext fun v => ?_
  rw [lookupEntry_eq_some_iff hl, lookupEntry_eq_some_iff hm, h.mem_iff]

end TextMap

namespace Api
open Text TextMap Request

variable {form rest : List Entry} {name key other : String} {n m : Nat}

/-! ## Heads of names -/

/-- What a name begins with, up to its first point. -/
def headOf (name : String) : List Char := name.toList.takeWhile (· ≠ '.')

/-- The entries whose names begin with the given head. -/
def under (head : String) (form : List Entry) : List Entry :=
  form.filter fun e => headOf e.1 = head.toList

theorem under_append (head : String) (form rest : List Entry) :
    under head (form ++ rest) = under head form ++ under head rest := List.filter_append _ _

theorem under_cons (head : String) (e : Entry) (form : List Entry) :
    under head (e :: form) = (if headOf e.1 = head.toList then [e] else []) ++ under head form := by
  rw [under, List.filter_cons]
  split <;> simp_all [under]

/-- Entries with one head are all under it, and none under any other. -/
theorem under_of_heads (head : String) (h : ∀ e ∈ form, headOf e.1 = name.toList) :
    under head form = if name = head then form else [] := by
  split
  · rename_i heq
    subst heq
    exact List.filter_eq_self.mpr fun e he => decide_eq_true (h e he)
  · rename_i hne
    refine List.filter_eq_nil_iff.mpr fun e he => ?_
    rw [h e he, decide_eq_true_eq, String.toList_inj]
    exact hne

theorem lookup_under {head : String} (h : headOf name = head.toList) (form : List Entry) :
    lookupEntry name form = lookupEntry name (under head form) := by
  induction form with
  | nil => rfl
  | cons e form ih =>
    rw [under_cons, lookupEntry_append, lookupEntry, ← ih]
    by_cases hk : e.1 = name
    · rw [if_pos hk, if_pos (hk ▸ h)]
      simp [lookupEntry, hk]
    · rw [if_neg hk]
      split <;> simp [lookupEntry, hk]

/-- If the names under each head differ, all do. -/
theorem nodup_names_of_under (h : ∀ head, ((under head form).map (·.1)).Nodup) :
    (form.map (·.1)).Nodup := by
  induction form with
  | nil => exact List.nodup_nil
  | cons e form ih =>
    have hrest : ∀ head, ((under head form).map (·.1)).Nodup := by
      intro head
      have hhead := h head
      rw [under_cons, List.map_append] at hhead
      exact hhead.of_append_right
    refine List.nodup_cons.mpr ⟨fun hmem => ?_, ih hrest⟩
    obtain ⟨d, hd, hde⟩ := List.mem_map.mp hmem
    have hhead := h (String.ofList (headOf e.1))
    rw [under_cons, String.toList_ofList, if_pos rfl, List.singleton_append, List.map_cons,
      List.nodup_cons] at hhead
    refine hhead.1 (List.mem_map.mpr ⟨d, List.mem_filter.mpr ⟨hd, ?_⟩, hde⟩)
    simp [hde]

/-! ## Numbered names -/

theorem toList_memberName (name : String) (n : Nat) :
    (memberName name n).toList = name.toList ++ '.' :: ("member.".toList ++ decimal n) := by
  simp [memberName, decimalText, String.toList_append]

theorem memberName_inj : memberName name n = memberName name m ↔ n = m := by
  refine ⟨fun h => ?_, fun h => h ▸ rfl⟩
  have h' := congrArg String.toList h
  rw [toList_memberName, toList_memberName] at h'
  simp only [List.append_cancel_left_eq, List.cons.injEq, true_and] at h'
  exact decimal_inj h'

theorem memberName_ne (name : String) (n : Nat) : memberName name n ≠ name := by
  intro h
  have h' := congrArg (fun s : String => s.toList.length) h
  simp [toList_memberName] at h'

/-- The name of a part of the member with a number. -/
def partName (name key : String) (n : Nat) : String := memberName name n ++ "." ++ key

theorem partName_inj : partName name key n = partName name other m ↔ n = m ∧ key = other := by
  refine ⟨fun h => ?_, fun ⟨hn, hk⟩ => hn ▸ hk ▸ rfl⟩
  have h' := congrArg String.toList h
  simp only [partName, String.toList_append, toList_memberName, List.append_assoc,
    List.cons_append, List.append_cancel_left_eq, List.cons.injEq, true_and] at h'
  -- The digits end at the next point.
  have split : ∀ (k : Nat) (s : String),
      splitFirst '.' (decimal k ++ (".".toList ++ s.toList)) = some (decimal k, s.toList) :=
    fun k s => splitFirst_eq_some_iff.mpr ⟨rfl, point_not_mem_decimal k⟩
  have hsplit := split n key
  rw [h', split m other, Option.some.injEq, Prod.mk.injEq] at hsplit
  exact ⟨(decimal_inj hsplit.1).symm, (String.toList_inj.mp hsplit.2).symm⟩

theorem partName_ne (name key : String) (n : Nat) : partName name key n ≠ name := by
  intro h
  have h' := congrArg (fun s : String => s.toList.length) h
  simp [partName, toList_memberName, String.toList_append] at h'

theorem takeWhile_of_plain (hname : '.' ∉ name.toList) (s : List Char) :
    (name.toList ++ s).takeWhile (· ≠ '.') = name.toList ++ s.takeWhile (· ≠ '.') :=
  List.takeWhile_append_of_pos fun _ hc => decide_eq_true fun he => hname (he ▸ hc)

/-- A text without points is the head of the names that continue it after one. -/
theorem headOf_append_point {s : List Char} (hname : '.' ∉ name.toList)
    (h : other.toList = name.toList ++ '.' :: s) : headOf other = name.toList := by
  rw [headOf, h, takeWhile_of_plain hname]
  simp

theorem headOf_self (hname : '.' ∉ name.toList) : headOf name = name.toList := by
  have h := takeWhile_of_plain hname []
  rwa [List.append_nil, List.takeWhile_nil, List.append_nil] at h

theorem headOf_memberName (hname : '.' ∉ name.toList) (n : Nat) :
    headOf (memberName name n) = name.toList :=
  headOf_append_point hname (toList_memberName name n)

theorem headOf_partName (hname : '.' ∉ name.toList) (key : String) (n : Nat) :
    headOf (partName name key n) = name.toList := by
  refine headOf_append_point (s := "member.".toList ++ decimal n ++ (".".toList ++ key.toList))
    hname ?_
  simp [partName, String.toList_append, toList_memberName]

/-! ## Numbered entries -/

section
variable {α : Type} {entries : Nat → α → List Entry} {l : List α}

/-- The entries of the members of a list, numbered from a number on. -/
def numbered (entries : Nat → α → List Entry) (n : Nat) : List α → List Entry
  | [] => []
  | a :: rest => entries n a ++ numbered entries (n + 1) rest

theorem mem_numbered {e : Entry} (h : e ∈ numbered entries n l) :
    ∃ m, n ≤ m ∧ ∃ a, e ∈ entries m a := by
  induction l generalizing n with
  | nil => cases h
  | cons a l ih =>
    rcases List.mem_append.mp h with h | h
    · exact ⟨n, Nat.le_refl n, a, h⟩
    · obtain ⟨m, hm, hmem⟩ := ih h
      exact ⟨m, by omega, hmem⟩

/-- The names of numbered entries differ if those of one member do and tell its number. -/
theorem nodup_numbered (hself : ∀ n a, ((entries n a).map (·.1)).Nodup)
    (hnumber : ∀ n m a b d e, d ∈ entries n a → e ∈ entries m b → d.1 = e.1 → n = m) :
    ((numbered entries n l).map (·.1)).Nodup := by
  induction l generalizing n with
  | nil => exact List.nodup_nil
  | cons a l ih =>
    rw [numbered, List.map_append, List.nodup_append]
    refine ⟨hself n a, ih, ?_⟩
    rintro x hx y hy rfl
    obtain ⟨d, hd, rfl⟩ := List.mem_map.mp hx
    obtain ⟨e, he, hde⟩ := List.mem_map.mp hy
    obtain ⟨m, hm, b, hb⟩ := mem_numbered he
    have := hnumber n m a b d e hd hb hde.symm
    omega

/-- A name that belongs to the member with a number has the value that this member gives it. -/
theorem lookup_numbered {nameOf : Nat → String} {value : α → String}
    (hself : ∀ n a, lookupEntry (nameOf n) (entries n a) = some (value a))
    (hother : ∀ n m a, n ≠ m → lookupEntry (nameOf m) (entries n a) = none) (k : Nat) :
    lookupEntry (nameOf (n + k)) (numbered entries n l) = l[k]?.map value := by
  induction l generalizing n k with
  | nil => rfl
  | cons a l ih =>
    rw [numbered, lookupEntry_append]
    cases k with
    | zero => simp [hself]
    | succ k =>
      rw [hother n (n + (k + 1)) a (by omega), Option.none_or, show n + (k + 1) = n + 1 + k by omega,
        ih, List.getElem?_cons_succ]

theorem length_le_numbered (hself : ∀ n a, entries n a ≠ []) :
    l.length ≤ (numbered entries n l).length := by
  induction l generalizing n with
  | nil => exact Nat.le_refl 0
  | cons a l ih =>
    have hrest := ih (n := n + 1)
    have hpos := List.length_pos_of_ne_nil (hself n a)
    rw [numbered, List.length_append, List.length_cons]
    omega

theorem lookup_numbered_of_lt {nameOf : Nat → String}
    (hother : ∀ n m a, n ≠ m → lookupEntry (nameOf m) (entries n a) = none) (hm : m < n) :
    lookupEntry (nameOf m) (numbered entries n l) = none := by
  induction l generalizing n with
  | nil => rfl
  | cons a l ih =>
    rw [numbered, lookupEntry_append, hother n m a (by omega), ih (by omega), Option.none_or]

/-- A name of the list has the value of the member with its number, which counts from one. -/
def IsNumbered (form : List Entry) (nameOf : Nat → String) (values : List String) : Prop :=
  ∀ n, lookupEntry (nameOf n) form = if n = 0 then none else values[n - 1]?

theorem isNumbered_numbered {nameOf : Nat → String} {value : α → String}
    (hself : ∀ n a, lookupEntry (nameOf n) (entries n a) = some (value a))
    (hother : ∀ n m a, n ≠ m → lookupEntry (nameOf m) (entries n a) = none) (l : List α) :
    IsNumbered (numbered entries 1 l) nameOf (l.map value) := by
  intro n
  cases n with
  | zero => rw [if_pos rfl, lookup_numbered_of_lt hother Nat.zero_lt_one]
  | succ k =>
    rw [if_neg (Nat.succ_ne_zero k), Nat.add_comm k 1, lookup_numbered hself hother]
    simp

end

/-! ## Lists -/

def memberEntry (name : String) (n : Nat) (v : String) : List Entry := [(memberName name n, v)]

theorem listEntriesFrom_eq (name : String) (n : Nat) (l : List String) :
    listEntriesFrom name n l = numbered (memberEntry name) n l := by
  induction l generalizing n with
  | nil => rfl
  | cons v l ih => rw [listEntriesFrom, ih]; rfl

theorem headOf_listEntries (hname : '.' ∉ name.toList) (l : List String) :
    ∀ e ∈ listEntries name l, headOf e.1 = name.toList := by
  intro e he
  rw [listEntries] at he
  split at he
  · rw [List.mem_singleton.mp he]
    exact headOf_self hname
  · rw [listEntriesFrom_eq] at he
    obtain ⟨m, -, v, hv⟩ := mem_numbered he
    rw [List.mem_singleton.mp hv]
    exact headOf_memberName hname m

theorem nodup_listEntries (name : String) (l : List String) :
    ((listEntries name l).map (·.1)).Nodup := by
  rw [listEntries]
  split
  · exact List.nodup_singleton _
  · rw [listEntriesFrom_eq]
    refine nodup_numbered (fun _ _ => List.nodup_singleton _) ?_
    intro n m a b d e hd he hde
    rw [List.mem_singleton.mp hd, List.mem_singleton.mp he] at hde
    exact memberName_inj.mp hde

theorem length_le_listEntries (name : String) (l : List String) :
    l.length ≤ (listEntries name l).length := by
  rw [listEntries]
  split
  · simp_all
  · rw [listEntriesFrom_eq]
    exact length_le_numbered fun _ _ => List.cons_ne_nil _ _

theorem isNumbered_listEntries (name : String) (l : List String) :
    IsNumbered (listEntries name l) (memberName name) l := by
  intro n
  rw [listEntries]
  split
  · rename_i hl
    rw [List.isEmpty_iff] at hl
    subst hl
    simp [lookupEntry, (memberName_ne name n).symm]
  · rw [listEntriesFrom_eq]
    have hself : ∀ n v, lookupEntry (memberName name n) (memberEntry name n v) = some (id v) :=
      fun n v => if_pos rfl
    have hother : ∀ n m v, n ≠ m → lookupEntry (memberName name m) (memberEntry name n v) = none :=
      fun n m v hne => if_neg fun h => hne (memberName_inj.mp h)
    have hnumbered := isNumbered_numbered hself hother l n
    rwa [List.map_id] at hnumbered

/-! ## Maps -/

def pairEntry (name key value : String) (n : Nat) (p : String × String) : List Entry :=
  [(partName name key n, p.1), (partName name value n, p.2)]

theorem pairEntriesFrom_eq (name key value : String) (n : Nat) (l : List (String × String)) :
    pairEntriesFrom name key value n l = numbered (pairEntry name key value) n l := by
  induction l generalizing n with
  | nil => rfl
  | cons p l ih => rw [pairEntriesFrom, ih]; rfl

theorem headOf_mapEntries (hname : '.' ∉ name.toList) (key value : String) (m : TextMap) :
    ∀ e ∈ mapEntries name key value m, headOf e.1 = name.toList := by
  intro e he
  rw [mapEntries] at he
  split at he
  · rw [List.mem_singleton.mp he]
    exact headOf_self hname
  · rw [pairEntriesFrom_eq] at he
    obtain ⟨n, -, p, hp⟩ := mem_numbered he
    simp only [pairEntry, List.mem_cons, List.not_mem_nil, or_false] at hp
    rcases hp with rfl | rfl <;> exact headOf_partName hname _ n

theorem nodup_mapEntries {value : String} (hne : key ≠ value) (name : String) (m : TextMap) :
    ((mapEntries name key value m).map (·.1)).Nodup := by
  rw [mapEntries]
  split
  · exact List.nodup_singleton _
  · rw [pairEntriesFrom_eq]
    refine nodup_numbered (fun n p => ?_) ?_
    · simp [pairEntry, partName_inj, hne]
    · intro n m a b d e hd he hde
      simp only [pairEntry, List.mem_cons, List.not_mem_nil, or_false] at hd he
      rcases hd with rfl | rfl <;> rcases he with rfl | rfl <;> exact (partName_inj.mp hde).1

theorem length_le_mapEntries (name key value : String) (m : TextMap) :
    m.entries.length ≤ (mapEntries name key value m).length := by
  rw [mapEntries]
  split
  · simp_all [TextMap.isEmpty]
  · rw [pairEntriesFrom_eq]
    exact length_le_numbered fun _ _ => List.cons_ne_nil _ _

/-- The names of one part of the entries of a map are numbered. -/
theorem isNumbered_mapEntries {value part : String} {side : String × String → String}
    (hside : ∀ n p, lookupEntry (partName name part n) (pairEntry name key value n p) =
      some (side p)) (m : TextMap) :
    IsNumbered (mapEntries name key value m) (partName name part) (m.entries.map side) := by
  intro n
  rw [mapEntries]
  split
  · rename_i hm
    rw [TextMap.isEmpty, List.isEmpty_iff] at hm
    simp [lookupEntry, (partName_ne name part n).symm, hm]
  · rw [pairEntriesFrom_eq]
    refine isNumbered_numbered hside (fun n m p hne => ?_) m.entries n
    simp [pairEntry, lookupEntry, partName_inj, hne]

theorem isNumbered_keys (name key value : String) (m : TextMap) :
    IsNumbered (mapEntries name key value m) (partName name key) (m.entries.map (·.1)) :=
  isNumbered_mapEntries (fun _ _ => if_pos rfl) m

theorem isNumbered_values {value : String} (hne : key ≠ value) (name : String) (m : TextMap) :
    IsNumbered (mapEntries name key value m) (partName name value) (m.entries.map (·.2)) :=
  isNumbered_mapEntries (fun n p => by simp [pairEntry, lookupEntry, partName_inj, hne]) m

/-! ## Values that may be unset -/

theorem headOf_optionalEntry (hname : '.' ∉ name.toList) (v : Option String) :
    ∀ e ∈ optionalEntry name v, headOf e.1 = name.toList := by
  intro e he
  cases v with
  | none => cases he
  | some v =>
    rw [List.mem_singleton.mp he]
    exact headOf_self hname

theorem nodup_optionalEntry (name : String) (v : Option String) :
    ((optionalEntry name v).map (·.1)).Nodup := by
  cases v with
  | none => exact List.nodup_nil
  | some v => exact List.nodup_singleton _

@[simp] theorem lookup_optionalEntry (name : String) (v : Option String) :
    lookupEntry name (optionalEntry name v) = v := by
  cases v <;> simp [optionalEntry, lookupEntry]

end Api

namespace Template

def body? : Template → Option String
  | body text => some text
  | url _ => none

def url? : Template → Option String
  | body _ => none
  | url location => some location

/-- The template that is given by one of its two sources. -/
def ofSources? : Option String → Option String → Option Template
  | some text, none => some (body text)
  | none, some location => some (url location)
  | _, _ => none

@[simp] theorem ofSources?_sources (t : Template) : ofSources? t.body? t.url? = some t := by
  cases t <;> rfl

end Template

namespace Api
open Text TextMap Request

variable {form rest : List Entry} {name : String}

theorem templateEntry_eq (t : Template) : [templateEntry t] =
    optionalEntry "TemplateBody" t.body? ++ optionalEntry "TemplateURL" t.url? := by
  cases t <;> rfl

/-! ## Sections -/

/-- Entries with what all their names begin with. -/
structure Section where
  head : String
  entries : List Entry
  headed : ∀ e ∈ entries, headOf e.1 = head.toList
  nodup : (entries.map (·.1)).Nodup

namespace Section

def optional (name : String) (v : Option String) (h : '.' ∉ name.toList) : Section :=
  ⟨name, optionalEntry name v, headOf_optionalEntry h v, nodup_optionalEntry name v⟩

def list (name : String) (l : List String) (h : '.' ∉ name.toList) : Section :=
  ⟨name, listEntries name l, headOf_listEntries h l, nodup_listEntries name l⟩

/-- The section of a map. -/
def map (name key value : String) (m : TextMap) (h : '.' ∉ name.toList) (hne : key ≠ value) :
    Section :=
  ⟨name, mapEntries name key value m, headOf_mapEntries h key value m,
    nodup_mapEntries hne name m⟩

variable {sections : List Section} {s : Section}

theorem under_entries (s : Section) (head : String) :
    under head s.entries = if s.head = head then s.entries else [] :=
  under_of_heads head s.headed

/-- A head that no section has has no entries. -/
theorem under_of_not_mem {head : String} (h : head ∉ sections.map (·.head)) :
    under head (sections.flatMap (·.entries)) = [] := by
  induction sections with
  | nil => rfl
  | cons s sections ih =>
    rw [List.map_cons, List.mem_cons, not_or] at h
    rw [List.flatMap_cons, under_append, under_entries, if_neg (Ne.symm h.1), ih h.2,
      List.nil_append]

/-- Where heads differ, the entries under a head are its section. -/
theorem under_of_mem (hn : (sections.map (·.head)).Nodup) (hs : s ∈ sections) :
    under s.head (sections.flatMap (·.entries)) = s.entries := by
  induction sections with
  | nil => cases hs
  | cons t sections ih =>
    obtain ⟨hnot, hn⟩ := List.nodup_cons.mp hn
    rw [List.flatMap_cons, under_append, under_entries]
    rcases List.mem_cons.mp hs with rfl | hs
    · rw [if_pos rfl, under_of_not_mem hnot, List.append_nil]
    · have hne : t.head ≠ s.head := fun he => hnot (List.mem_map.mpr ⟨s, hs, he.symm⟩)
      rw [if_neg hne, ih hn hs, List.nil_append]

theorem nodup_names (hn : (sections.map (·.head)).Nodup) :
    ((sections.flatMap (·.entries)).map (·.1)).Nodup := by
  refine nodup_names_of_under fun head => ?_
  by_cases h : head ∈ sections.map (·.head)
  · obtain ⟨s, hs, rfl⟩ := List.mem_map.mp h
    rw [under_of_mem hn hs]
    exact s.nodup
  · rw [under_of_not_mem h]
    exact List.nodup_nil

/-- A name is looked up in the section of its head. -/
theorem lookup_of_mem (hn : (sections.map (·.head)).Nodup) (hs : s ∈ sections)
    (hname : headOf name = s.head.toList) :
    lookupEntry name (sections.flatMap (·.entries)) = lookupEntry name s.entries := by
  rw [lookup_under hname, under_of_mem hn hs]

theorem length_le_of_mem (hs : s ∈ sections) :
    s.entries.length ≤ (sections.flatMap (·.entries)).length := by
  obtain ⟨before, after, rfl⟩ := List.append_of_mem hs
  simp only [List.flatMap_append, List.flatMap_cons, List.length_append]
  omega

end Section

/-! ## The form of a creation -/

/-- The sections of the inputs apart from the name of the stack. -/
def inputSections (i : StackInputs) : List Section :=
  [.optional "TemplateBody" i.template.body? (by decide),
    .optional "TemplateURL" i.template.url? (by decide),
    .map "Parameters" "ParameterKey" "ParameterValue" i.parameters (by decide) (by decide),
    .map "Tags" "Key" "Value" i.tags (by decide) (by decide),
    .list "Capabilities" i.capabilities (by decide), .optional "RoleARN" i.role (by decide),
    .list "NotificationARNs" i.notifications (by decide)]

/-- The sections of a creation. -/
def creationSections (i : StackInputs) (onFailure : Option String) : List Section :=
  [.optional "Action" (some "CreateStack") (by decide), .optional "Version" (some version) (by decide),
    .optional "StackName" (some i.stack) (by decide)] ++ inputSections i ++
    [.optional "OnFailure" onFailure (by decide)]

theorem inputEntries_eq (i : StackInputs) :
    inputEntries i = (inputSections i).flatMap (·.entries) := by
  rw [inputEntries, ← List.singleton_append, templateEntry_eq]
  simp [inputSections, Section.optional, Section.list, Section.map]

theorem form_create (i : StackInputs) (onFailure : Option String) :
    (Request.create i onFailure).form = (creationSections i onFailure).flatMap (·.entries) := by
  rw [form, inputEntries_eq]
  simp [creationSections, Section.optional, opening, optionalEntry]

theorem nodup_heads (i : StackInputs) (onFailure : Option String) :
    ((creationSections i onFailure).map (·.head)).Nodup := by
  have h : (creationSections i onFailure).map (·.head) =
      ["Action", "Version", "StackName", "TemplateBody", "TemplateURL", "Parameters", "Tags",
        "Capabilities", "RoleARN", "NotificationARNs", "OnFailure"] := rfl
  rw [h]
  decide

/-! ## Reading a form by name -/

/-- The values of numbered names, from the first to as many as the form has entries. -/
def numberedValues (form : List Entry) (nameOf : Nat → String) : List String :=
  (List.range form.length).filterMap fun k => lookupEntry (nameOf (k + 1)) form

def numberedPairs (form : List Entry) (name key value : String) : List (String × String) :=
  (numberedValues form (partName name key)).zip (numberedValues form (partName name value))

/-- The inputs that a form tells. -/
def inputs? (form : List Entry) : Option StackInputs := do
  let stack ← lookupEntry "StackName" form
  let template ← Template.ofSources? (lookupEntry "TemplateBody" form)
    (lookupEntry "TemplateURL" form)
  some
    { stack := stack
      template := template
      parameters := .ofList (numberedPairs form "Parameters" "ParameterKey" "ParameterValue")
      tags := .ofList (numberedPairs form "Tags" "Key" "Value")
      capabilities := numberedValues form (memberName "Capabilities")
      role := lookupEntry "RoleARN" form
      notifications := numberedValues form (memberName "NotificationARNs") }

/-- The inputs and the failure policy that the form of a creation tells. -/
def creation? (form : List Entry) : Option (StackInputs × Option String) :=
  if lookupEntry "Action" form = some "CreateStack" then
    (inputs? form).map fun i => (i, lookupEntry "OnFailure" form)
  else none

/-- What is read of a form does not depend on the order of its entries. -/
theorem creation?_perm (h : rest.Perm form) (hn : (form.map (·.1)).Nodup) :
    creation? rest = creation? form := by
  simp only [creation?, inputs?, numberedPairs, numberedValues, lookupEntry_perm h hn, h.length_eq]

theorem filterMap_range_getElem? {α : Type} {l : List α} {n : Nat} (h : l.length ≤ n) :
    (List.range n).filterMap (l[·]?) = l := by
  induction l generalizing n with
  | nil => simp
  | cons a l ih =>
    obtain ⟨n, rfl⟩ : ∃ k, n = k + 1 := ⟨n - 1, by simp at h; omega⟩
    have htail := ih (n := n) (by simpa using h)
    simpa [List.range_succ_eq_map, List.filterMap_map, Function.comp_def] using htail

/-- Numbered names give back the list, if the form is long enough for it. -/
theorem numberedValues_eq {nameOf : Nat → String} {l : List String}
    (h : IsNumbered form nameOf l) (hl : l.length ≤ form.length) :
    numberedValues form nameOf = l := by
  have hlook : ∀ k, lookupEntry (nameOf (k + 1)) form = l[k]? := fun k => h (k + 1)
  simp only [numberedValues, hlook, filterMap_range_getElem? hl]

section
variable {i : StackInputs} {onFailure : Option String} {s : Section}

theorem lookup_create (hs : s ∈ creationSections i onFailure)
    (hname : headOf name = s.head.toList) :
    lookupEntry name (Request.create i onFailure).form = lookupEntry name s.entries := by
  rw [form_create]
  exact Section.lookup_of_mem (nodup_heads i onFailure) hs hname

theorem length_le_create (hs : s ∈ creationSections i onFailure) :
    s.entries.length ≤ (Request.create i onFailure).form.length := by
  rw [form_create]
  exact Section.length_le_of_mem hs

theorem isNumbered_create {nameOf : Nat → String} {values : List String}
    (hs : s ∈ creationSections i onFailure) (hname : ∀ n, headOf (nameOf n) = s.head.toList)
    (h : IsNumbered s.entries nameOf values) :
    IsNumbered (Request.create i onFailure).form nameOf values := fun n => by
  rw [lookup_create hs (hname n), h n]

/-! ### One section of a kind -/

variable (name) (key value : String) (h : '.' ∉ name.toList) (hne : key ≠ value)

theorem lookup_optional (v : Option String)
    (hs : .optional name v h ∈ creationSections i onFailure) :
    lookupEntry name (Request.create i onFailure).form = v :=
  (lookup_create hs (headOf_self h)).trans (lookup_optionalEntry name v)

theorem isNumbered_list (l : List String) (hs : .list name l h ∈ creationSections i onFailure) :
    IsNumbered (Request.create i onFailure).form (memberName name) l :=
  isNumbered_create hs (headOf_memberName h) (isNumbered_listEntries name l)

theorem numberedValues_list (l : List String)
    (hs : .list name l h ∈ creationSections i onFailure) :
    numberedValues (Request.create i onFailure).form (memberName name) = l :=
  numberedValues_eq (isNumbered_list name h l hs)
    ((length_le_listEntries name l).trans (length_le_create hs))

theorem isNumbered_map (m : TextMap)
    (hs : .map name key value m h hne ∈ creationSections i onFailure) :
    IsNumbered (Request.create i onFailure).form (partName name key) (m.entries.map (·.1)) ∧
      IsNumbered (Request.create i onFailure).form (partName name value) (m.entries.map (·.2)) :=
  ⟨isNumbered_create hs (headOf_partName h key) (isNumbered_keys name key value m),
    isNumbered_create hs (headOf_partName h value) (isNumbered_values hne name m)⟩

theorem numberedPairs_map (m : TextMap)
    (hs : .map name key value m h hne ∈ creationSections i onFailure) :
    numberedPairs (Request.create i onFailure).form name key value = m.entries := by
  have hlength : m.entries.length ≤ (Request.create i onFailure).form.length :=
    (length_le_mapEntries name key value m).trans (length_le_create hs)
  obtain ⟨hkeys, hvalues⟩ := isNumbered_map name key value h hne m hs
  rw [numberedPairs, numberedValues_eq hkeys (by simpa using hlength),
    numberedValues_eq hvalues (by simpa using hlength), List.zip_map', List.map_id']

end

/-- The inputs are read back from the form of their creation. -/
theorem creation?_form (i : StackInputs) (onFailure : Option String) :
    creation? (Request.create i onFailure).form = some (i, onFailure) := by
  have hs : ∀ s ∈ inputSections i, s ∈ creationSections i onFailure := fun s hs => by
    simp [creationSections, hs]
  generalize hform : (Request.create i onFailure).form = form
  have action : lookupEntry "Action" form = some "CreateStack" :=
    hform ▸ lookup_optional "Action" (by decide) _ (by simp [creationSections])
  have stack : lookupEntry "StackName" form = some i.stack :=
    hform ▸ lookup_optional "StackName" (by decide) _ (by simp [creationSections])
  have body : lookupEntry "TemplateBody" form = i.template.body? :=
    hform ▸ lookup_optional "TemplateBody" (by decide) _ (hs _ (by simp [inputSections]))
  have url : lookupEntry "TemplateURL" form = i.template.url? :=
    hform ▸ lookup_optional "TemplateURL" (by decide) _ (hs _ (by simp [inputSections]))
  have parameters : numberedPairs form "Parameters" "ParameterKey" "ParameterValue" =
      i.parameters.entries :=
    hform ▸ numberedPairs_map _ _ _ (by decide) (by decide) _ (hs _ (by simp [inputSections]))
  have tags : numberedPairs form "Tags" "Key" "Value" = i.tags.entries :=
    hform ▸ numberedPairs_map _ _ _ (by decide) (by decide) _ (hs _ (by simp [inputSections]))
  have capabilities : numberedValues form (memberName "Capabilities") = i.capabilities :=
    hform ▸ numberedValues_list _ (by decide) _ (hs _ (by simp [inputSections]))
  have role : lookupEntry "RoleARN" form = i.role :=
    hform ▸ lookup_optional "RoleARN" (by decide) _ (hs _ (by simp [inputSections]))
  have notifications : numberedValues form (memberName "NotificationARNs") = i.notifications :=
    hform ▸ numberedValues_list _ (by decide) _ (hs _ (by simp [inputSections]))
  have policy : lookupEntry "OnFailure" form = onFailure :=
    hform ▸ lookup_optional "OnFailure" (by decide) _ (by simp [creationSections])
  simp [creation?, inputs?, action, stack, body, url, parameters, tags, capabilities, role,
    notifications, policy, TextMap.ofList_entries]

/-! ## The form of an update -/

/-- The entry with another action, if it names the action. -/
def withAction (action : String) (e : Entry) : Entry :=
  if e.1 = "Action" then (e.1, action) else e

/-- No entry of the inputs has a name that is the head of none of their sections. -/
theorem name_ne_of_mem_inputEntries {i : StackInputs} {e : Entry} (hname : '.' ∉ name.toList)
    (h : name ∉ (inputSections i).map (·.head)) (he : e ∈ inputEntries i) : e.1 ≠ name := by
  rintro rfl
  rw [inputEntries_eq] at he
  obtain ⟨s, hs, he⟩ := List.mem_flatMap.mp he
  have hhead := s.headed e he
  rw [headOf_self hname, String.toList_inj] at hhead
  exact h (List.mem_map.mpr ⟨s, hs, hhead.symm⟩)

/-- The form of an update is that of the creation with another action and without the policy. -/
theorem form_update (i : StackInputs) (onFailure : Option String) :
    (Request.update i).form =
      ((Request.create i onFailure).form.filter (·.1 ≠ "OnFailure")).map
        (withAction "UpdateStack") := by
  have heads : (inputSections i).map (·.head) = ["TemplateBody", "TemplateURL", "Parameters",
    "Tags", "Capabilities", "RoleARN", "NotificationARNs"] := rfl
  have hpolicy : (inputEntries i).filter (·.1 ≠ "OnFailure") = inputEntries i :=
    List.filter_eq_self.mpr fun e he => decide_eq_true <|
      name_ne_of_mem_inputEntries (by decide) (by rw [heads]; decide) he
  have haction : (inputEntries i).map (withAction "UpdateStack") = inputEntries i :=
    (List.map_congr_left fun e he => if_neg <|
      name_ne_of_mem_inputEntries (by decide) (by rw [heads]; decide) he).trans (List.map_id' _)
  have hopening : ((opening "CreateStack" i.stack).filter (·.1 ≠ "OnFailure")).map
      (withAction "UpdateStack") = opening "UpdateStack" i.stack := by
    simp [opening, withAction]
  have hrest : (optionalEntry "OnFailure" onFailure).filter (·.1 ≠ "OnFailure") = [] := by
    cases onFailure <;> simp [optionalEntry]
  rw [form, form, List.filter_append, List.filter_append, List.map_append, List.map_append,
    hopening, hpolicy, haction, hrest, List.map_nil, List.append_nil]

/-! ## What a form tells -/

/-- The members of all lists and maps of the inputs are numbered from one without gaps. -/
structure NumbersMembers (form : List Entry) (i : StackInputs) : Prop where
  parameterKeys : IsNumbered form (partName "Parameters" "ParameterKey")
    (i.parameters.entries.map (·.1))
  parameterValues : IsNumbered form (partName "Parameters" "ParameterValue")
    (i.parameters.entries.map (·.2))
  tagKeys : IsNumbered form (partName "Tags" "Key") (i.tags.entries.map (·.1))
  tagValues : IsNumbered form (partName "Tags" "Value") (i.tags.entries.map (·.2))
  capabilities : IsNumbered form (memberName "Capabilities") i.capabilities
  notifications : IsNumbered form (memberName "NotificationARNs") i.notifications

theorem numbersMembers_create (i : StackInputs) (onFailure : Option String) :
    NumbersMembers (Request.create i onFailure).form i := by
  have hs : ∀ s ∈ inputSections i, s ∈ creationSections i onFailure := fun s hs => by
    simp [creationSections, hs]
  have parameters := isNumbered_map "Parameters" "ParameterKey" "ParameterValue" (by decide)
    (by decide) i.parameters (hs _ (by simp [inputSections]))
  have tags := isNumbered_map "Tags" "Key" "Value" (by decide) (by decide) i.tags
    (hs _ (by simp [inputSections]))
  exact ⟨parameters.1, parameters.2, tags.1, tags.2,
    isNumbered_list _ (by decide) _ (hs _ (by simp [inputSections])),
    isNumbered_list _ (by decide) _ (hs _ (by simp [inputSections]))⟩

/-- The form of a creation tells all of its inputs, in whatever order the entries come: no two of them
share a name, the inputs and the failure policy are read back, so that other inputs or another
policy never have the same entries, and the members of lists and maps are numbered from one. The
form of the update with the same inputs differs by its action and by having no policy. -/
theorem form_tells_inputs (i : StackInputs) (onFailure : Option String) :
    ((Request.create i onFailure).form.map (·.1)).Nodup ∧
      (∀ form : List Entry, form.Perm (Request.create i onFailure).form →
        creation? form = some (i, onFailure)) ∧
      (∀ (j : StackInputs) (policy : Option String),
        (Request.create j policy).form.Perm (Request.create i onFailure).form →
          j = i ∧ policy = onFailure) ∧
      NumbersMembers (Request.create i onFailure).form i ∧
      (Request.update i).form =
        ((Request.create i onFailure).form.filter (·.1 ≠ "OnFailure")).map
          (withAction "UpdateStack") := by
  have hn : ((Request.create i onFailure).form.map (·.1)).Nodup := by
    rw [form_create]
    exact Section.nodup_names (nodup_heads i onFailure)
  have hread : ∀ form : List Entry, form.Perm (Request.create i onFailure).form →
      creation? form = some (i, onFailure) :=
    fun form hform => (creation?_perm hform hn).trans (creation?_form i onFailure)
  refine ⟨hn, hread, fun j policy h => ?_, numbersMembers_create i onFailure,
    form_update i onFailure⟩
  have hsame := (creation?_form j policy).symm.trans (hread _ h)
  simpa using hsame

/-- Inputs with more than nine members, an empty member, empty lists and empty values. -/
def crowdedInputs : StackInputs where
  stack := "web"
  template := .url ""
  parameters := .empty
  tags := .ofList [("", "")]
  capabilities := List.replicate 11 "CAPABILITY_IAM"
  role := some ""
  notifications := [""]

/-- They are read back from their entries in reverse. -/
theorem form_tells_crowdedInputs :
    (Request.create crowdedInputs (some "")).form.reverse.Perm
        (Request.create crowdedInputs (some "")).form ∧
      creation? (Request.create crowdedInputs (some "")).form.reverse =
        some (crowdedInputs, some "") :=
  ⟨List.reverse_perm _, (form_tells_inputs crowdedInputs (some "")).2.1 _ (List.reverse_perm _)⟩

end Api
end StackKeeper
