import Mathlib.Data.List.Nodup
import Mathlib.Data.Prod.Lex
import Mathlib.Data.String.Basic
import StackKeeper.Proofs.BrokenSteps
import StackKeeper.Proofs.Reachable
/-!
# What is listed

The listing goes through directories and knows nothing of locators. Still it shows a locator exactly
if there is something at the place of its document, each once and in order, so it is decided by these
places alone.

Results:
* `pairwise_mergeSort_before`: locators are put in order.
* `IsClear.isAnchored`, `IsClear.isAnchored_of_alters`: a base directory leads to where its names say.
* `list_of_isGrounded`: which locators are listed.
* `list_filter_eq`, `list_eq_of_isListed`: the listing is decided by which locators are listed.
-/
namespace StackKeeper

namespace Locator

theorem before_iff {a b : Locator} :
    a.before b = true ↔ toLex (a.ns, a.name) ≤ toLex (b.ns, b.name) := by
  simp [before, Prod.Lex.toLex_le_toLex]

theorem pairwise_mergeSort_before (ls : List Locator) :
    (ls.mergeSort before).Pairwise fun a b => a.before b = true := by
  refine List.pairwise_mergeSort (fun a b c hab hbc => ?_) (fun a b => ?_) ls
  · rw [before_iff] at hab hbc ⊢
    exact hab.trans hbc
  · rw [Bool.or_eq_true, before_iff, before_iff]
    exact le_total _ _

/-- A list of locators in order, each of them once, is known by what is in it. -/
theorem eq_of_mem_iff {ls ls' : List Locator} (hs : ls.Pairwise fun a b => a.before b = true)
    (hs' : ls'.Pairwise fun a b => a.before b = true) (hn : ls.Nodup) (hn' : ls'.Nodup)
    (h : ∀ l, l ∈ ls ↔ l ∈ ls') : ls = ls' := by
  refine List.Perm.eq_of_pairwise (fun a b _ _ hab hba => ?_) hs hs'
    ((List.perm_ext_iff_of_nodup hn hn').mpr h)
  rw [before_iff] at hab hba
  obtain ⟨hns, hname⟩ := Prod.mk.inj (toLex.injective (le_antisymm hab hba))
  cases a
  cases b
  exact congr (congrArg Locator.mk hns) hname

end Locator

namespace FileTree
open StackKeeper.Path

variable {t t' : FileTree} {p q x dir start : Path} {names : List String} {c : String}

/-! ## The names in a directory -/

theorem mem_children_iff (hc : '/' ∉ c.toList) :
    c ∈ t.children dir ↔ t.entryAt? (dir ++ [c]) ≠ none := by
  constructor
  · intro hmem
    obtain ⟨a, ha, hlast⟩ := List.mem_filterMap.mp hmem
    split at hlast
    · rename_i hkey
      obtain ⟨hne, hroot, hdir⟩ := hkey
      have hpath : a.1 = dir ++ [c] := by
        rw [← hdir]
        exact (List.dropLast_append_getLast? c hlast).symm
      rw [← hpath, entryAt?, if_neg (by simp [hne, hroot])]
      simp only [ne_eq, Option.map_eq_none_iff, List.find?_eq_none, not_forall]
      exact ⟨a, ha, by simp⟩
    · cases hlast
  · intro he
    obtain ⟨e, he⟩ := Option.ne_none_iff_exists'.mp he
    exact mem_children he hc

theorem nodup_children (h : t.HasOnePaths) (dir : Path) : (t.children dir).Nodup := by
  have hkeys : t.children dir = (t.entries.map (·.1)).filterMap fun p =>
      if p ≠ [] ∧ p ≠ [root] ∧ p.dropLast = dir then p.getLast? else none := by
    rw [children, List.filterMap_map]
    rfl
  rw [hkeys]
  refine List.Nodup.filterMap (fun p p' c hp hp' => ?_) h
  rw [Option.mem_def] at hp hp'
  split at hp
  · rename_i hdir
    split at hp'
    · rename_i hdir'
      rw [← List.dropLast_append_getLast? c hp, ← List.dropLast_append_getLast? c hp', hdir.2.2,
        hdir'.2.2]
    · cases hp'
  · cases hp

/-! ## Where the base directory is -/

/-- Whether a path leads to where its names say, or nothing is there. -/
def IsAnchored (t : FileTree) (p : Path) : Prop :=
  t.follow [] p = .ok (resolve [] p) ∨
    (t.follow [] p = .error .missing ∧ t.entryAt? (resolve [] p) = none)

/-- Whether a path, from where it leads nowhere, goes on by names that can be. -/
def IsClear (t : FileTree) (p : Path) : Prop :=
  ∀ q c rest, p = q ++ c :: rest → t.follow [] q = .error .missing → c ≠ ".." ∧ isName c = true

theorem IsClear.neverClimbs (h : t.IsClear p) : t.NeverClimbs p :=
  fun q c rest hp hq => (h q c rest hp hq).1

theorem NeverClimbs.append_single (h : t.NeverClimbs p) (hc : c ≠ "..") :
    t.NeverClimbs (p ++ single c) := by
  intro q c' rest hp hq
  unfold single at hp
  split at hp
  · exact h q c' rest (by rw [← hp, List.append_nil]) hq
  · rcases List.eq_nil_or_concat rest with rfl | ⟨rest, last, rfl⟩
    · rw [← (List.cons.inj (List.append_inj' hp rfl).2).1]
      exact hc
    · have hp' : p ++ [c] = (q ++ c' :: rest) ++ [last] := by simpa using hp
      exact h q c' rest (List.append_inj' hp' rfl).1 hq

/-- Names are followed to the end, or to where nothing is, or to where a file is in the way. -/
theorem follow_of_straight (h : t.IsTree) (hp : ∀ c ∈ p, c ≠ ".." ∧ isName c = true) :
    t.follow start p = .ok (resolve start p) ∨
      (t.follow start p = .error .missing ∧ t.entryAt? (resolve start p) = none) ∨
      (t.follow start p = .error (.refused .notDirectory) ∧ ∃ x, start <+: x ∧ x ≠ start ∧
        x <+: resolve start p ∧ t.entryAt? x ≠ none ∧ t.entryAt? x ≠ some .directory) := by
  induction p generalizing start with
  | nil => exact .inl rfl
  | cons c p ih =>
    obtain ⟨⟨hdots, hn⟩, hp⟩ := List.forall_mem_cons.mp hp
    have hway : start ++ [c] <+: resolve (start ++ [c]) p :=
      resolve_append_of_straight fun c hc => (hp c hc).1
    rw [follow, resolve]
    by_cases hdot : c = "."
    · rw [if_pos hdot, if_pos hdot]
      exact ih hp
    · rw [if_neg hdot, if_neg hdots, if_neg (by simp [hn]), if_neg hdot, if_neg hdots]
      cases he : t.entryAt? (start ++ [c]) with
      | none => exact .inr (.inl ⟨rfl, h.none_of_prefix he hway⟩)
      | some e =>
        by_cases hd : e = .directory
        · subst hd
          rcases @ih (start ++ [c]) hp with hok | hnone | ⟨hf, x, hx, hne, hrest⟩
          · exact .inl hok
          · exact .inr (.inl hnone)
          · refine .inr (.inr ⟨hf, x, (List.prefix_append _ _).trans hx, fun heq => ?_, hrest⟩)
            have hlength := hx.length_le
            rw [heq] at hlength
            simp at hlength
        · refine .inr (.inr ⟨?_, start ++ [c], List.prefix_append _ _, by simp, hway, by simp [he],
            by simpa [he] using hd⟩)
          cases e <;> first | rfl | exact absurd rfl hd

/-- The names that a clear path goes on by from where it leads nowhere. -/
theorem IsClear.exists_straight (h : t.IsClear p) (hf : t.follow [] p = .error .missing) :
    ∃ q c rest dir, p = q ++ c :: rest ∧ t.follow [] q = .ok dir ∧ t.entryAt? (dir ++ [c]) = none ∧
      c ≠ "." ∧ ∀ c' ∈ c :: rest, c' ≠ ".." ∧ isName c' = true := by
  obtain ⟨q, c, rest, dir, hp, hq, hdot, hdots, hn, hnone⟩ := exists_of_missing hf
  refine ⟨q, c, rest, dir, hp, hq, hnone, hdot, fun c' hc' => ?_⟩
  rcases List.mem_cons.mp hc' with rfl | hmem
  · exact ⟨hdots, hn⟩
  · obtain ⟨r₁, r₂, rfl⟩ := List.append_of_mem hmem
    refine h (q ++ [c] ++ r₁) c' r₂ (by simp [hp]) (follow_append_error ?_ r₁)
    rw [follow_append hq, follow, if_neg hdot, if_neg hdots, hn, hnone]
    rfl

/-- A clear path is anchored unless it is refused. -/
theorem IsClear.isAnchored (h : t.IsClear p) (ht : t.IsTree)
    (hf : ∀ why, t.follow [] p ≠ .error (.refused why)) : t.IsAnchored p := by
  cases hp : t.follow [] p with
  | ok dir => exact .inl (by rw [hp, ← eq_resolve_of_follow hp])
  | error f =>
    cases f with
    | refused why => exact absurd hp (hf why)
    | missing =>
      obtain ⟨q, c, rest, dir, rfl, hq, hnone, -, hstraight⟩ := h.exists_straight hp
      refine .inr ⟨hp, ?_⟩
      have hparts := follow_append hq (c :: rest)
      rw [hp] at hparts
      rw [resolve_append, ← eq_resolve_of_follow hq]
      rcases @follow_of_straight t (c :: rest) dir ht hstraight with hok | ⟨-, hnone⟩ | ⟨hrefused, -⟩
      · cases hparts.trans hok
      · exact hnone
      · cases hparts.trans hrefused

/-- A clear path stays clear when no directory goes. -/
theorem IsClear.of_keepsDirectories (h : t.IsClear p) (ha : t.IsAnchored p)
    (hk : KeepsDirectories t t') : t'.IsClear p := by
  intro q c rest hp hq
  refine h q c rest hp ?_
  cases hf : t.follow [] q with
  | ok dir => cases (follow_of_keepsDirectories hk hf).symm.trans hq
  | error f =>
    cases f with
    | missing => rfl
    | refused =>
      have hrefused := follow_append_error hf (c :: rest)
      rw [← hp] at hrefused
      rcases ha with hok | ⟨hmissing, -⟩
      · cases hok.symm.trans hrefused
      · cases hmissing.symm.trans hrefused

/-- A clear path stays anchored when directories are made on the way to it and files beyond it change. -/
theorem IsClear.isAnchored_of_alters (h : t.IsClear p) (ht : t.IsTree) (ht' : t'.IsTree)
    (ha : t.IsAnchored p) (halters : Alters dir names t t') (hdir : resolve [] p <+: dir) :
    t'.IsAnchored p := by
  rcases ha with hok | ⟨hmissing, -⟩
  · exact .inl (follow_of_keepsDirectories halters.keepsDirectories hok)
  · obtain ⟨q, c, rest, d, rfl, hq, hnone, hdot, hstraight⟩ := h.exists_straight hmissing
    have hq' := follow_of_keepsDirectories halters.keepsDirectories hq
    have hresolve : resolve [] (q ++ c :: rest) = resolve d (c :: rest) := by
      rw [resolve_append, ← eq_resolve_of_follow hq]
    rw [IsAnchored, follow_append hq', hresolve]
    rcases @follow_of_straight t' (c :: rest) d ht' hstraight with
      hok | hnone' | ⟨-, x, hx, hne, hway, hthere, hfile⟩
    · exact .inl hok
    · exact .inr hnone'
    · exfalso
      -- Whatever is in the way lies at or below the first name that is missing.
      have hfirst : d ++ [c] <+: resolve d (c :: rest) := by
        rw [resolve, if_neg hdot, if_neg (hstraight c List.mem_cons_self).1]
        exact resolve_append_of_straight fun c' hc' =>
          (hstraight c' (List.mem_cons_of_mem _ hc')).1
      have hlength : (d ++ [c]).length ≤ x.length := by
        rcases Nat.lt_or_ge d.length x.length with hlt | hge
        · simpa using Nat.succ_le_of_lt hlt
        · exact absurd (hx.eq_of_length_le hge).symm hne
      have hbelow := List.prefix_of_prefix_length_le hfirst hway hlength
      have hx' := ht.none_of_prefix hnone hbelow
      rcases halters x with he | ⟨-, hd, -⟩ | ⟨⟨name, -, hname⟩, -⟩
      · exact hthere (he.trans hx')
      · exact hfile hd
      · have hlength := (hway.trans (hresolve ▸ hdir)).length_le
        rw [hname] at hlength
        simp at hlength

theorem list_of_missing (hp : p.IsWritten) (hf : t.follow [] p = .error .missing) :
    t.list p = .error .missing := by
  rcases List.eq_nil_or_concat p with rfl | ⟨q, c, rfl⟩
  · cases hf
  · rw [List.concat_eq_append] at hp hf ⊢
    have hparent : Path.parent (q ++ [c]) = q := List.dropLast_concat
    have hlast : Path.fileName (q ++ [c]) = c := by
      rw [fileName, List.getLast?_concat, Option.getD_some]
    cases hq : t.follow [] q with
    | error f =>
      rw [follow_append_error hq] at hf
      cases hf
      simp only [FileTree.list, locate, hparent, hq]
    | ok d =>
      rw [follow_append hq] at hf
      obtain ⟨q', c', rest, d', hparts, hd', hdot, hdots, hn, hnone⟩ := exists_of_missing hf
      cases q' with
      | cons a q' => simp at hparts
      | nil =>
        obtain ⟨rfl, -⟩ := List.cons.inj hparts
        cases hd'
        have hne : c ≠ "" := by
          rcases hp.fileName with h | h | h
          · simp at h
          · intro hempty
            have hc := congrArg List.getLast? h
            rw [List.getLast?_concat, hempty] at hc
            simp [root] at hc
          · simpa [hlast] using h.1
        have hlocate := locate_of_follow (p := q ++ [c]) (by rw [hparent, hq])
          (by rw [hlast]; exact ⟨hne, hdot, hdots⟩)
        rw [hlast, if_pos hn] at hlocate
        simp only [FileTree.list, hlocate, hnone]

end FileTree

namespace Store
open FileTree StackKeeper.Path

variable {s s' : Store} {l : Locator} {dir : Path} {ns name : String}

/-! ## The locators in a directory -/

theorem isOrdinary_documentName (l : Locator) : IsOrdinary (documentName l) :=
  isOrdinary_append (c := 'n') (by decide) (by decide)

theorem slash_documentName (h : '/' ∉ l.name.toList) : '/' ∉ (documentName l).toList := by
  rw [documentName, String.append_assoc, String.toList_append, List.mem_append, not_or]
  exact ⟨h, by decide⟩

/-- A name with an extension is the two of them with a point between. -/
theorem eq_of_splitExtension {stem ext : String} (h : splitExtension name = (stem, some ext)) :
    stem ≠ "" ∧ name = stem ++ "." ++ ext := by
  rw [splitExtension] at h
  split at h
  · rename_i front back hsplit
    split at h
    · cases h
    · rename_i hfront
      cases h
      refine ⟨fun he => hfront (.inl (by simpa using congrArg String.toList he)), ?_⟩
      apply String.toList_inj.mp
      rw [(Text.splitLast_eq_some_iff.mp hsplit).1]
      simp [String.toList_append]
  · cases h

theorem locatorOfPath?_names (hns : IsOrdinary ns) (hslash : '/' ∉ ns.toList) (hname : name ≠ ".") :
    locatorOfPath? [ns, name] = some l ↔
      ∃ stem, splitExtension name = (stem, some extension) ∧ l = ⟨ns, stem⟩ := by
  have hroot : ns ≠ root := by
    rintro rfl
    exact hslash (by decide)
  have hkept : ([ns, name] : Path).filter (· ≠ here) = [ns, name] := by
    simp [here, hns.2.1, hname]
  rw [locatorOfPath?, hkept, show fileName [ns, name] = name from rfl]
  rcases splitExtension name with ⟨stem, _ | ext⟩
  · simp
  · simp [Path.parent, hroot, hns.2.2, eq_comm]

/-- The locator that a document is listed under. -/
theorem locatorOfPath?_pair (hns : IsOrdinary ns) (hslash : '/' ∉ ns.toList) :
    locatorOfPath? [ns, name] = some l ↔ l.ns = ns ∧ l.name ≠ "" ∧ name = documentName l := by
  by_cases hname : name = "."
  · subst hname
    have hkept : ([ns, "."] : Path).filter (· ≠ here) = [ns] := by simp [here, hns.2.1]
    constructor
    · intro h
      rw [locatorOfPath?, hkept] at h
      split at h <;> simp [Path.parent] at h
    · exact fun h => absurd h.2.2.symm (isOrdinary_documentName l).2.1
  rw [locatorOfPath?_names hns hslash hname]
  constructor
  · rintro ⟨stem, hsplit, rfl⟩
    exact ⟨rfl, eq_of_splitExtension hsplit⟩
  · rintro ⟨rfl, hne, rfl⟩
    exact ⟨l.name, splitExtension_documentName hne, rfl⟩

/-- The locators of the documents in a directory with the name of a namespace. -/
def listedIn (t : FileTree) (dir : Path) (ns : String) : List Locator :=
  if isName ns = true ∧ t.entryAt? (dir ++ [ns]) = some .directory then
    (t.children (dir ++ [ns])).filterMap fun name => locatorOfPath? [ns, name]
  else []

theorem locatorsIn_of_follow (hf : s.files.follow [] s.base = .ok dir) (hns : IsOrdinary ns) :
    s.locatorsIn ns = .ok (listedIn s.files dir ns) := by
  have hparent : Path.parent (s.base ++ [ns]) = s.base := List.dropLast_concat
  have hlast : Path.fileName (s.base ++ [ns]) = ns := by
    rw [fileName, List.getLast?_concat, Option.getD_some]
  have hlocate := locate_of_follow (p := s.base ++ [ns]) (by rw [hparent, hf]) (by rwa [hlast])
  rw [hlast] at hlocate
  rw [listedIn]
  cases hn : isName ns with
  | false =>
    rw [hn] at hlocate
    simp [locatorsIn, isDirectory, FileTree.find, hlocate]
  | true =>
    rw [hn, if_pos rfl] at hlocate
    cases he : s.files.entryAt? (dir ++ [ns]) with
    | none => simp [locatorsIn, isDirectory, FileTree.find, hlocate, he]
    | some e =>
      cases e <;> simp [locatorsIn, isDirectory, FileTree.find, FileTree.list, hlocate, he]

/-! ## The listing -/

/-- Whether a locator is listed: there is something at the place of its document. -/
def IsListed (s : Store) (l : Locator) : Prop :=
  l.IsPlain ∧ l.ns ≠ "" ∧ l.name ≠ "" ∧ isName l.ns = true ∧
    s.files.entryAt? (place s.base l) ≠ none

/-- What is listed for one directory in the base directory. -/
theorem mem_listedIn (ht : s.files.IsTree) (hns : IsOrdinary ns) (hslash : '/' ∉ ns.toList) :
    l ∈ listedIn s.files (resolve [] s.base) ns ↔ l.ns = ns ∧ s.IsListed l := by
  have hplace : l.ns = ns → place s.base l = resolve [] s.base ++ [ns] ++ [documentName l] := by
    rintro rfl
    rw [place, namespaceDirectory, single, if_neg hns.1]
  rw [listedIn]
  constructor
  · intro hmem
    split at hmem
    · rename_i hdirectory
      obtain ⟨name, hname, hlocator⟩ := List.mem_filterMap.mp hmem
      have hslash' := (ht.isOrdinary_of_mem_children hname).2
      obtain ⟨rfl, hne, rfl⟩ := (locatorOfPath?_pair hns hslash).mp hlocator
      refine ⟨rfl, ⟨hslash, fun hs => hslash' ?_, hns.2.1, hns.2.2⟩, hns.1, hne, hdirectory.1, ?_⟩
      · rw [documentName, String.append_assoc, String.toList_append]
        exact List.mem_append_left _ hs
      · rw [hplace rfl]
        exact (mem_children_iff hslash').mp hname
    · cases hmem
  · rintro ⟨rfl, hl, -, hne, hname, hthere⟩
    rw [hplace rfl] at hthere
    obtain ⟨e, he⟩ := Option.ne_none_iff_exists'.mp hthere
    have hdirectory := ht.lies _ _ he
    rw [List.dropLast_concat] at hdirectory
    rw [if_pos ⟨hname, hdirectory⟩]
    exact List.mem_filterMap.mpr ⟨documentName l, mem_children he (slash_documentName hl.2.1),
      (locatorOfPath?_pair hns hslash).mpr ⟨rfl, hne, rfl⟩⟩

theorem nodup_listedIn (hp : s.files.HasOnePaths) (hns : IsOrdinary ns) (hslash : '/' ∉ ns.toList) :
    (listedIn s.files dir ns).Nodup := by
  rw [listedIn]
  split
  · refine List.Nodup.filterMap (fun name name' l hl hl' => ?_) (nodup_children hp _)
    rw [Option.mem_def, locatorOfPath?_pair hns hslash] at hl hl'
    rw [hl.2.2, hl'.2.2]
  · exact List.nodup_nil

theorem mapM_eq_map {α β ε : Type} {f : α → Except ε β} {g : α → β} {items : List α}
    (h : ∀ a ∈ items, f a = .ok (g a)) : items.mapM f = .ok (items.map g) := by
  induction items with
  | nil => rfl
  | cons a items ih =>
    obtain ⟨ha, hitems⟩ := List.forall_mem_cons.mp h
    rw [List.mapM_cons, ha, ih hitems]
    rfl

/-- Whether the files of a store are as a file system has them, and its base directory is where its
path says. -/
structure IsGrounded (s : Store) : Prop where
  tree : s.files.IsTree
  paths : s.files.HasOnePaths
  written : s.base.IsWritten
  anchored : s.files.IsAnchored s.base

/-- The listing shows what is at the places of documents, in order and once. -/
theorem list_of_isGrounded (h : s.IsGrounded) : ∃ ls, s.list = .ok ls ∧
    (ls.Pairwise fun a b => a.before b = true) ∧ ls.Nodup ∧ ∀ l, l ∈ ls ↔ s.IsListed l := by
  obtain ⟨ht, hp, hbase, ha⟩ := h
  rcases ha with hf | ⟨hf, hnone⟩
  · have hchild : ∀ ns ∈ s.files.children (resolve [] s.base), IsOrdinary ns ∧ '/' ∉ ns.toList :=
      fun ns hns => ht.isOrdinary_of_mem_children hns
    have hgroups : (s.files.children (resolve [] s.base)).mapM s.locatorsIn =
        .ok ((s.files.children (resolve [] s.base)).map (listedIn s.files (resolve [] s.base))) :=
      mapM_eq_map fun ns hns => locatorsIn_of_follow hf (hchild ns hns).1
    have hlist : s.list = .ok (((s.files.children (resolve [] s.base)).flatMap
        (listedIn s.files (resolve [] s.base))).mergeSort Locator.before) := by
      simp only [list, list_of_follow ht hbase hf, hgroups, List.flatMap_def]
    refine ⟨_, hlist, Locator.pairwise_mergeSort_before _, ?_, fun l => ?_⟩
    · refine (List.mergeSort_perm _ _).nodup_iff.mpr (List.nodup_flatMap.mpr ⟨fun ns hns => ?_, ?_⟩)
      · exact nodup_listedIn hp (hchild ns hns).1 (hchild ns hns).2
      · refine (nodup_children hp _).imp_of_mem fun {ns ns'} hns hns' hne l hl hl' => hne ?_
        rw [← ((mem_listedIn ht (hchild ns hns).1 (hchild ns hns).2).mp hl).1,
          ((mem_listedIn ht (hchild ns' hns').1 (hchild ns' hns').2).mp hl').1]
    · rw [List.mem_mergeSort, List.mem_flatMap]
      constructor
      · rintro ⟨ns, hns, hl⟩
        exact ((mem_listedIn ht (hchild ns hns).1 (hchild ns hns).2).mp hl).2
      · intro hl
        have hns : l.ns ∈ s.files.children (resolve [] s.base) := by
          obtain ⟨hplain, hne, -, -, hthere⟩ := hl
          refine (mem_children_iff hplain.1).mpr fun hnone => hthere ?_
          rw [place, namespaceDirectory, single, if_neg hne]
          exact ht.none_of_prefix hnone (List.prefix_append _ _)
        exact ⟨l.ns, hns, (mem_listedIn ht (hchild _ hns).1 (hchild _ hns).2).mpr ⟨rfl, hl⟩⟩
  · refine ⟨[], by simp only [list, list_of_missing hbase hf], .nil, .nil, fun l => ?_⟩
    have hgone : s.files.entryAt? (place s.base l) = none := by
      refine ht.none_of_prefix hnone ?_
      rw [place, namespaceDirectory, List.append_assoc]
      exact List.prefix_append _ _
    simp [IsListed, hgone]

/-- Of the locators that are listed all the same, the listing shows the same. -/
theorem list_filter_eq (h : s.IsGrounded) (h' : s'.IsGrounded) {P : Locator → Bool}
    (hlisted : ∀ l, P l = true → (s'.IsListed l ↔ s.IsListed l)) :
    ∃ ls ls', s.list = .ok ls ∧ s'.list = .ok ls' ∧ ls'.filter P = ls.filter P := by
  obtain ⟨ls, hls, hs, hn, hmem⟩ := list_of_isGrounded h
  obtain ⟨ls', hls', hs', hn', hmem'⟩ := list_of_isGrounded h'
  refine ⟨ls, ls', hls, hls', Locator.eq_of_mem_iff (hs'.filter P) (hs.filter P) (hn'.filter P)
    (hn.filter P) fun l => ?_⟩
  rw [List.mem_filter, List.mem_filter, hmem, hmem']
  exact and_congr_left (hlisted l)

/-- The listing is decided by which locators are listed. -/
theorem list_eq_of_isListed (h : s.IsGrounded) (h' : s'.IsGrounded)
    (hlisted : ∀ l, s'.IsListed l ↔ s.IsListed l) : s'.list = s.list := by
  obtain ⟨ls, ls', hls, hls', heq⟩ := @list_filter_eq s s' h h' (fun _ => true) fun l _ => hlisted l
  rw [List.filter_true, List.filter_true] at heq
  rw [hls, hls', heq]

end Store
end StackKeeper
