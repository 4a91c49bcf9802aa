import StackKeeper.Proofs.FileFrame
/-!
# The shape of file trees

In a file system every entry lies in a directory and has a name there. The steps keep a tree in that
shape as long as their paths are written as paths are: components that are neither empty nor hold a
separator, with the root at most at the start. So a directory that a path leads to can be listed,
and what is listed are names.

Results:
* `follow_append`, `entryAt?_of_follow`: a path is followed in parts, and leads to a directory.
* `IsTree.apply`, `IsTree.applyAll`: steps keep the shape.
* `list_of_follow`, `mem_children`: a path that leads to a directory can be listed, and what is in it
  is found.
-/
namespace StackKeeper

namespace Path

/-- Whether every component is a name without a separator. -/
def IsRelative (p : Path) : Prop := ∀ c ∈ p, c ≠ "" ∧ '/' ∉ c.toList

/-- Whether a path is as a text can give it. -/
def IsWritten (p : Path) : Prop := IsRelative p ∨ ∃ q, p = root :: q ∧ IsRelative q

theorem isRelative_append {p q : Path} : IsRelative (p ++ q) ↔ IsRelative p ∧ IsRelative q :=
  List.forall_mem_append

theorem not_mem_splitAll {sep : Char} {s part : List Char} (h : part ∈ Text.splitAll sep s) :
    sep ∉ part := by
  induction s generalizing part with
  | nil =>
    rw [Text.splitAll, List.mem_singleton] at h
    simp [h]
  | cons c s ih =>
    rw [Text.splitAll] at h
    split at h
    · rcases List.mem_cons.mp h with rfl | h
      · exact List.not_mem_nil
      · exact ih h
    · rename_i hc
      cases hs : Text.splitAll sep s with
      | nil => exact absurd hs (Text.splitAll_ne_nil sep s)
      | cons first rest =>
        rw [hs] at h ih
        rcases List.mem_cons.mp h with rfl | h
        · rw [List.mem_cons, not_or]
          exact ⟨Ne.symm hc, ih List.mem_cons_self⟩
        · exact ih (List.mem_cons_of_mem _ h)

theorem isRelative_names (s : String) : IsRelative (names s) := by
  intro c hc
  obtain ⟨hpart, hne⟩ := List.mem_filter.mp hc
  obtain ⟨part, hmem, rfl⟩ := List.mem_map.mp hpart
  exact ⟨by simpa using hne, by simpa using not_mem_splitAll hmem⟩

theorem isWritten_ofText (s : String) : IsWritten (ofText s) := by
  rw [ofText]
  split
  · exact .inr ⟨_, rfl, isRelative_names s⟩
  · exact .inl (isRelative_names s)

theorem IsWritten.append {p q : Path} (h : IsWritten p) (hq : IsRelative q) :
    IsWritten (p ++ q) := by
  rcases h with h | ⟨p', rfl, h⟩
  · exact .inl (isRelative_append.mpr ⟨h, hq⟩)
  · exact .inr ⟨p' ++ q, rfl, isRelative_append.mpr ⟨h, hq⟩⟩

theorem IsWritten.join {p : Path} (h : IsWritten p) (s : String) : IsWritten (p.join s) := by
  rw [Path.join]
  split
  · exact isWritten_ofText s
  · exact h.append (isRelative_names s)

theorem IsWritten.parent {p : Path} (h : IsWritten p) : IsWritten p.parent := by
  have hinit : ∀ {q : Path}, IsRelative q → IsRelative q.dropLast :=
    fun hq c hc => hq c (List.dropLast_subset _ hc)
  rcases h with h | ⟨q, rfl, h⟩
  · exact .inl (hinit h)
  · cases q with
    | nil => exact .inl (by simp [Path.parent, IsRelative])
    | cons c q => exact .inr ⟨(c :: q).dropLast, rfl, hinit h⟩

theorem IsWritten.withFileName {p : Path} (h : IsWritten p) {name : String} (hne : name ≠ "")
    (hname : '/' ∉ name.toList) : IsWritten (p.withFileName name) :=
  h.parent.append (by simpa [IsRelative] using ⟨hne, hname⟩)

/-- The last component of a written path is a name, unless there is none or it is the root. -/
theorem IsWritten.fileName {p : Path} (h : IsWritten p) :
    p = [] ∨ p = [root] ∨ (p.fileName ≠ "" ∧ '/' ∉ p.fileName.toList) := by
  rcases List.eq_nil_or_concat p with rfl | ⟨q, c, rfl⟩
  · exact .inl rfl
  · have hc : Path.fileName (q ++ [c]) = c := by simp [Path.fileName]
    rw [List.concat_eq_append] at h ⊢
    rw [hc]
    rcases h with h | ⟨q', hq, h⟩
    · exact .inr (.inr (h c (by simp)))
    · cases q with
      | nil => exact .inr (.inl (by simpa using (List.cons.inj hq).1))
      | cons a q =>
        obtain ⟨-, rfl⟩ := List.cons.inj hq
        exact .inr (.inr (h c (by simp)))

end Path

namespace FileTree
open StackKeeper.Path

variable {t t' : FileTree} {p q dir start : Path} {e : FileEntry}

/-! ## Following in parts -/

theorem follow_append (h : t.follow start p = .ok dir) (q : Path) :
    t.follow start (p ++ q) = t.follow dir q := by
  fun_induction follow t start p with
  | case1 start =>
    cases h
    rfl
  | case2 start rest ih =>
    rw [List.cons_append, follow, if_pos rfl]
    exact ih h
  | case3 start rest hdot ih =>
    rw [List.cons_append, follow, if_neg hdot, if_pos rfl]
    exact ih h
  | case4 start c rest hdot hdots hn => cases h
  | case5 start c rest hdot hdots hn hd ih =>
    rw [List.cons_append, follow, if_neg hdot, if_neg hdots, if_neg hn, hd]
    exact ih h
  | case6 start c rest hdot hdots hn e hd => cases h
  | case7 start c rest hdot hdots hn hd => cases h

/-! ## The shape -/

/-- Every entry lies in a directory and has a name in it. -/
structure IsTree (t : FileTree) : Prop where
  lies : ∀ q e, t.entryAt? q = some e → t.entryAt? q.dropLast = some .directory
  named : ∀ e ∈ t.entries, e.1 ≠ [] → e.1 ≠ [root] →
    IsOrdinary e.1.fileName ∧ '/' ∉ e.1.fileName.toList

theorem IsTree.above (h : t.IsTree) (hd : t.entryAt? dir = some .directory) :
    t.entryAt? (above dir) = some .directory := by
  rw [Path.above]
  split
  · exact hd
  · exact h.lies _ _ hd

theorem entryAt?_of_follow (h : t.IsTree) (hs : t.entryAt? start = some .directory)
    (hf : t.follow start p = .ok dir) : t.entryAt? dir = some .directory := by
  fun_induction follow t start p with
  | case1 start =>
    cases hf
    exact hs
  | case2 start rest ih => exact ih hs hf
  | case3 start rest hdot ih => exact ih (h.above hs) hf
  | case4 start c rest hdot hdots hn => cases hf
  | case5 start c rest hdot hdots hn hd ih => exact ih hd hf
  | case6 start c rest hdot hdots hn e hd => cases hf
  | case7 start c rest hdot hdots hn hd => cases hf

/-- What is put in a directory under a name keeps the shape, unless a file takes the place of a
directory. -/
theorem IsTree.put (h : t.IsTree) {c : String} (hd : t.entryAt? dir = some .directory)
    (hc : IsOrdinary c) (hslash : '/' ∉ c.toList)
    (he : t.entryAt? (dir ++ [c]) = some .directory → e = .directory) :
    (t.put (dir ++ [c]) e).IsTree := by
  have hstart : dir ++ [c] ≠ [] ∧ dir ++ [c] ≠ [root] := by
    refine ⟨by simp, fun heq => ?_⟩
    have hroot := congrArg List.getLast? heq
    rw [List.getLast?_concat] at hroot
    cases hroot
    exact hslash (by decide)
  constructor
  · intro q e' hq
    rw [entryAt?_put hstart] at hq ⊢
    split at hq
    · rename_i heq
      subst heq
      rw [List.dropLast_concat, if_neg (by simp), hd]
    · have hdrop := h.lies q e' hq
      split
      · rename_i heq
        rw [he (by rw [← heq, hdrop])]
      · exact hdrop
  · intro e' he' hne hroot
    rcases List.mem_cons.mp he' with rfl | he'
    · simpa [Path.fileName] using ⟨hc, hslash⟩
    · exact h.named e' (List.mem_filter.mp he').1 hne hroot

theorem IsTree.erase (h : t.IsTree) (hq : t.entryAt? q ≠ some .directory) : (t.erase q).IsTree := by
  constructor
  · intro q' e hq'
    have hne : q' ≠ q := by
      rintro rfl
      rw [entryAt?_erase_self (ne_start_of_entryAt? hq)] at hq'
      cases hq'
    rw [entryAt?_erase hne] at hq'
    have hdrop := h.lies q' e hq'
    rwa [entryAt?_erase fun heq => hq (by rw [← heq, hdrop])]
  · exact fun e he => h.named e (List.mem_filter.mp he).1

/-! ## Steps -/

theorem IsTree.makeDirectories (h : t.IsTree) (hs : t.entryAt? start = some .directory)
    (hp : IsRelative p) : (t.makeDirectories start p).2.IsTree := by
  fun_induction FileTree.makeDirectories t start p with
  | case1 t start => exact h
  | case2 t start rest ih => exact ih h hs fun c hc => hp c (List.mem_cons_of_mem _ hc)
  | case3 t start rest hdot ih => exact ih h (h.above hs) fun c hc => hp c (List.mem_cons_of_mem _ hc)
  | case4 t start c rest hdot hdots hn => exact h
  | case5 t start c rest hdot hdots hn hd ih => exact ih h hd fun c hc => hp c (List.mem_cons_of_mem _ hc)
  | case6 t start c rest hdot hdots hn e hd => exact h
  | case7 t start c rest hdot hdots hn hnone ih =>
    obtain ⟨hne, hslash⟩ := hp c List.mem_cons_self
    refine ih (h.put hs ⟨hne, hdot, hdots⟩ hslash fun _ => rfl) ?_
      fun c hc => hp c (List.mem_cons_of_mem _ hc)
    rw [entryAt?_put (ne_start_of_entryAt? (t := t) (by simp [hnone])), if_pos rfl]

/-- Where a written path leads: to a directory, or to a name in one. -/
theorem locate_cases (h : t.IsTree) (hp : p.IsWritten) (hl : t.locate p = .ok q) :
    t.entryAt? q = some .directory ∨ ∃ dir c, q = dir ++ [c] ∧
      t.entryAt? dir = some .directory ∧ IsOrdinary c ∧ '/' ∉ c.toList := by
  rw [locate] at hl
  split at hl
  · cases hl
  · rename_i dir hf
    dsimp only at hl
    have hd := entryAt?_of_follow h rfl hf
    split at hl
    · cases hl
      exact .inl hd
    · rename_i hhere
      split at hl
      · cases hl
        exact .inl (h.above hd)
      · rename_i habove
        split at hl
        · cases hl
          rcases hp.fileName with rfl | rfl | ⟨hne, hslash⟩
          · exact absurd (.inl rfl) hhere
          · cases hf
            exact .inl rfl
          · exact .inr ⟨dir, _, rfl, hd, ⟨hne, fun hdot => hhere (.inr hdot), habove⟩, hslash⟩
        · cases hl

theorem IsTree.putLocated (h : t.IsTree) (hp : p.IsWritten) (hl : t.locate p = .ok q)
    (hq : t.entryAt? q ≠ some .directory) : (t.put q e).IsTree := by
  rcases locate_cases h hp hl with hd | ⟨dir, c, rfl, hd, hc, hslash⟩
  · exact absurd hd hq
  · exact h.put hd hc hslash fun hdir => absurd hdir hq

/-- A file that is moved keeps the shape. -/
theorem IsTree.moveLocated (h : t.IsTree) (hp : p.IsWritten) (hl : t.locate p = .ok q)
    (hs : t.entryAt? start ≠ some .directory) (hq : t.entryAt? q ≠ some .directory) :
    ((t.erase start).put q e).IsTree := by
  have herase := sameDirectories_erase hs
  rcases locate_cases h hp hl with hd | ⟨dir, c, rfl, hd, hc, hslash⟩
  · exact absurd hd hq
  · exact (h.erase hs).put ((herase _).mp hd) hc hslash fun hdir =>
      absurd ((herase _).mpr hdir) hq

/-- Whether the paths of a step are as texts can give them. -/
def Step.IsWritten : Step → Prop
  | .makeDirectory p | .truncate p | .write p _ | .sync p | .remove p => p.IsWritten
  | .rename source target => source.IsWritten ∧ target.IsWritten

theorem IsTree.putFile (h : t.IsTree) (hp : p.IsWritten) (text : String) :
    (t.putFile p text).2.IsTree := by
  rw [FileTree.putFile]
  split
  · exact h
  · rename_i q hl
    split
    · exact h
    · rename_i hq
      exact h.putLocated hp hl hq

theorem IsTree.apply (h : t.IsTree) {step : Step} (hw : step.IsWritten) :
    (t.apply step).2.IsTree := by
  cases step with
  | sync p => exact h
  | truncate p => exact h.putFile hw ""
  | write p text => exact h.putFile hw text
  | makeDirectory p =>
    rcases hw with hp | ⟨q, rfl, hq⟩
    · exact h.makeDirectories rfl hp
    · have hroot : t.makeDirectories [] (root :: q) = t.makeDirectories [root] q := by
        rw [FileTree.makeDirectories, if_neg (by decide), if_neg (by decide), if_neg (by decide)]
        rfl
      show (t.makeDirectories [] (root :: q)).2.IsTree
      rw [hroot]
      exact h.makeDirectories rfl hq
  | remove p =>
    show (t.removeFile p).2.IsTree
    rw [removeFile]
    split
    · exact h
    · exact h
    · split
      · exact h
      · exact h
      · rename_i hne _
        exact h.erase (by simp_all)
  | rename source target =>
    show (t.renameFile source target).2.IsTree
    rw [renameFile]
    split
    · rename_i s d hs hd
      split
      · exact h
      · exact h
      · exact h
      · rename_i hsource htarget
        exact h.moveLocated hw.2 hd (by simp_all) (by simp_all)
    · exact h
    · exact h

theorem IsTree.applyAll (h : t.IsTree) {steps : List Step} (hw : ∀ step ∈ steps, step.IsWritten) :
    (t.applyAll steps).2.IsTree := by
  induction steps generalizing t with
  | nil => exact h
  | cons step steps ih =>
    obtain ⟨hstep, hrest⟩ := List.forall_mem_cons.mp hw
    have hnext := h.apply hstep
    rw [FileTree.applyAll]
    split
    · rename_i heq
      rw [heq] at hnext
      exact ih hnext hrest
    · rename_i heq
      rw [heq] at hnext
      exact hnext

/-! ## Listing -/

/-- Where a path that leads to a directory is taken to lead. -/
theorem locate_of_follow_written (hp : p.IsWritten) (hf : t.follow [] p = .ok dir) :
    t.locate p = .ok dir := by
  rcases List.eq_nil_or_concat p with rfl | ⟨q, c, rfl⟩
  · cases hf
    rfl
  · rw [List.concat_eq_append] at hp hf ⊢
    have hq := follow_of_append hf
    rw [follow_append hq, follow] at hf
    rw [locate, Path.parent, Path.fileName, List.dropLast_concat, List.getLast?_concat, hq]
    dsimp only [Option.getD_some]
    have hne : c ≠ "" := by
      rcases hp.fileName with h | h | h
      · simp at h
      · have hc := congrArg List.getLast? h
        rw [List.getLast?_concat] at hc
        cases hc
        decide
      · simpa [Path.fileName] using h.1
    by_cases hdot : c = "."
    · rw [if_pos hdot] at hf
      rw [if_pos (.inr hdot)]
      exact hf
    · rw [if_neg hdot] at hf
      rw [if_neg (by simp [hne, hdot])]
      split at hf
      · rename_i hdots
        rw [if_pos hdots]
        exact hf
      · rename_i hdots
        rw [if_neg hdots]
        split at hf
        · cases hf
        · rename_i hn
          rw [if_pos (by simpa using hn)]
          split at hf
          · exact hf
          · cases hf
          · cases hf

theorem mem_entries_of_entryAt? (hq : q ≠ [] ∧ q ≠ [root]) (h : t.entryAt? q = some e) :
    (q, e) ∈ t.entries := by
  rw [entryAt?, if_neg (by simp [hq.1, hq.2])] at h
  obtain ⟨a, ha, rfl⟩ := Option.map_eq_some_iff.mp h
  have hkey := List.find?_some ha
  rw [beq_iff_eq] at hkey
  exact hkey ▸ List.mem_of_find?_eq_some ha

/-- The shape can be read off the entries. -/
theorem isTree_of_entries (hlies : ∀ e ∈ t.entries, t.entryAt? e.1.dropLast = some .directory)
    (hnamed : ∀ e ∈ t.entries, e.1 ≠ [] → e.1 ≠ [root] →
      IsOrdinary e.1.fileName ∧ '/' ∉ e.1.fileName.toList) : t.IsTree where
  lies := by
    intro q e h
    by_cases hq : q = [] ∨ q = [root]
    · rcases hq with rfl | rfl <;> rfl
    · rw [not_or] at hq
      exact hlies _ (mem_entries_of_entryAt? hq h)
  named := hnamed

theorem mem_children {c : String} (h : t.entryAt? (dir ++ [c]) = some e) (hc : '/' ∉ c.toList) :
    c ∈ t.children dir := by
  have hroot : dir ++ [c] ≠ [root] := by
    intro heq
    have hlast := congrArg List.getLast? heq
    rw [List.getLast?_concat] at hlast
    cases hlast
    exact hc (by decide)
  refine List.mem_filterMap.mpr ⟨_, mem_entries_of_entryAt? ⟨by simp, hroot⟩ h, ?_⟩
  simp [hroot]

theorem IsTree.isOrdinary_of_mem_children (h : t.IsTree) {c : String} (hc : c ∈ t.children dir) :
    IsOrdinary c ∧ '/' ∉ c.toList := by
  obtain ⟨e, he, hlast⟩ := List.mem_filterMap.mp hc
  split at hlast
  · rename_i hdir
    have hnamed := h.named e he hdir.1 hdir.2.1
    rwa [Path.fileName, hlast] at hnamed
  · cases hlast

/-- A path that leads to a directory can be listed. -/
theorem list_of_follow (h : t.IsTree) (hp : p.IsWritten) (hf : t.follow [] p = .ok dir) :
    t.list p = .ok (t.children dir) := by
  simp only [FileTree.list, locate_of_follow_written hp hf, entryAt?_of_follow h rfl hf]

theorem isDirectory_of_follow (h : t.IsTree) (hp : p.IsWritten) (hf : t.follow [] p = .ok dir) :
    t.isDirectory p = true := by
  simp only [isDirectory, FileTree.find, locate_of_follow_written hp hf,
    entryAt?_of_follow h rfl hf]

theorem list_of_isDirectory (h : t.isDirectory p = true) : ∃ q, t.list p = .ok (t.children q) := by
  rw [isDirectory] at h
  split at h
  · rename_i hfind
    rw [FileTree.find] at hfind
    split at hfind
    · cases hfind
    · rename_i q hq
      refine ⟨q, ?_⟩
      split at hfind
      · rename_i he
        cases hfind
        simp only [FileTree.list, hq, he]
      · cases hfind
  · cases h

end FileTree
end StackKeeper
