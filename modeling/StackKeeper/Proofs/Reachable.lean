import StackKeeper.Cli.Commands
import StackKeeper.Proofs.StoreFrame
import StackKeeper.Proofs.StoredDocument
import StackKeeper.Proofs.TreeShape
/-!
# Which resources are found again

A resource is found in three ways: by the path of its document, in the listing of the base directory,
and by the path that a change of its document is noticed under. The path takes the namespace and the
name as they are, so a separator in one of them leads into other directories, while the listing and
the noticed path take one directory for the namespace and one file name for the name. The three agree
exactly for plain locators; a manifest may declare any.

Results:
* `locatorOfPath?_documentPath_iff`: a document is noticed under its own locator iff that is plain.
* `mem_list_iff`: a document that can be read is listed iff its locator is plain.
* `stored?_of_write_other`, `stored?_of_remove_other`: plain locators leave each other alone.
* `found_again`: what becomes of a resource that was created from a manifest.
-/
namespace StackKeeper

namespace Text

theorem splitLast_eq_some_iff {sep : Char} {s a b : List Char} :
    splitLast sep s = some (a, b) ↔ s = a ++ sep :: b ∧ sep ∉ b := by
  rw [splitLast, Option.map_eq_some_iff]
  constructor
  · rintro ⟨⟨x, y⟩, hs, hxy⟩
    obtain ⟨rfl, rfl⟩ := Prod.mk.inj hxy
    obtain ⟨h, hsep⟩ := splitFirst_eq_some_iff.mp hs
    have h' := congrArg List.reverse h
    exact ⟨by simpa using h', by simpa using hsep⟩
  · rintro ⟨rfl, hsep⟩
    refine ⟨(b.reverse, a.reverse), splitFirst_eq_some_iff.mpr ⟨by simp, by simpa using hsep⟩, ?_⟩
    simp

end Text

namespace Path

theorem not_mem_splitExtension {name : String} (h : '/' ∉ name.toList) :
    '/' ∉ (splitExtension name).1.toList := by
  rw [splitExtension]
  split
  · rename_i stem ext hs
    split
    · exact h
    · have hname := (Text.splitLast_eq_some_iff.mp hs).1
      rw [hname, List.mem_append, not_or] at h
      simpa using h.1
  · exact h

end Path

namespace Store
open FileTree StackKeeper.Path

variable {s s' : Store} {l l' : Locator} {r r' stored : Resource} {base dir p : Path}

/-! ## Noticed paths -/

theorem splitExtension_documentName (h : l.name ≠ "") :
    splitExtension (documentName l) = (l.name, some extension) := by
  have hsplit : Text.splitLast '.' (documentName l).toList =
      some (l.name.toList, extension.toList) := by
    rw [Text.splitLast_eq_some_iff]
    exact ⟨by simp [documentName, String.toList_append], by decide⟩
  have hdots : documentName l ≠ ".." := by
    intro he
    have hlast := congrArg (fun c : String => c.toList.getLast?) he
    rw [documentName, String.append_assoc] at hlast
    simp [String.toList_append, extension, List.getLast?_append] at hlast
  rw [splitExtension, hsplit]
  simp [h, hdots]

/-- The document of a plain locator is noticed under it. -/
theorem locatorOfPath?_documentPath (hl : l.IsPlain) (hns : l.ns ≠ "") (hname : l.name ≠ "") :
    locatorOfPath? (documentPath base l) = some l := by
  have hdocument : documentName l ≠ here := by
    have ho := isOrdinary_fileName_documentPath base l
    rw [fileName_documentPath hl] at ho
    exact ho.2.1
  have hroot : l.ns ≠ root := by
    intro he
    exact hl.1 (by rw [he]; decide)
  rw [documentPath_of_isPlain hl, single, if_neg hns, locatorOfPath?]
  have hkept : (base ++ [l.ns] ++ [documentName l]).filter (· ≠ here) =
      base.filter (· ≠ here) ++ [l.ns] ++ [documentName l] := by
    rw [List.filter_append, List.filter_append]
    simp [hdocument, show l.ns ≠ here from hl.2.2.1]
  rw [hkept]
  have hfile : Path.fileName (base.filter (· ≠ here) ++ [l.ns] ++ [documentName l]) =
      documentName l := by rw [fileName, List.getLast?_concat, Option.getD_some]
  have hparent : (Path.parent (base.filter (· ≠ here) ++ [l.ns] ++ [documentName l])).getLast? =
      some l.ns := by rw [Path.parent, List.dropLast_concat, List.getLast?_concat]
  simp only [hfile, splitExtension_documentName hname, hparent]
  rw [if_pos ⟨trivial, hroot, hl.2.2.2⟩]

/-- Whatever path is noticed, it is noticed under a plain locator. -/
theorem isPlain_of_locatorOfPath? (hp : p.IsWritten) (h : locatorOfPath? p = some l) :
    l.IsPlain := by
  rw [locatorOfPath?] at h
  have hkept : IsWritten (p.filter (· ≠ here)) := by
    rcases hp with hp | ⟨q, rfl, hq⟩
    · exact .inl fun c hc => hp c ((List.mem_filter.mp hc).1)
    · refine .inr ⟨q.filter (· ≠ here), ?_, fun c hc => hq c ((List.mem_filter.mp hc).1)⟩
      rw [List.filter_cons_of_pos (by decide)]
  have hhere : ∀ c ∈ p.filter (· ≠ here), c ≠ "." :=
    fun c hc => of_decide_eq_true (List.mem_filter.mp hc).2
  generalize p.filter (· ≠ here) = p at h hkept hhere
  split at h
  · rename_i stem ext hfile
    split at h
    · rename_i ns hns
      split at h
      · rename_i hguard
        cases h
        obtain ⟨q, c, rfl⟩ : ∃ q c, p = q ++ [c] := by
          rcases List.eq_nil_or_concat p with rfl | ⟨q, c, rfl⟩
          · cases hns
          · exact ⟨q, c, List.concat_eq_append⟩
        rw [Path.parent, List.dropLast_concat] at hns
        have hmem : ns ∈ q := List.mem_of_getLast? hns
        have hslash : ∀ c' ∈ q ++ [c], c' ≠ root → '/' ∉ c'.toList := by
          intro c' hc' hroot
          rcases hkept with hkept | ⟨q', hq', hkept⟩
          · exact (hkept c' hc').2
          · rw [hq'] at hc'
            exact (hkept c' ((List.mem_cons.mp hc').resolve_left hroot)).2
        have hc : '/' ∉ c.toList := by
          rcases hkept.fileName with hnil | hroot | hname
          · simp at hnil
          · rw [← List.nil_append [root]] at hroot
            rw [(List.append_inj' hroot rfl).1] at hmem
            cases hmem
          · simpa [fileName] using hname.2
        refine ⟨hslash ns (List.mem_append_left _ hmem) hguard.2.1, ?_,
          hhere ns (List.mem_append_left _ hmem), hguard.2.2⟩
        rw [show stem = (splitExtension (fileName (q ++ [c]))).1 by rw [hfile]]
        exact not_mem_splitExtension (by simpa [fileName] using hc)
      · cases h
    · cases h
  · cases h

theorem isWritten_documentPath (hbase : base.IsWritten) (l : Locator) :
    (documentPath base l).IsWritten := (hbase.join _).join _

theorem locatorOfPath?_documentPath_iff (hbase : base.IsWritten) (hns : l.ns ≠ "")
    (hname : l.name ≠ "") : locatorOfPath? (documentPath base l) = some l ↔ l.IsPlain :=
  ⟨isPlain_of_locatorOfPath? (isWritten_documentPath hbase l),
    fun hl => locatorOfPath?_documentPath hl hns hname⟩

/-! ## The shape of the tree -/

theorem fileName_documentPath_slash (hbase : base.IsWritten) (l : Locator) :
    '/' ∉ (documentPath base l).fileName.toList := by
  have ho := isOrdinary_fileName_documentPath base l
  rcases (isWritten_documentPath hbase l).fileName with hnil | hroot | hname
  · rw [hnil] at ho
    exact absurd rfl ho.1
  · obtain ⟨stem, hs⟩ := fileName_join (Path.join base l.ns) l.name
      (show "." ++ extension ≠ "" by decide) (by decide)
    rw [← String.append_assoc, ← documentPath, hroot] at hs
    have hlast := congrArg (fun c : String => c.toList.getLast?) hs
    simp [fileName, root, String.toList_append, extension, List.getLast?_append] at hlast
  · exact hname.2

theorem isWritten_writeSteps (hbase : base.IsWritten) (r : Resource) :
    ∀ step ∈ writeSteps base r, step.IsWritten := by
  have hdocument := isWritten_documentPath hbase r.locator
  have hslash : '/' ∉ (temporaryName (documentPath base r.locator)).toList := by
    rw [temporaryName, String.append_assoc, String.toList_append, List.mem_append, not_or]
    exact ⟨not_mem_splitExtension (fileName_documentPath_slash hbase r.locator), by decide⟩
  have htemporary := hdocument.withFileName (isOrdinary_temporaryName _).1 hslash
  intro step hstep
  rw [writeSteps_eq_replaceSteps, replaceSteps] at hstep
  simp only [List.mem_cons, List.not_mem_nil, or_false] at hstep
  rcases hstep with rfl | rfl | rfl | rfl | rfl
  · exact hdocument.parent
  · exact htemporary
  · exact htemporary
  · exact htemporary
  · exact ⟨htemporary, hdocument⟩

theorem isTree_write (h : s.files.IsTree) (hbase : s.base.IsWritten) (r : Resource) :
    (s.perform (writeSteps s.base r)).2.files.IsTree := by
  rw [perform_snd]
  exact h.applyAll (isWritten_writeSteps hbase r)

theorem isTree_remove (h : s.files.IsTree) (hbase : s.base.IsWritten) (l : Locator) :
    (s.perform (removeSteps s.base l)).2.files.IsTree := by
  rw [perform_snd]
  refine h.applyAll fun step hstep => ?_
  rw [removeSteps, List.mem_singleton] at hstep
  subst hstep
  exact isWritten_documentPath hbase l

/-! ## Listing -/

theorem mapM_ok {α β ε : Type} {f : α → Except ε β} {items : List α}
    (h : ∀ a ∈ items, ∃ b, f a = .ok b) :
    ∃ bs, items.mapM f = .ok bs ∧ ∀ b, b ∈ bs ↔ ∃ a ∈ items, f a = .ok b := by
  induction items with
  | nil => exact ⟨[], rfl, by simp⟩
  | cons a items ih =>
    obtain ⟨b, hb⟩ := h a List.mem_cons_self
    obtain ⟨bs, hbs, hmem⟩ := ih fun a ha => h a (List.mem_cons_of_mem _ ha)
    refine ⟨b :: bs, by rw [List.mapM_cons, hb, hbs]; rfl, fun b' => ?_⟩
    simp [hmem, hb, eq_comm]

theorem exists_locatorsIn (s : Store) (ns : String) : ∃ group, s.locatorsIn ns = .ok group := by
  rw [locatorsIn]
  split
  · rename_i hd
    obtain ⟨q, hq⟩ := list_of_isDirectory hd
    exact ⟨_, by rw [hq]⟩
  · exact ⟨[], rfl⟩

/-- Once the base directory can be listed, so can everything in it. -/
theorem list_of_names {names : List String} (h : s.files.list s.base = .ok names) :
    ∃ ls, s.list = .ok ls ∧
      ∀ l, l ∈ ls ↔ ∃ ns ∈ names, ∃ group, s.locatorsIn ns = .ok group ∧ l ∈ group := by
  obtain ⟨groups, hgroups, hmem⟩ := mapM_ok fun ns (_ : ns ∈ names) => exists_locatorsIn s ns
  refine ⟨groups.flatten.mergeSort Locator.before, by simp only [list, h, hgroups], fun l => ?_⟩
  rw [List.mem_mergeSort, List.mem_flatten]
  constructor
  · rintro ⟨group, hgroup, hl⟩
    obtain ⟨ns, hns, hin⟩ := (hmem group).mp hgroup
    exact ⟨ns, hns, group, hin, hl⟩
  · rintro ⟨ns, hns, group, hin, hl⟩
    exact ⟨group, (hmem group).mpr ⟨ns, hns, hin⟩, hl⟩

theorem isOrdinary_of_list {names : List String} (ht : s.files.IsTree)
    (h : s.files.list p = .ok names) : ∀ c ∈ names, IsOrdinary c ∧ '/' ∉ c.toList := by
  rw [FileTree.list] at h
  split at h
  · cases h
  · split at h
    · cases h
      exact fun c hc => ht.isOrdinary_of_mem_children hc
    · cases h
    · cases h

theorem isPlain_of_mem_locatorsIn {ns : String} {group : List Locator} (ht : s.files.IsTree)
    (hns : IsOrdinary ns ∧ '/' ∉ ns.toList) (h : s.locatorsIn ns = .ok group) (hl : l ∈ group) :
    l.IsPlain := by
  rw [locatorsIn] at h
  split at h
  · split at h
    · cases h
    · rename_i names hnames
      cases h
      obtain ⟨name, hname, hlocator⟩ := List.mem_filterMap.mp hl
      have hname' := isOrdinary_of_list ht hnames name hname
      refine isPlain_of_locatorOfPath? (.inl ?_) hlocator
      rintro c hc
      simp only [List.mem_cons, List.not_mem_nil, or_false] at hc
      rcases hc with rfl | rfl
      · exact ⟨hns.1.1, hns.2⟩
      · exact ⟨hname'.1.1, hname'.2⟩
  · cases h
    cases hl

/-- What is listed is plain. -/
theorem isPlain_of_mem_list {ls : List Locator} (ht : s.files.IsTree) (h : s.list = .ok ls)
    (hl : l ∈ ls) : l.IsPlain := by
  cases hnames : s.files.list s.base with
  | error f =>
    cases f with
    | missing =>
      simp only [list, hnames, Except.ok.injEq] at h
      subst h
      cases hl
    | refused => simp [list, hnames] at h
  | ok names =>
    obtain ⟨ls', hls', hmem⟩ := list_of_names hnames
    cases hls'.symm.trans h
    obtain ⟨ns, hns, group, hgroup, hin⟩ := (hmem l).mp hl
    exact isPlain_of_mem_locatorsIn ht (isOrdinary_of_list ht hnames ns hns) hgroup hin

/-- What is at the place of the document of a plain locator is listed. -/
theorem mem_list_of_isPlain {e : FileEntry} (ht : s.files.IsTree) (hbase : s.base.IsWritten)
    (hl : l.IsPlain) (hns : l.ns ≠ "") (hname : l.name ≠ "") (hroom : s.HasRoom l)
    (he : s.files.entryAt? (place s.base l) = some e) : ∃ ls, s.list = .ok ls ∧ l ∈ ls := by
  have hfollow := hroom.1
  have hslash : '/' ∉ (documentName l).toList := by
    rw [← fileName_documentPath hl]
    exact fileName_documentPath_slash hbase l
  have hdirectory : namespaceDirectory s.base l = resolve [] s.base ++ [l.ns] := by
    rw [namespaceDirectory, single, if_neg hns]
  rw [place] at he
  rw [single, if_neg hns, hdirectory] at hfollow
  rw [hdirectory] at he
  have hwritten : IsWritten (s.base ++ [l.ns]) :=
    hbase.append (by simpa [IsRelative] using ⟨hns, hl.1⟩)
  obtain ⟨ls, hls, hmem⟩ := list_of_names (list_of_follow ht hbase (follow_of_append hfollow))
  refine ⟨ls, hls, (hmem l).mpr
    ⟨l.ns, mem_children (entryAt?_of_follow ht rfl hfollow) hl.1,
      (s.files.children (resolve [] s.base ++ [l.ns])).filterMap
        fun name => locatorOfPath? [l.ns, name], ?_, ?_⟩⟩
  · simp only [locatorsIn, isDirectory_of_follow ht hwritten hfollow, if_true,
      list_of_follow ht hwritten hfollow]
  · refine List.mem_filterMap.mpr ⟨documentName l, mem_children he hslash, ?_⟩
    have hnoticed : locatorOfPath? (documentPath [] l) = some l :=
      locatorOfPath?_documentPath hl hns hname
    rwa [documentPath_of_isPlain hl, single, if_neg hns] at hnoticed

/-! ## Other documents -/

theorem follow_namespace (hf : s.files.follow [] s.base = .ok dir) (hl : l.IsPlain)
    (hname : isName l.ns = true)
    (hd : s.files.entryAt? (namespaceDirectory s.base l) = some .directory) :
    s.files.follow [] (s.base ++ single l.ns) = .ok (namespaceDirectory s.base l) := by
  rw [follow_append hf]
  rw [namespaceDirectory, ← eq_resolve_of_follow hf] at hd ⊢
  by_cases hns : l.ns = ""
  · rw [single, if_pos hns, follow, List.append_nil]
  · rw [single, if_neg hns] at hd ⊢
    rw [follow, if_neg hl.2.2.1, if_neg hl.2.2.2, hname, hd]
    rfl

theorem isName_of_follow (h : s.files.follow [] (s.base ++ single l.ns) = .ok dir)
    (hl : l.IsPlain) : isName l.ns = true := by
  rw [follow_append (follow_of_append h)] at h
  unfold single at h
  split at h
  · rename_i hns
    rw [hns]
    decide
  · rw [follow, if_neg hl.2.2.1, if_neg hl.2.2.2] at h
    split at h
    · cases h
    · rename_i hname
      simpa using hname

/-- What is stored under a plain locator is decided by its place, once there is a base directory. -/
theorem stored?_of_isTree (ht : s.files.IsTree) (hf : s.files.follow [] s.base = .ok dir)
    (hl : l.IsPlain) : s.stored? l =
      if isName l.ns = true ∧ isName (documentName l) = true
      then (s.document? l).bind Document.ofText? else none := by
  by_cases hroom : s.HasRoom l
  · rw [if_pos ⟨isName_of_follow hroom.1 hl, hroom.2⟩, stored?, get_of_hasRoom hl hroom, document?]
    cases s.files.entryAt? (place s.base l) with
    | none => rfl
    | some e =>
      cases e with
      | directory => rfl
      | binary => rfl
      | file text =>
        rw [Option.bind_some]
        dsimp only
        cases Document.ofText? text <;> rfl
  · have hnone : s.stored? l = none := by
      rw [Option.eq_none_iff_forall_ne_some]
      intro r hr
      obtain ⟨text, hread, -⟩ := get_eq_ok_iff.mp (stored?_eq_some_iff.mp hr)
      obtain ⟨dir', hf', hname, -⟩ :=
        (read_eq_ok_iff (isOrdinary_fileName_documentPath _ _)).mp hread
      rw [eq_resolve_of_follow hf', resolve_parent_documentPath hl, parent_documentPath hl] at hf'
      rw [fileName_documentPath hl] at hname
      exact hroom ⟨hf', hname⟩
    rw [hnone]
    split
    · rename_i hnames
      cases hd : s.document? l with
      | none => rfl
      | some text =>
        unfold document? at hd
        split at hd
        · rename_i he
          -- The document lies in the directory of its namespace, so that is there.
          have habove := ht.lies _ _ he
          rw [place, List.dropLast_concat] at habove
          exact absurd ⟨follow_namespace hf hl hnames.1 habove, hnames.2⟩ hroom
        · cases hd
    · rfl

theorem stored?_of_changesOnly {ls : List Locator} (ht : s.files.IsTree) (ht' : s'.files.IsTree)
    (hf : s.files.follow [] s.base = .ok dir) (hc : ChangesOnly ls s s') (hl : l.IsPlain)
    (hmem : l ∉ ls) : s'.stored? l = s.stored? l := by
  have hf' : s'.files.follow [] s'.base = .ok dir := by
    rw [hc.base]
    exact follow_of_keepsDirectories hc.keeps hf
  rw [stored?_of_isTree ht hf hl, stored?_of_isTree ht' hf' hl,
    document?_of_keepsPlace hc.base (hc.others l hl hmem)]

/-- Writing the document of a plain locator changes nothing under another one. -/
theorem stored?_of_write_other (ht : s.files.IsTree) (hbase : s.base.IsWritten)
    (hf : s.files.follow [] s.base = .ok dir) (hr : r.locator.IsPlain) (hl : l.IsPlain)
    (hne : l ≠ r.locator) : (s.perform (writeSteps s.base r)).2.stored? l = s.stored? l := by
  have ht' := isTree_write ht hbase r
  rcases write_cases s hr with ⟨s', hs', hc, -, -⟩ | ⟨reason, s', hs', hc⟩
  · rw [hs'] at ht' ⊢
    exact stored?_of_changesOnly ht ht' hf hc hl (by simpa using hne)
  · rw [hs'] at ht' ⊢
    exact stored?_of_changesOnly ht ht' hf hc hl List.not_mem_nil

/-- Removing the document of a plain locator changes nothing under another one. -/
theorem stored?_of_remove_other (ht : s.files.IsTree) (hbase : s.base.IsWritten)
    (hf : s.files.follow [] s.base = .ok dir) (hl' : l'.IsPlain) (hl : l.IsPlain) (hne : l ≠ l') :
    (s.perform (removeSteps s.base l')).2.stored? l = s.stored? l := by
  have ht' := isTree_remove ht hbase l'
  have htouch := touchesOnly_remove (t := s.files) (isOrdinary_fileName_documentPath s.base l')
  rw [resolve_parent_documentPath hl', fileName_documentPath hl'] at htouch
  rw [perform_snd] at ht' ⊢
  have hchanges : ChangesOnly [l'] s
      { s with files := (s.files.applyAll (removeSteps s.base l')).2 } := by
    refine ⟨rfl, htouch.sameDirectories.keeps, fun l₂ _ hmem => ?_⟩
    refine .inl (htouch.entryAt?_eq fun hp => hmem ?_)
    rw [List.mem_singleton] at hp ⊢
    exact place_inj hp
  exact stored?_of_changesOnly ht ht' hf hchanges hl (by simpa using hne)

/-- Whether writing and removing the document of the one locator leaves what is stored under the other. -/
def Spares (s : Store) (l l' : Locator) : Prop :=
  (∀ r : Resource, r.locator = l →
      (s.perform (writeSteps s.base r)).2.stored? l' = s.stored? l') ∧
    (s.perform (removeSteps s.base l)).2.stored? l' = s.stored? l'

theorem spares_of_isPlain (ht : s.files.IsTree) (hbase : s.base.IsWritten)
    (hf : s.files.follow [] s.base = .ok dir) (hl : l.IsPlain) (hl' : l'.IsPlain) (hne : l' ≠ l) :
    s.Spares l l' := by
  refine ⟨fun r hr => ?_, stored?_of_remove_other ht hbase hf hl hl' hne⟩
  subst hr
  exact stored?_of_write_other ht hbase hf hl hl' hne

/-- A document is also read through its directory written with a point before it. -/
theorem get_of_point (hl : l.IsPlain) (hns : l.ns ≠ "") (h : s.get l = .ok r) :
    s.get ⟨"./" ++ l.ns, l.name⟩ = .ok r := by
  obtain ⟨text, hread, hdoc⟩ := get_eq_ok_iff.mp h
  refine get_eq_ok_iff.mpr ⟨text, ?_, hdoc⟩
  have hnames : Path.join s.base ("./" ++ l.ns) = s.base ++ "." :: [l.ns] := by
    have hparts := Text.splitAll_of_not_mem hl.1
    simp [join, isRooted, names, Text.parts, String.toList_append, Text.splitAll, hparts, hns]
  have hpath : documentPath s.base ⟨"./" ++ l.ns, l.name⟩ =
      s.base ++ "." :: [l.ns] ++ [documentName l] := by
    have hplain : documentPath (s.base ++ ["."]) l = _ := documentPath_of_isPlain hl
    rw [documentPath, join_of_not_mem _ hl.1, single, if_neg hns, List.append_assoc] at hplain
    rw [documentPath, hnames]
    exact hplain
  have ho := isOrdinary_fileName_documentPath s.base ⟨"./" ++ l.ns, l.name⟩
  obtain ⟨dir, hf, hname, he⟩ :=
    (read_eq_ok_iff (isOrdinary_fileName_documentPath s.base l)).mp hread
  rw [parent_documentPath hl, single, if_neg hns] at hf
  rw [fileName_documentPath hl] at hname he
  rw [hpath] at ho ⊢
  have hfile : Path.fileName (s.base ++ "." :: [l.ns] ++ [documentName l]) = documentName l := by
    rw [fileName, List.getLast?_concat, Option.getD_some]
  refine (read_eq_ok_iff ho).mpr ⟨dir, ?_, by rw [hfile, hname], by rw [hfile, he]⟩
  have hbase := follow_of_append hf
  rw [follow_append hbase] at hf
  rw [Path.parent, List.dropLast_concat, follow_append hbase, follow, if_pos rfl]
  exact hf

/-! ## What becomes of the store -/

/-- The store after any writes and removals of documents. -/
inductive Evolves (s : Store) : Store → Prop
  | refl : Evolves s s
  | write {t : Store} (h : Evolves s t) (r : Resource) :
      Evolves s (t.perform (writeSteps t.base r)).2
  | remove {t : Store} (h : Evolves s t) (l : Locator) :
      Evolves s (t.perform (removeSteps t.base l)).2

theorem keepsDirectories_write (s : Store) (r : Resource) :
    KeepsDirectories s.files (s.perform (writeSteps s.base r)).2.files := by
  rw [perform_snd]
  obtain ⟨t₁, rfl, ⟨t, happly, htouch, -⟩ | ⟨f, t, happly, htouch⟩⟩ :=
    replace_cases (t := s.files) (Document.text r)
      (isOrdinary_fileName_documentPath s.base r.locator) (isOrdinary_temporaryName _)
      (temporaryName_ne_fileName _ s.base r.locator) rfl
  all_goals
    rw [writeSteps_eq_replaceSteps, happly]
    exact fun p hp => htouch.sameDirectories.keeps p ((grows_makeDirectories _ _ _).keeps p hp)

theorem Evolves.keeps {t : Store} (h : s.Evolves t) (ht : s.files.IsTree) (hb : s.base.IsWritten) :
    t.base = s.base ∧ t.files.IsTree ∧ KeepsDirectories s.files t.files := by
  induction h with
  | refl => exact ⟨rfl, ht, fun _ => id⟩
  | @write t _ r ih =>
    obtain ⟨hbase, htree, hkeeps⟩ := ih
    refine ⟨by rw [perform_snd, hbase], isTree_write htree (hbase ▸ hb) r, fun p hp => ?_⟩
    exact keepsDirectories_write t r p (hkeeps p hp)
  | @remove t _ l ih =>
    obtain ⟨hbase, htree, hkeeps⟩ := ih
    refine ⟨by rw [perform_snd, hbase], isTree_remove htree (hbase ▸ hb) l, fun p hp => ?_⟩
    rw [perform_snd]
    exact (touchesOnly_remove (isOrdinary_fileName_documentPath t.base l)).sameDirectories.keeps p
      (hkeeps p hp)

/-- A stored resource is listed exactly if its locator is plain. -/
theorem mem_list_iff (ht : s.files.IsTree) (hbase : s.base.IsWritten) (hns : l.ns ≠ "")
    (hname : l.name ≠ "") (h : s.stored? l = some r) :
    (∃ ls, s.list = .ok ls ∧ l ∈ ls) ↔ l.IsPlain := by
  constructor
  · rintro ⟨ls, hls, hmem⟩
    exact isPlain_of_mem_list ht hls hmem
  · intro hl
    obtain ⟨text, hread, -⟩ := get_eq_ok_iff.mp (stored?_eq_some_iff.mp h)
    obtain ⟨dir, hf, hn, he⟩ := (read_eq_ok_iff (isOrdinary_fileName_documentPath _ _)).mp hread
    rw [eq_resolve_of_follow hf, resolve_parent_documentPath hl, fileName_documentPath hl] at he
    rw [eq_resolve_of_follow hf, resolve_parent_documentPath hl, parent_documentPath hl] at hf
    rw [fileName_documentPath hl] at hn
    exact mem_list_of_isPlain ht hbase hl hns hname ⟨hf, hn⟩ he

theorem written_of_apply {uid : String} {now : Instant} (h : s.apply r uid now = (.ok .created, s')) :
    s.perform (writeSteps s.base (incarnate r.declaration uid now)) = (.ok (), s') := by
  rw [apply] at h
  split at h
  · split at h
    · cases h
    · split at h
      · cases h
      · split at h <;> cases h
  · split at h
    · split at h
      · rename_i stored s₁ hcreate
        cases h
        obtain ⟨rfl, hwrite⟩ := written_of_create hcreate
        exact hwrite
      · cases h
    · cases h

theorem base_of_written (h : s.perform (writeSteps s.base r) = (.ok (), s')) : s'.base = s.base := by
  have hbase := congrArg (fun x => x.2.base) h
  rw [perform_snd] at hbase
  exact hbase.symm

/-- Once a document lies in the directory of its namespace, the base directory is there. -/
theorem follow_of_written (hl : r.locator.IsPlain)
    (h : s.perform (writeSteps s.base r) = (.ok (), s')) :
    ∃ dir, s'.files.follow [] s'.base = .ok dir := by
  rcases write_cases s hl with ⟨s₁, hs₁, -, hroom, -⟩ | ⟨reason, s₁, hs₁, -⟩
  · cases hs₁.symm.trans h
    exact ⟨_, follow_of_append hroom.1⟩
  · cases hs₁.symm.trans h

end Store

namespace Path

theorem IsWritten.under {p q : Path} (hp : p.IsWritten) (hq : q.IsWritten) :
    (Path.under p q).IsWritten := by
  rw [Path.under]
  split
  · exact hq
  · rename_i hroot
    rcases hq with hq | ⟨q', rfl, -⟩
    · exact hp.append hq
    · exact absurd rfl hroot

end Path

namespace Session
open FileTree Store StackKeeper.Path

variable {s : Session} {c : Config} {named uid : String} {now : Instant} {r : Resource} {next : Store}

theorem parts_ne_empty_of_manifest (h : s.manifest named = .ok r) :
    r.metadata.ns ≠ "" ∧ r.metadata.name ≠ "" := by
  have hload : Manifest.load s.files s.directory named = .ok r := by
    rw [manifest] at h
    cases hl : Manifest.load s.files s.directory named with
    | error e => rw [hl] at h; cases h
    | ok r' =>
      rw [hl] at h
      cases hv : (Validation.ofResource r').verdict with
      | error e => simp [hv, bind, Except.bind] at h
      | ok w =>
        simp [hv, bind, Except.bind] at h
        rw [h]
  rw [Manifest.load] at hload
  split at hload
  · exact ⟨Manifest.ns_ne_empty_of_read hload, Manifest.name_ne_empty_of_read hload⟩
  · cases hload

theorem stored_of_files {t : Store} (h : t.base = (s.store c).base) :
    Session.stored { s with files := t.files } c =
      if s.stateDirectory c = "" then .ok [] else t.list := by
  cases t
  cases h
  rfl

/-- What becomes of a resource that was created from a manifest. It is read back. A change of its
document is noticed under its locator exactly if that is plain; so it is with the listing, at any time
that the resource is stored, unless the base directory is named by the empty text. The documents of
plain locators are never touched through one another; but other locators lead to them. -/
theorem found_again (hfiles : s.files.IsTree) (hdir : s.directory.IsWritten)
    (hm : s.manifest named = .ok r) (hc : (s.store c).apply r uid now = (.ok .created, next)) :
    next.get r.locator = .ok (incarnate r.declaration uid now) ∧
      (locatorOfPath? (documentPath next.base r.locator) = some r.locator ↔ r.locator.IsPlain) ∧
      ∀ t : Store, next.Evolves t →
        (t.stored? r.locator ≠ none →
          ((∃ ls, Session.stored { s with files := t.files } c = .ok ls ∧ r.locator ∈ ls) ↔
            r.locator.IsPlain ∧ s.stateDirectory c ≠ "")) ∧
        (r.locator.IsPlain →
          (∀ l : Locator, l.IsPlain → l ≠ r.locator →
            t.Spares l r.locator ∧ t.Spares r.locator l) ∧
          ∀ r', t.get r.locator = .ok r' →
            t.get ⟨"./" ++ r.metadata.ns, r.metadata.name⟩ = .ok r') := by
  obtain ⟨hns, hname⟩ := parts_ne_empty_of_manifest hm
  have hwrite := written_of_apply hc
  have hbase : (s.store c).base.IsWritten := hdir.under (isWritten_ofText _)
  have hnext := base_of_written hwrite
  have htree : next.files.IsTree := by
    have h := isTree_write (s := s.store c) hfiles hbase (incarnate r.declaration uid now)
    rwa [hwrite] at h
  have hone : (1 : Nat) ≤ maxGeneration := by decide
  refine ⟨get_of_written (r := incarnate r.declaration uid now) hone hwrite,
    locatorOfPath?_documentPath_iff (hnext ▸ hbase) hns hname, fun t ht => ?_⟩
  obtain ⟨htbase, httree, htkeeps⟩ := ht.keeps htree (hnext ▸ hbase)
  have hbase' : t.base.IsWritten := by rw [htbase, hnext]; exact hbase
  refine ⟨fun hstored => ?_, fun hl => ⟨fun l hl' hne => ?_, fun r' hr' => ?_⟩⟩
  · obtain ⟨r', hr'⟩ := Option.ne_none_iff_exists'.mp hstored
    have hiff := mem_list_iff httree hbase' (l := r.locator) hns hname hr'
    rw [stored_of_files (htbase.trans hnext)]
    by_cases hempty : s.stateDirectory c = ""
    · rw [if_pos hempty]
      simp [hempty]
    · rw [if_neg hempty, hiff]
      simp [hempty]
  · obtain ⟨dir, hf⟩ := follow_of_written (r := incarnate r.declaration uid now) hl hwrite
    rw [← htbase] at hf
    have hf := follow_of_keepsDirectories htkeeps hf
    exact ⟨spares_of_isPlain httree hbase' hf hl' hl hne.symm,
      spares_of_isPlain httree hbase' hf hl hl' hne⟩
  · exact get_of_point (l := r.locator) hl hns hr'

/-- A session in a directory with one manifest, which declares a resource of the given name. -/
def withManifest (name : String) : Session where
  files := ⟨[(["/", "work", "stack.yaml"],
      .file ("metadata:\n  name: " ++ name ++ "\nspec:\n  template: t\n")),
    (["/", "work"], .directory)]⟩
  directory := ["/", "work"]
  environment := []
  now := leapSecond
  uid := "uid-1"

def storedHere : Config := { Config.default with stateDir := some "state" }

/-- The resource that the manifest declares. -/
def declared (name : String) : Resource where
  metadata := ⟨name, "default", "", 0, none, none, []⟩
  spec := { Spec.empty with template := some "t" }
  status := Status.empty

theorem eq_ok_of_toOption {α : Type} {x : Except Error α} {a : α} (h : x.toOption = some a) :
    x = .ok a := by
  cases x with
  | error e => cases h
  | ok b => cases h; rfl

theorem manifest_web : (withManifest "web").manifest "stack.yaml" = .ok (declared "web") :=
  eq_ok_of_toOption (by decide +kernel)

theorem manifest_nested : (withManifest "a/b").manifest "stack.yaml" = .ok (declared "a/b") :=
  eq_ok_of_toOption (by decide +kernel)

def storedText (name : String) : String :=
  Document.text (incarnate (declared name).declaration "uid-1" leapSecond)

/-- The store after the resource was created under a name without separators. -/
def storeWithWeb : Store where
  base := ["/", "work", "state"]
  files := ⟨[(["/", "work", "state", "default", "web.json"], .file (storedText "web")),
    (["/", "work", "state", "default"], .directory), (["/", "work", "state"], .directory)] ++
    (withManifest "web").files.entries⟩

/-- The store after the resource was created under a name with a separator. -/
def storeWithNested : Store where
  base := ["/", "work", "state"]
  files := ⟨[(["/", "work", "state", "default", "a", "b.json"], .file (storedText "a/b")),
    (["/", "work", "state", "default", "a"], .directory),
    (["/", "work", "state", "default"], .directory), (["/", "work", "state"], .directory)] ++
    (withManifest "a/b").files.entries⟩

theorem apply_of_missing {st next : Store}
    (hread : st.files.read (documentPath st.base r.locator) = .error .missing)
    (hwrite : st.perform (writeSteps st.base (incarnate r.declaration uid now)) =
      (.ok (), next)) : st.apply r uid now = (.ok .created, next) := by
  have hget : st.get r.locator = .error (.resourceNotFound r.locator.text) := get_of_missing hread
  have hcreate : st.create r.declaration uid now = (.ok (incarnate r.declaration uid now), next) :=
    create_of_missing hread hwrite
  rw [Store.apply, hget]
  simp only [Error.isNotFound, if_true, hcreate]

theorem isTree_withManifest (name : String) : (withManifest name).files.IsTree := by
  apply isTree_of_entries
  · intro e he
    simp only [withManifest, List.mem_cons, List.not_mem_nil, or_false] at he
    rcases he with rfl | rfl <;> rfl
  · intro e he _ _
    simp only [withManifest, List.mem_cons, List.not_mem_nil, or_false] at he
    rcases he with rfl | rfl <;> simp [fileName, IsOrdinary]

theorem isWritten_work : IsWritten ["/", "work"] :=
  .inr ⟨["work"], rfl, by simp [IsRelative]⟩

/-- The manifest is applied to a store without a document for it. -/
theorem apply_declared {name q : String} {d : Path}
    (hpath : documentPath ["/", "work", "state"] (declared name).locator = d)
    (hname : temporaryName d = q) (hread : (withManifest name).files.read d = .error .missing)
    (hwrite : ((withManifest name).store storedHere).perform
      (replaceSteps d q (storedText name)) = (.ok (), next)) :
    ((withManifest name).store storedHere).apply (declared name) "uid-1" leapSecond =
      (.ok .created, next) := by
  have hbase : ((withManifest name).store storedHere).base = ["/", "work", "state"] := by
    have hdirectory : (withManifest name).stateDirectory storedHere = "state" := rfl
    rw [store, hdirectory]
    show Path.under ["/", "work"] (ofText "state") = _
    decide
  apply apply_of_missing
  · rw [hbase, hpath]
    exact hread
  · rw [hbase, writeSteps_eq_replaceSteps]
    subst hpath hname
    exact hwrite

theorem apply_web : ((withManifest "web").store storedHere).apply (declared "web") "uid-1"
    leapSecond = (.ok .created, storeWithWeb) :=
  apply_declared (d := ["/", "work", "state", "default", "web.json"]) (q := "web.tmp") (by decide)
    (by decide) rfl rfl

/-- A resource with a plain locator is found in all three ways. -/
theorem found_again_web :
    (∃ ls, Session.stored { withManifest "web" with files := storeWithWeb.files } storedHere = .ok ls ∧
        (declared "web").locator ∈ ls) ∧
      locatorOfPath? (documentPath storeWithWeb.base (declared "web").locator) =
        some (declared "web").locator ∧
      storeWithWeb.Spares ⟨"default", "other"⟩ (declared "web").locator := by
  obtain ⟨hget, hnoticed, hlater⟩ := found_again (isTree_withManifest "web") isWritten_work
    manifest_web apply_web
  have hplain : (declared "web").locator.IsPlain := by decide
  obtain ⟨hlisted, hothers⟩ := hlater storeWithWeb .refl
  refine ⟨(hlisted ?_).mpr ⟨hplain, by decide⟩, hnoticed.mpr hplain,
    ((hothers hplain).1 ⟨"default", "other"⟩ (by decide) (by decide)).1⟩
  rw [stored?_eq_some_iff.mpr hget]
  simp

theorem apply_nested : ((withManifest "a/b").store storedHere).apply (declared "a/b") "uid-1"
    leapSecond = (.ok .created, storeWithNested) :=
  apply_declared (d := ["/", "work", "state", "default", "a", "b.json"]) (q := "b.tmp") (by decide)
    (by decide) rfl rfl

/-- A manifest may declare a name with a separator. Its resource is created and read back, but never
listed, and a change of its document is noticed under the locator of another resource. -/
theorem lost_after_creation :
    (withManifest "a/b").manifest "stack.yaml" = .ok (declared "a/b") ∧
      ((withManifest "a/b").store storedHere).apply (declared "a/b") "uid-1" leapSecond =
        (.ok .created, storeWithNested) ∧
      (storeWithNested.get (declared "a/b").locator).toBool = true ∧
      Session.stored { withManifest "a/b" with files := storeWithNested.files } storedHere = .ok [] ∧
      locatorOfPath? (documentPath storeWithNested.base (declared "a/b").locator) =
        some ⟨"a", "b"⟩ := by
  refine ⟨manifest_nested, apply_nested, ?_, ?_, by decide⟩
  · have hone : (1 : Nat) ≤ maxGeneration := by decide
    have hread := get_of_written (r := incarnate (declared "a/b").declaration "uid-1" leapSecond) hone
      (written_of_apply apply_nested)
    rw [show (declared "a/b").locator =
      (incarnate (declared "a/b").declaration "uid-1" leapSecond).locator from rfl, hread]
    rfl
  · refine (stored_of_files (s := withManifest "a/b") (c := storedHere) (t := storeWithNested)
      rfl).trans ?_
    rw [if_neg (by decide)]
    have hnames : storeWithNested.files.list storeWithNested.base = .ok ["default"] := rfl
    have hgroups : ["default"].mapM storeWithNested.locatorsIn = .ok [[]] := rfl
    simp [Store.list, hnames, hgroups]

end Session
end StackKeeper
