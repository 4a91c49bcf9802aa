import StackKeeper.Proofs.FileFrame
import StackKeeper.Proofs.StoreAccess
/-!
# What a write to the store leaves alone

The parts of a plain locator hold no separator, and the namespace stands for itself. Its document is
then a file of its own: in the directory of its namespace, or in the base directory when the namespace
is empty. A write changes one document, and elsewhere it can only make directories where nothing
was. A directory takes the place of a document in one way: it is that of a namespace, and the
document is one of the empty namespace.

Results:
* `documentPath_of_isPlain`, `place_inj`: documents of different plain locators are different files.
* `write_cases`, `remove_effect`: what writing and removing a document do to all places.
* `stored?_eq_bind`: what is stored is what the documents say.
* `get_of_write`, `get_of_remove`: what any locator, plain or not, reads after a write or a removal.
-/
namespace StackKeeper

/-- Whether the parts of a locator hold no separator and its namespace stands for itself. -/
def Locator.IsPlain (l : Locator) : Prop :=
  '/' ∉ l.ns.toList ∧ '/' ∉ l.name.toList ∧ l.ns ≠ "." ∧ l.ns ≠ ".."

instance (l : Locator) : Decidable l.IsPlain :=
  inferInstanceAs (Decidable (_ ∧ _ ∧ _ ∧ _))

namespace Path

/-- A text without a separator is a name, or nothing at all. -/
def single (s : String) : Path := if s = "" then [] else [s]

theorem single_inj {s s' : String} (h : single s = single s') : s = s' := by
  unfold single at h
  split at h
  · rename_i hs
    split at h
    · rename_i hs'
      rw [hs, hs']
    · cases h
  · split at h
    · cases h
    · exact (List.cons.inj h).1

theorem join_of_not_mem {s : String} (p : Path) (h : '/' ∉ s.toList) : p.join s = p ++ single s := by
  have hrooted : isRooted s = false := by
    unfold isRooted
    split
    · rename_i c hc
      exact absurd (by simp [hc]) h
    · rfl
  have hparts : Text.parts '/' s = [s] := by simp [Text.parts, Text.splitAll_of_not_mem h]
  rw [join, hrooted, names, hparts, single]
  by_cases hs : s = "" <;> simp [hs]

theorem resolve_single_name {start : Path} {s : String} (hdot : s ≠ ".") (hdots : s ≠ "..") :
    resolve start (single s) = start ++ single s := by
  unfold single
  split
  · rw [resolve, List.append_nil]
  · exact resolve_single hdot hdots

end Path

namespace Store
open FileTree StackKeeper.Path

variable {s s' s'' : Store} {l l' : Locator} {r : Resource} {base : Path}

/-! ## Places -/

def documentName (l : Locator) : String := l.name ++ "." ++ extension

/-- The directory of the documents of a namespace. -/
def namespaceDirectory (base : Path) (l : Locator) : Path := resolve [] base ++ single l.ns

/-- The place of the document of a resource in the tree. -/
def place (base : Path) (l : Locator) : Path := namespaceDirectory base l ++ [documentName l]

theorem documentPath_of_isPlain (h : l.IsPlain) :
    documentPath base l = base ++ single l.ns ++ [documentName l] := by
  obtain ⟨hns, hname, -, -⟩ := h
  have hslash : '/' ∉ (l.name ++ "." ++ extension).toList := by
    rw [String.append_assoc, String.toList_append, List.mem_append, not_or]
    exact ⟨hname, by decide⟩
  have hne : l.name ++ "." ++ extension ≠ "" := by
    intro he
    have := congrArg String.toList he
    simp [extension] at this
  rw [documentPath, join_of_not_mem _ hns, join_of_not_mem _ hslash, documentName]
  conv => lhs; rhs; rw [single, if_neg hne]

theorem parent_documentPath (h : l.IsPlain) :
    (documentPath base l).parent = base ++ single l.ns := by
  rw [documentPath_of_isPlain h, parent, List.dropLast_concat]

theorem fileName_documentPath (h : l.IsPlain) :
    (documentPath base l).fileName = documentName l := by
  rw [documentPath_of_isPlain h, fileName, List.getLast?_concat, Option.getD_some]

theorem resolve_parent_documentPath (h : l.IsPlain) :
    resolve [] (documentPath base l).parent = namespaceDirectory base l := by
  rw [parent_documentPath h, resolve_append, resolve_single_name h.2.2.1 h.2.2.2,
    namespaceDirectory]

theorem place_inj (h : place base l = place base l') : l = l' := by
  obtain ⟨hdir, hname⟩ := List.append_inj' h rfl
  have hns := List.append_cancel_left hdir
  have hname' : l.name = l'.name := by
    have hdocument := (List.cons.inj hname).1
    rw [documentName, documentName, String.append_assoc, String.append_assoc] at hdocument
    have hchars := congrArg String.toList hdocument
    simp only [String.toList_append] at hchars
    exact String.toList_inj.mp (List.append_cancel_right hchars)
  cases l
  cases l'
  exact congr (congrArg Locator.mk (single_inj hns)) hname'

theorem temporaryName_ne_documentName (document : Path) (l : Locator) :
    temporaryName document ≠ documentName l := by
  intro h
  have hlast := congrArg (fun c : String => c.toList.getLast?) h
  rw [documentName, String.append_assoc, temporaryName, String.append_assoc] at hlast
  simp [String.toList_append, temporaryExtension, extension, List.getLast?_append] at hlast

/-- No document has the place at which another one is written first. -/
theorem place_ne_temporary (dir document : Path) (l : Locator) :
    place base l ≠ dir ++ [temporaryName document] := by
  intro h
  have hname := (List.append_inj' h rfl).2
  exact temporaryName_ne_documentName document l (List.cons.inj hname).1.symm

/-! ## What writes change -/

/-- Nothing happened at the place of a document, or a directory was made where nothing was. -/
def KeepsPlace (s s' : Store) (l : Locator) : Prop :=
  s'.files.entryAt? (place s.base l) = s.files.entryAt? (place s.base l) ∨
    (s.files.entryAt? (place s.base l) = none ∧
      s'.files.entryAt? (place s.base l) = some .directory ∧
      (l.ns = "" ∨ ∀ dir, s.files.follow [] s.base ≠ .ok dir))

/-- Nothing but the given documents changed. -/
structure ChangesOnly (ls : List Locator) (s s' : Store) : Prop where
  base : s'.base = s.base
  keeps : KeepsDirectories s.files s'.files
  others : ∀ l, l.IsPlain → l ∉ ls → KeepsPlace s s' l

/-- Making the directory of a namespace makes nothing at the place of a document, unless that is one
of the empty namespace or the base directory was not there. -/
theorem keepsPlace_makeDirectories (h : l.IsPlain) (l' : Locator) :
    KeepsPlace s { s with files := (s.files.makeDirectories [] (s.base ++ single l.ns)).2 } l' := by
  rcases grows_makeDirectories s.files [] (s.base ++ single l.ns) (place s.base l') with
    he | ⟨hnone, hd⟩
  · exact .inl he
  · by_cases hbase : ∃ dir, s.files.follow [] s.base = .ok dir
    · obtain ⟨dir, hf⟩ := hbase
      rw [makeDirectories_append hf] at hd
      by_cases hns : l.ns = ""
      · rw [single, if_pos hns, makeDirectories, hnone] at hd
        cases hd
      · rw [single, if_neg hns] at hd
        by_cases hplace : place s.base l' = dir ++ [l.ns]
        · refine .inr ⟨hnone, ?_, .inl ?_⟩
          · rw [makeDirectories_append hf, single, if_neg hns]
            exact hd
          -- The directory of a namespace lies in the base directory itself.
          · rw [eq_resolve_of_follow hf, place, namespaceDirectory] at hplace
            have hlength := congrArg List.length hplace
            unfold single at hlength
            split at hlength
            · assumption
            · simp at hlength
        · rw [entryAt?_makeDirectories_single h.2.2.1 h.2.2.2 hplace, hnone] at hd
          cases hd
    · exact .inr ⟨hnone, hd, .inr fun dir hdir => hbase ⟨dir, hdir⟩⟩

theorem KeepsPlace.touches {Q : List Path} {t : FileTree} (h : KeepsPlace s s' l)
    (ht : TouchesOnly Q s'.files t) (hq : place s.base l ∉ Q) :
    KeepsPlace s { s with files := t } l := by
  have he := ht.entryAt?_eq hq
  unfold KeepsPlace
  show t.entryAt? _ = _ ∨ _ ∧ t.entryAt? _ = _ ∧ _
  rw [he]
  exact h

/-- Whether the document of a locator has a directory to lie in and a name to be found by. -/
def HasRoom (s : Store) (l : Locator) : Prop :=
  s.files.follow [] (s.base ++ single l.ns) = .ok (namespaceDirectory s.base l) ∧
    isName (documentName l) = true

/-- Writing a document gives it its new text and changes no other one; cut off, it changes none. -/
theorem write_cases (s : Store) (h : r.locator.IsPlain) :
    (∃ s', s.perform (writeSteps s.base r) = (.ok (), s') ∧ ChangesOnly [r.locator] s s' ∧
        s'.HasRoom r.locator ∧
        s'.files.entryAt? (place s.base r.locator) = some (.file (Document.text r))) ∨
      ∃ reason s', s.perform (writeSteps s.base r) = (.error (.storeIo reason), s') ∧
        ChangesOnly [] s s' := by
  obtain ⟨t₁, ht₁, hcases⟩ := @replace_cases s.files (documentPath s.base r.locator) _ _
    (Document.text r) (isOrdinary_fileName_documentPath s.base r.locator) (isOrdinary_temporaryName _)
    (temporaryName_ne_fileName _ s.base r.locator) (resolve_parent_documentPath h)
  rw [parent_documentPath h] at ht₁
  have hmade : ∀ l', KeepsPlace s { s with files := t₁ } l' := by
    intro l'
    rw [ht₁]
    exact keepsPlace_makeDirectories h l'
  have hkeeps : KeepsDirectories s.files t₁ := by
    rw [ht₁]
    exact (grows_makeDirectories _ _ _).keeps
  rw [parent_documentPath h, fileName_documentPath h] at hcases
  rcases hcases with ⟨t, happly, htouch, hf, hname, he⟩ | ⟨f, t, happly, htouch⟩
  · refine .inl ⟨{ s with files := t }, ?_, ⟨rfl, ?_, ?_⟩, ⟨hf, hname⟩, he⟩
    · rw [perform, writeSteps_eq_replaceSteps, happly]
    · exact fun p hp => (htouch.sameDirectories p).mp (hkeeps p hp)
    · intro l' hl' hne
      refine (hmade l').touches htouch ?_
      rw [List.mem_cons, List.mem_singleton, not_or]
      refine ⟨place_ne_temporary _ _ _, fun hp => hne ?_⟩
      rw [List.mem_singleton]
      exact place_inj hp
  · obtain ⟨reason, hreason⟩ := exists_failure f.2.text f.1
    refine .inr ⟨reason, { s with files := t }, ?_, rfl, ?_, ?_⟩
    · rw [perform, writeSteps_eq_replaceSteps, happly, ← hreason]
    · exact fun p hp => (htouch.sameDirectories p).mp (hkeeps p hp)
    · intro l' _ _
      refine (hmade l').touches htouch ?_
      rw [List.mem_singleton]
      exact place_ne_temporary _ _ _

/-- Removing a document leaves nothing in its place. -/
theorem remove_effect {stored : Resource} (h : l.IsPlain) (hget : s.get l = .ok stored) :
    ∃ s', s.perform (removeSteps s.base l) = (.ok (), s') ∧ ChangesOnly [l] s s' ∧
      s'.files.entryAt? (place s.base l) = none := by
  obtain ⟨old, hread, -⟩ := get_eq_ok_iff.mp hget
  obtain ⟨t, happly, htouch, hnone⟩ := remove_cases (isOrdinary_fileName_documentPath s.base l) hread
    (resolve_parent_documentPath h)
  rw [fileName_documentPath h] at htouch hnone
  refine ⟨{ s with files := t }, ?_, ⟨rfl, htouch.sameDirectories.keeps, ?_⟩, hnone⟩
  · rw [perform, removeSteps, happly]
  · intro l' hl' hne
    refine .inl (htouch.entryAt?_eq fun hp => hne ?_)
    rw [List.mem_singleton] at hp ⊢
    exact place_inj hp

/-! ## What is stored -/

/-- The text of a document. -/
def document? (s : Store) (l : Locator) : Option String :=
  match s.files.entryAt? (place s.base l) with
  | some (.file text) => some text
  | _ => none

def stored? (s : Store) (l : Locator) : Option Resource := (s.get l).toOption

theorem stored?_eq_some_iff : s.stored? l = some r ↔ s.get l = .ok r := by
  unfold stored?
  cases s.get l <;> simp [Except.toOption]

/-- Whether a resource may be kept under a locator. -/
structure Fits (l : Locator) (r : Resource) : Prop where
  own : r.locator = l
  positive : 1 ≤ r.metadata.generation
  bounded : r.metadata.generation ≤ maxGeneration
  held : isReleased r = false

/-- What may be at the place of a document: nothing, a directory, or a resource that fits there. -/
def SoundAt (s : Store) (l : Locator) : Prop :=
  ∀ e, s.files.entryAt? (place s.base l) = some e →
    e = .directory ∨ (s.HasRoom l ∧ ∃ r, Fits l r ∧ e = .file (Document.text r))

/-- Whether every document is that of a resource that fits. -/
def Sound (s : Store) : Prop := ∀ l : Locator, l.IsPlain → s.SoundAt l

theorem HasRoom.changes {ls : List Locator} (h : s.HasRoom l) (hc : ChangesOnly ls s s') :
    s'.HasRoom l := by
  refine ⟨?_, h.2⟩
  rw [hc.base]
  exact follow_of_keepsDirectories hc.keeps h.1

theorem soundAt_of_keepsPlace {ls : List Locator} (hs : s.SoundAt l) (hc : ChangesOnly ls s s')
    (hk : KeepsPlace s s' l) : s'.SoundAt l := by
  intro e he
  rw [hc.base] at he
  rcases hk with hsame | ⟨-, hdirectory, -⟩
  · rw [hsame] at he
    refine (hs e he).imp_right ?_
    rintro ⟨hroom, hfile⟩
    exact ⟨hroom.changes hc, hfile⟩
  · rw [hdirectory] at he
    exact .inl (Option.some.inj he).symm

theorem Sound.changes {ls : List Locator} (hs : s.Sound) (hc : ChangesOnly ls s s')
    (hls : ∀ l ∈ ls, s'.SoundAt l) : s'.Sound := by
  intro l hl
  by_cases hmem : l ∈ ls
  · exact hls l hmem
  · exact soundAt_of_keepsPlace (hs l hl) hc (hc.others l hl hmem)

theorem document?_of_keepsPlace (hbase : s'.base = s.base) (hk : KeepsPlace s s' l) :
    s'.document? l = s.document? l := by
  unfold document?
  rw [hbase]
  rcases hk with hsame | ⟨hnone, hdirectory, -⟩
  · rw [hsame]
  · rw [hnone, hdirectory]

/-- With room for a document, reading it asks for nothing but what is at its place. -/
theorem get_of_hasRoom (hl : l.IsPlain) (h : s.HasRoom l) :
    s.get l =
      match s.files.entryAt? (place s.base l) with
      | none => .error (.resourceNotFound l.text)
      | some (.file text) =>
        match Document.ofText? text with
        | some r => .ok r
        | none => .error (corrupted (documentPath s.base l))
      | some .directory => .error (unreadable (documentPath s.base l) .isDirectory)
      | some .binary => .error (unreadable (documentPath s.base l) .notText) := by
  obtain ⟨hf, hname⟩ := h
  rw [← parent_documentPath hl] at hf
  have hlocate := locate_of_follow hf (isOrdinary_fileName_documentPath s.base l)
  rw [fileName_documentPath hl, if_pos hname] at hlocate
  rw [get, FileTree.read, FileTree.find, hlocate, place]
  cases he : s.files.entryAt? (namespaceDirectory s.base l ++ [documentName l]) with
  | none => simp only [he]
  | some e =>
    cases e with
    | directory => simp only [he]
    | binary => simp only [he]
    | file text => cases ht : Document.ofText? text <;> simp only [he, ht]

/-- What is stored under a locator is what its document says. -/
theorem stored?_eq_bind (hl : l.IsPlain) (hs : s.SoundAt l) :
    s.stored? l = (s.document? l).bind Document.ofText? := by
  cases hd : s.document? l with
  | none =>
    rw [Option.bind_none, Option.eq_none_iff_forall_ne_some]
    intro r hr
    obtain ⟨text, hread, -⟩ := get_eq_ok_iff.mp (stored?_eq_some_iff.mp hr)
    obtain ⟨dir, hf, -, he⟩ := (read_eq_ok_iff (isOrdinary_fileName_documentPath _ _)).mp hread
    rw [eq_resolve_of_follow hf, resolve_parent_documentPath hl, fileName_documentPath hl] at he
    rw [document?, place, he] at hd
    cases hd
  | some text =>
    have he : s.files.entryAt? (place s.base l) = some (.file text) := by
      unfold document? at hd
      split at hd
      · cases hd
        assumption
      · cases hd
    obtain hdirectory | ⟨hroom, -⟩ := hs _ he
    · cases hdirectory
    · rw [Option.bind_some, stored?, get_of_hasRoom hl hroom, he]
      cases hr : Document.ofText? text <;> simp only [hr] <;> rfl

theorem stored?_of_keepsPlace {ls : List Locator} (hl : l.IsPlain) (hs : s.SoundAt l)
    (hc : ChangesOnly ls s s') (hk : KeepsPlace s s' l) : s'.stored? l = s.stored? l := by
  rw [stored?_eq_bind hl hs, stored?_eq_bind hl (soundAt_of_keepsPlace hs hc hk),
    document?_of_keepsPlace hc.base hk]

theorem stored?_of_file (hl : l.IsPlain) (hroom : s.HasRoom l)
    (he : s.files.entryAt? (place s.base l) = some (.file (Document.text r)))
    (hg : r.metadata.generation ≤ maxGeneration) : s.stored? l = some r := by
  rw [stored?_eq_some_iff, get_of_hasRoom hl hroom, he]
  simp only [Document.ofText?_text hg]

theorem Sound.fits (hs : s.Sound) (hl : l.IsPlain) (h : s.stored? l = some r) : Fits l r := by
  rw [stored?_eq_bind hl (hs l hl), Option.bind_eq_some_iff] at h
  obtain ⟨text, hd, ht⟩ := h
  unfold document? at hd
  split at hd
  · rename_i he
    cases hd
    obtain hdirectory | ⟨-, r', hfits, hfile⟩ := hs l hl _ he
    · cases hdirectory
    · cases hfile
      rw [Document.ofText?_text hfits.bounded] at ht
      cases ht
      exact hfits
  · cases hd

/-! ## Documents that were written once -/

/-- Whether a document can be written and read at its place, where only the empty namespace has to
reckon with a directory. -/
def IsFounded (s : Store) (l : Locator) : Prop :=
  s.HasRoom l ∧ (l.ns ≠ "" → s.files.entryAt? (place s.base l) ≠ some .directory)

theorem IsFounded.changes {ls : List Locator} (hl : l.IsPlain) (h : s.IsFounded l)
    (hc : ChangesOnly ls s s')
    (hls : l ∈ ls → s'.files.entryAt? (place s'.base l) ≠ some .directory) : s'.IsFounded l := by
  refine ⟨h.1.changes hc, fun hns => ?_⟩
  by_cases hmem : l ∈ ls
  · exact hls hmem
  · rw [hc.base]
    rcases hc.others l hl hmem with hsame | ⟨-, -, hempty | hgone⟩
    · rw [hsame]
      exact h.2 hns
    · exact absurd hempty hns
    -- The base directory is there, since the document has room below it.
    · exact absurd (follow_of_append h.1.1) (hgone _)

/-- Where a document was once, nothing is stored because nothing is there, or because the directory of
a namespace has taken the place of a document of the empty one. -/
theorem get_of_isFounded (hl : l.IsPlain) (hs : s.SoundAt l) (hf : s.IsFounded l)
    (h : s.stored? l = none) :
    s.get l = .error (.resourceNotFound l.text) ∨
      (l.ns = "" ∧ s.files.entryAt? (place s.base l) = some .directory ∧
        s.get l = .error (unreadable (documentPath s.base l) .isDirectory)) := by
  rw [get_of_hasRoom hl hf.1]
  cases he : s.files.entryAt? (place s.base l) with
  | none => exact .inl rfl
  | some e =>
    obtain rfl | ⟨-, r, hfits, rfl⟩ := hs e he
    · exact .inr ⟨Decidable.byContradiction fun hns => hf.2 hns he, rfl, rfl⟩
    · rw [stored?_of_file hl hf.1 he hfits.bounded] at h
      cases h

/-! ## Any locator -/

theorem perform_snd (s : Store) (steps : List Step) :
    (s.perform steps).2 = { s with files := (s.files.applyAll steps).2 } := by
  rw [perform]
  rcases s.files.applyAll steps with ⟨x, t⟩
  cases x <;> rfl

/-- After a document was written over, a locator reads what it did, or it read the old document and
reads the new one. -/
theorem get_of_write {stored r' : Resource} (hget : s.get r.locator = .ok stored)
    (hg : r.metadata.generation ≤ maxGeneration)
    (hr : (s.perform (writeSteps s.base r)).2.get l = .ok r') :
    s.get l = .ok r' ∨ (r' = r ∧ s.get l = .ok stored) := by
  obtain ⟨old, hold, hstored⟩ := get_eq_ok_iff.mp hget
  rw [perform_snd] at hr
  obtain ⟨text', hread, hdoc⟩ := get_eq_ok_iff.mp hr
  rcases read_of_replace (isOrdinary_fileName_documentPath s.base r.locator)
    (isOrdinary_temporaryName _) (temporaryName_ne_fileName _ _ _) hold
    (isOrdinary_fileName_documentPath s.base l) (temporaryName_ne_fileName _ _ _) hread with
    hsame | ⟨rfl, hwas⟩
  · exact .inl (get_eq_ok_iff.mpr ⟨text', hsame, hdoc⟩)
  · rw [Document.ofText?_text hg] at hdoc
    exact .inr ⟨(Option.some.inj hdoc).symm, get_eq_ok_iff.mpr ⟨old, hwas, hstored⟩⟩

/-- What a locator reads after a document was removed it read before. -/
theorem get_of_remove {l₀ : Locator} {stored : Resource} (hget : s.get l₀ = .ok stored)
    (hr : (s.perform (removeSteps s.base l₀)).2.get l = .ok r) : s.get l = .ok r := by
  obtain ⟨old, hold, -⟩ := get_eq_ok_iff.mp hget
  rw [perform_snd] at hr
  obtain ⟨text, hread, hdoc⟩ := get_eq_ok_iff.mp hr
  exact get_eq_ok_iff.mpr ⟨text, read_of_remove (isOrdinary_fileName_documentPath _ _) hold
    (isOrdinary_fileName_documentPath _ _) hread, hdoc⟩

end Store
end StackKeeper
