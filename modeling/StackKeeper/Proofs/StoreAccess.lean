import StackKeeper.Proofs.DocumentText
import StackKeeper.Proofs.FileSteps
import StackKeeper.Store.Local
/-!
# What the store reads after a write

A write to a stored resource is read back as it was meant, or it fails and the resource stays as it
was. Nothing is asked of the locator or of the base directory: a document that can be read has a
directory, and the neighbour through which it is replaced is another file of it.

Results:
* `updateStatus_of_get`, `update_of_get`: a write to a resource that is stored under its own locator.
* `updateStatus_cases`, `update_cases`: the same without knowing that it is stored.
* `get_of_update_ok`, `get_of_updateStatus_ok`: what is read after a write that was accepted.
* `updateStatus_of_isReplaceable`, `update_of_isReplaceable`: when a write is accepted.
-/
namespace StackKeeper

namespace Text

theorem splitAll_of_not_mem {sep : Char} {s : List Char} (h : sep ∉ s) : splitAll sep s = [s] := by
  induction s with
  | nil => rfl
  | cons c rest ih =>
    rw [List.mem_cons, not_or] at h
    rw [splitAll, if_neg (Ne.symm h.1), ih h.2]

/-- The last part takes in what follows the text without a separator. -/
theorem splitAll_append {sep : Char} (s : List Char) {ending : List Char} (h : sep ∉ ending) :
    ∃ init last, splitAll sep s = init ++ [last] ∧
      splitAll sep (s ++ ending) = init ++ [last ++ ending] := by
  have hend := splitAll_of_not_mem h
  induction s with
  | nil => exact ⟨[], [], rfl, by simpa using hend⟩
  | cons c s ih =>
    obtain ⟨init, last, hs, hse⟩ := ih
    by_cases hc : c = sep
    · refine ⟨[] :: init, last, ?_, ?_⟩
      · rw [splitAll, if_pos hc, hs]
        rfl
      · rw [List.cons_append, splitAll, if_pos hc, hse]
        rfl
    · cases init with
      | nil =>
        refine ⟨[], c :: last, ?_, ?_⟩
        · rw [splitAll, if_neg hc, hs]
          rfl
        · rw [List.cons_append, splitAll, if_neg hc, hse]
          rfl
      | cons part init =>
        refine ⟨(c :: part) :: init, last, ?_, ?_⟩
        · rw [splitAll, if_neg hc, hs]
          rfl
        · rw [List.cons_append, splitAll, if_neg hc, hse]
          rfl

end Text

namespace Path

theorem getLast?_names_append (s : String) {ending : String} (hne : ending ≠ "")
    (h : '/' ∉ ending.toList) :
    ∃ stem, (names (s ++ ending)).getLast? = some (stem ++ ending) := by
  obtain ⟨init, last, -, hs⟩ := Text.splitAll_append s.toList h
  refine ⟨String.ofList last, ?_⟩
  have hlast : String.ofList (last ++ ending.toList) = String.ofList last ++ ending := by
    rw [String.ofList_append, String.ofList_toList]
  have hkeep : String.ofList last ++ ending ≠ "" := by
    intro he
    have := congrArg String.toList he
    simp at this
    exact hne this.2
  rw [names, Text.parts, String.toList_append, hs, List.map_append, List.filter_append]
  simp [hlast, hkeep]

theorem fileName_join (p : Path) (s : String) {ending : String} (hne : ending ≠ "")
    (h : '/' ∉ ending.toList) : ∃ stem, (p.join (s ++ ending)).fileName = stem ++ ending := by
  obtain ⟨stem, hs⟩ := getLast?_names_append s hne h
  refine ⟨stem, ?_⟩
  have happend : ∀ q : Path, (q ++ names (s ++ ending)).getLast? = some (stem ++ ending) := by
    intro q
    rw [List.getLast?_append, hs]
    rfl
  have hroot : (root :: names (s ++ ending)).getLast? = some (stem ++ ending) := happend [root]
  unfold join
  split
  · rename_i hr
    rw [fileName, ofText, if_pos hr, hroot]
    rfl
  · rw [fileName, happend]
    rfl

theorem isOrdinary_append {stem ending : String} {c : Char}
    (h : ending.toList.getLast? = some c) (hc : c ≠ '.') : IsOrdinary (stem ++ ending) := by
  have hlast : (stem ++ ending).toList.getLast? = some c := by
    rw [String.toList_append, List.getLast?_append, h]
    rfl
  refine ⟨?_, ?_, ?_⟩ <;> intro he <;> rw [he] at hlast <;> simp at hlast
  · exact hc hlast.symm
  · exact hc hlast.symm

end Path

namespace Document

/-- A generation that was read is in range. -/
theorem generation_le_of_ofText? {text : String} {r : Resource} (h : ofText? text = some r) :
    r.metadata.generation ≤ maxGeneration := by
  simp only [ofText?, resource?, metadata?, Record.required?, Option.bind_eq_bind,
    Option.bind_eq_some_iff] at h
  obtain ⟨j, -, f, -, m, ⟨t, -, fm, -, name, -, ns, -, uid, -, generation, hg, created, -, deletion,
    -, finalizers, -, hm⟩, spec, -, status, -, hr⟩ := h
  cases hr
  cases hm
  rw [default?_eq_elim] at hg
  cases hf : fm "generation" with
  | none =>
    rw [hf] at hg
    cases hg
    exact Nat.zero_le _
  | some t =>
    rw [hf] at hg
    simp only [Option.elim, Record.natural?] at hg
    split at hg
    · have := (Option.filter_eq_some_iff.mp hg).2
      exact Nat.le_of_lt_succ (by simpa using this)
    · cases hg

end Document

namespace Store
open FileTree StackKeeper.Path

variable {s : Store} {l : Locator} {r stored : Resource}

/-! ## Documents -/

theorem isOrdinary_fileName_documentPath (base : Path) (l : Locator) :
    IsOrdinary (documentPath base l).fileName := by
  obtain ⟨stem, hs⟩ := fileName_join (Path.join base l.ns) l.name
    (show "." ++ extension ≠ "" by decide) (by decide)
  rw [documentPath, String.append_assoc, hs]
  exact isOrdinary_append (c := 'n') (by decide) (by decide)

def temporaryName (document : Path) : String :=
  (splitExtension document.fileName).1 ++ "." ++ temporaryExtension

theorem isOrdinary_temporaryName (document : Path) : IsOrdinary (temporaryName document) := by
  rw [temporaryName, String.append_assoc]
  exact isOrdinary_append (c := 'p') (by decide) (by decide)

/-- No document has the name under which one is written first. -/
theorem temporaryName_ne_fileName (document base : Path) (l : Locator) :
    temporaryName document ≠ (documentPath base l).fileName := by
  obtain ⟨stem, hs⟩ := fileName_join (Path.join base l.ns) l.name
    (show "." ++ extension ≠ "" by decide) (by decide)
  intro h
  have hlast := congrArg (fun c : String => c.toList.getLast?) h
  rw [documentPath, String.append_assoc, hs, temporaryName, String.append_assoc] at hlast
  simp [String.toList_append, temporaryExtension, extension, List.getLast?_append] at hlast

theorem writeSteps_eq_replaceSteps (base : Path) (r : Resource) :
    writeSteps base r = replaceSteps (documentPath base r.locator)
      (temporaryName (documentPath base r.locator)) (Document.text r) := rfl

theorem get_eq_ok_iff : s.get l = .ok r ↔
    ∃ text, s.files.read (documentPath s.base l) = .ok text ∧ Document.ofText? text = some r := by
  rw [get]
  cases s.files.read (documentPath s.base l) with
  | error f => cases f <;> simp
  | ok text => cases h : Document.ofText? text <;> simp [h]

theorem get_of_missing (h : s.files.read (documentPath s.base l) = .error .missing) :
    s.get l = .error (.resourceNotFound l.text) := by
  rw [get, h]

theorem create_of_missing {s' : Store} {uid : String} {now : Instant}
    (hread : s.files.read (documentPath s.base r.locator) = .error .missing)
    (hwrite : s.perform (writeSteps s.base (incarnate r uid now)) = (.ok (), s')) :
    s.create r uid now = (.ok (incarnate r uid now), s') := by
  rw [create, get_of_missing hread]
  simp only [Error.isNotFound, if_true, hwrite]

theorem generation_le_of_get (h : s.get l = .ok r) : r.metadata.generation ≤ maxGeneration := by
  obtain ⟨text, -, ht⟩ := get_eq_ok_iff.mp h
  exact Document.generation_le_of_ofText? ht

theorem generation_revise_le (h : stored.metadata.generation ≤ maxGeneration) :
    (revise stored r).metadata.generation ≤ maxGeneration := by
  simp only [revise]
  split <;> omega

/-! ## The incarnation that a write is meant for -/

theorem incarnation_eq_ok_iff : s.incarnation r = .ok stored ↔
    s.get r.locator = .ok stored ∧ stored.metadata.uid = r.metadata.uid := by
  rw [incarnation]
  cases hget : s.get r.locator with
  | error e => simp
  | ok other =>
    by_cases huid : other.metadata.uid = r.metadata.uid
    · simp only [huid, if_true, Except.ok.injEq]
      constructor
      · rintro rfl
        exact ⟨rfl, huid⟩
      · exact fun h => h.1
    · simp only [huid, if_false, Except.ok.injEq, reduceCtorEq, false_iff, not_and]
      rintro rfl
      exact huid

theorem incarnation_of_get (hget : s.get l = .ok stored) (hl : r.locator = l)
    (huid : stored.metadata.uid = r.metadata.uid) : s.incarnation r = .ok stored :=
  incarnation_eq_ok_iff.mpr ⟨hl.symm ▸ hget, huid⟩

theorem updateStatus_of_incarnation (h : s.incarnation r = .ok stored) :
    s.updateStatus r = s.perform (writeSteps s.base (stored.withStatus r.status)) := by
  rw [updateStatus, h]

theorem update_of_incarnation (h : s.incarnation r = .ok stored) :
    s.update r = s.perform (if isReleased (revise stored r) = true
      then removeSteps s.base r.locator else writeSteps s.base (revise stored r)) := by
  rw [update, h, apply_ite s.perform]

/-- A write that is meant for another incarnation changes nothing. -/
theorem refused_of_incarnation {e : Error} (h : s.incarnation r = .error e) :
    s.updateStatus r = (.error e, s) ∧ s.update r = (.error e, s) := by
  constructor
  · rw [updateStatus, h]
  · rw [update, h]

/-! ## Writes to a stored resource -/

/-- Whatever step fails and for whatever cause, the error is one of input and output. -/
theorem exists_failure (cause : String) (step : FileTree.Step) :
    ∃ reason, failure cause step = .storeIo reason := by
  cases step <;> exact ⟨_, rfl⟩

/-- Writing over a document either takes its place or changes nothing. -/
theorem perform_writeSteps (hget : s.get l = .ok stored) (hl : r.locator = l)
    (hg : r.metadata.generation ≤ maxGeneration) :
    (∃ s', s.perform (writeSteps s.base r) = (.ok (), s') ∧ s'.get l = .ok r) ∨
      ∃ reason, s.perform (writeSteps s.base r) = (.error (.storeIo reason), s) := by
  subst hl
  obtain ⟨old, hread, -⟩ := get_eq_ok_iff.mp hget
  rcases applyAll_replace (Document.text r) (isOrdinary_fileName_documentPath s.base r.locator)
    (isOrdinary_temporaryName _) (temporaryName_ne_fileName _ _ _) hread with ⟨t, ht, hr⟩ | ⟨f, hf⟩
  · refine .inl ⟨{ s with files := t }, ?_, get_eq_ok_iff.mpr ⟨_, hr, Document.ofText?_text hg⟩⟩
    rw [perform, writeSteps_eq_replaceSteps, ht]
  · right
    obtain ⟨reason, hreason⟩ := exists_failure f.2.text f.1
    refine ⟨reason, ?_⟩
    rw [perform, writeSteps_eq_replaceSteps, hf, ← hreason]

theorem perform_removeSteps (hget : s.get l = .ok stored) :
    ∃ s', s.perform (removeSteps s.base l) = (.ok (), s') ∧
      s'.get l = .error (.resourceNotFound l.text) := by
  obtain ⟨old, hread, -⟩ := get_eq_ok_iff.mp hget
  obtain ⟨t, ht, hr⟩ := applyAll_remove (isOrdinary_fileName_documentPath s.base l) hread
  refine ⟨{ s with files := t }, ?_, ?_⟩
  · rw [perform, removeSteps, ht]
  · rw [get]
    simp only [hr]

theorem updateStatus_of_get (hget : s.get l = .ok stored) (hown : stored.locator = l)
    (hl : r.locator = l) (huid : stored.metadata.uid = r.metadata.uid) :
    (∃ s', s.updateStatus r = (.ok (), s') ∧ s'.get l = .ok (stored.withStatus r.status)) ∨
      ∃ reason, s.updateStatus r = (.error (.storeIo reason), s) := by
  rw [updateStatus_of_incarnation (incarnation_of_get hget hl huid)]
  exact perform_writeSteps hget hown (generation_le_of_get (r := stored) hget)

theorem update_of_get (hget : s.get l = .ok stored) (hown : stored.locator = l)
    (hl : r.locator = l) (huid : stored.metadata.uid = r.metadata.uid) :
    (isReleased (revise stored r) = true ∧ ∃ s', s.update r = (.ok (), s') ∧
        s'.get l = .error (.resourceNotFound l.text)) ∨
      (isReleased (revise stored r) = false ∧
        ((∃ s', s.update r = (.ok (), s') ∧ s'.get l = .ok (revise stored r)) ∨
          ∃ reason, s.update r = (.error (.storeIo reason), s))) := by
  have hgen := generation_revise_le (r := r) (generation_le_of_get hget)
  rw [update_of_incarnation (incarnation_of_get hget hl huid)]
  cases isReleased (revise stored r) with
  | true =>
    rw [if_pos rfl, hl]
    exact .inl ⟨rfl, perform_removeSteps hget⟩
  | false =>
    rw [if_neg Bool.false_ne_true]
    exact .inr ⟨rfl, perform_writeSteps hget hown hgen⟩

/-! ## Writes in general -/

/-- A write meant for a resource that is not stored, or for another incarnation, changes nothing. -/
theorem incarnation_cases (hl : r.locator = l) :
    (∃ e, s.incarnation r = .error e) ∨
      ∃ stored, s.get l = .ok stored ∧ stored.metadata.uid = r.metadata.uid ∧
        s.incarnation r = .ok stored := by
  cases hinc : s.incarnation r with
  | error e => exact .inl ⟨e, rfl⟩
  | ok stored =>
    obtain ⟨hget, huid⟩ := incarnation_eq_ok_iff.mp hinc
    exact .inr ⟨stored, hl ▸ hget, huid, rfl⟩

theorem updateStatus_cases (hl : r.locator = l)
    (hown : ∀ stored, s.get l = .ok stored → stored.locator = l) :
    (∃ e, s.updateStatus r = (.error e, s)) ∨
      ∃ stored s', s.get l = .ok stored ∧ stored.metadata.uid = r.metadata.uid ∧
        s.updateStatus r = (.ok (), s') ∧ s'.get l = .ok (stored.withStatus r.status) := by
  rcases incarnation_cases (s := s) hl with ⟨e, he⟩ | ⟨stored, hget, huid, -⟩
  · exact .inl ⟨e, (refused_of_incarnation he).1⟩
  · rcases updateStatus_of_get hget (hown stored hget) hl huid with
      ⟨s', hs', hget'⟩ | ⟨reason, h⟩
    · exact .inr ⟨stored, s', hget, huid, hs', hget'⟩
    · exact .inl ⟨_, h⟩

theorem update_cases (hl : r.locator = l)
    (hown : ∀ stored, s.get l = .ok stored → stored.locator = l) :
    (∃ e, s.update r = (.error e, s)) ∨
      ∃ stored s', s.get l = .ok stored ∧ stored.metadata.uid = r.metadata.uid ∧
        s.update r = (.ok (), s') ∧
        (s'.get l = .ok (revise stored r) ∨ s'.get l = .error (.resourceNotFound l.text)) := by
  rcases incarnation_cases (s := s) hl with ⟨e, he⟩ | ⟨stored, hget, huid, -⟩
  · exact .inl ⟨e, (refused_of_incarnation he).2⟩
  · rcases update_of_get hget (hown stored hget) hl huid with
      ⟨-, s', hs', hget'⟩ | ⟨-, ⟨s', hs', hget'⟩ | ⟨reason, h⟩⟩
    · exact .inr ⟨stored, s', hget, huid, hs', .inr hget'⟩
    · exact .inr ⟨stored, s', hget, huid, hs', .inl hget'⟩
    · exact .inl ⟨_, h⟩

/-! ## Accepted writes -/

theorem incarnation_of_update_ok {s' : Store} (h : s.update r = (.ok (), s')) :
    ∃ stored, s.incarnation r = .ok stored := by
  cases hinc : s.incarnation r with
  | error e => cases (refused_of_incarnation hinc).2.symm.trans h
  | ok stored => exact ⟨stored, rfl⟩

theorem incarnation_of_updateStatus_ok {s' : Store} (h : s.updateStatus r = (.ok (), s')) :
    ∃ stored, s.incarnation r = .ok stored := by
  cases hinc : s.incarnation r with
  | error e => cases (refused_of_incarnation hinc).1.symm.trans h
  | ok stored => exact ⟨stored, rfl⟩

/-- An accepted update is read back as the revised resource, or it removed the resource. -/
theorem get_of_update_ok {s' : Store} (hget : s.get l = .ok stored) (hown : stored.locator = l)
    (hl : r.locator = l) (h : s.update r = (.ok (), s')) :
    stored.metadata.uid = r.metadata.uid ∧ s'.get l =
      if isReleased (revise stored r) = true then .error (.resourceNotFound l.text)
      else .ok (revise stored r) := by
  obtain ⟨other, hinc⟩ := incarnation_of_update_ok h
  obtain ⟨hother, huid⟩ := incarnation_eq_ok_iff.mp hinc
  rw [hl, hget] at hother
  cases hother
  refine ⟨huid, ?_⟩
  rcases update_of_get hget hown hl huid with
    ⟨hrel, s₁, hs₁, hr⟩ | ⟨hrel, ⟨s₁, hs₁, hr⟩ | ⟨reason, hs₁⟩⟩
  · cases hs₁.symm.trans h
    rw [if_pos hrel, hr]
  · cases hs₁.symm.trans h
    rw [if_neg (by simp [hrel]), hr]
  · cases hs₁.symm.trans h

/-- An accepted status update is read back. -/
theorem get_of_updateStatus_ok {s' : Store} (hget : s.get l = .ok stored)
    (hown : stored.locator = l) (hl : r.locator = l) (h : s.updateStatus r = (.ok (), s')) :
    stored.metadata.uid = r.metadata.uid ∧ s'.get l = .ok (stored.withStatus r.status) := by
  obtain ⟨other, hinc⟩ := incarnation_of_updateStatus_ok h
  obtain ⟨hother, huid⟩ := incarnation_eq_ok_iff.mp hinc
  rw [hl, hget] at hother
  cases hother
  refine ⟨huid, ?_⟩
  rcases updateStatus_of_get hget hown hl huid with ⟨s₁, hs₁, hr⟩ | ⟨reason, hs₁⟩
  · cases hs₁.symm.trans h
    exact hr
  · cases hs₁.symm.trans h

/-! ## Documents that can be replaced -/

/-- Whether the file by way of which a document is written has an allowed name and is no directory. -/
def IsReplaceable (s : Store) (l : Locator) : Prop :=
  isName (temporaryName (documentPath s.base l)) = true ∧
    ∀ dir, s.files.follow [] (documentPath s.base l).parent = .ok dir →
      s.files.entryAt? (dir ++ [temporaryName (documentPath s.base l)]) ≠ some .directory

theorem perform_of_isReplaceable (h : s.IsReplaceable l) (hget : s.get l = .ok stored)
    (hl : r.locator = l) (hg : r.metadata.generation ≤ maxGeneration) :
    ∃ s', s.perform (writeSteps s.base r) = (.ok (), s') ∧ s'.get l = .ok r ∧
      s'.IsReplaceable l := by
  subst hl
  have ho := isOrdinary_fileName_documentPath s.base r.locator
  obtain ⟨old, hread, -⟩ := get_eq_ok_iff.mp hget
  obtain ⟨dir, hf, hp, hold⟩ := (read_eq_ok_iff ho).mp hread
  obtain ⟨t, ht, hr, hs⟩ := applyAll_replace_ok (Document.text r) ho (isOrdinary_temporaryName _)
    (temporaryName_ne_fileName _ _ _) hf hp hold h.1 (h.2 dir hf)
  refine ⟨{ s with files := t }, ?_, get_eq_ok_iff.mpr ⟨_, hr, Document.ofText?_text hg⟩, h.1, ?_⟩
  · rw [perform, writeSteps_eq_replaceSteps, ht]
  · intro dir' hf' hd
    exact h.2 dir' (follow_of_sameDirectories hs.symm hf') ((hs _).mpr hd)

/-- A status update of a replaceable document is accepted. -/
theorem updateStatus_of_isReplaceable (h : s.IsReplaceable l) (hget : s.get l = .ok stored)
    (hown : stored.locator = l) (hl : r.locator = l)
    (huid : stored.metadata.uid = r.metadata.uid) :
    ∃ s', s.updateStatus r = (.ok (), s') ∧ s'.get l = .ok (stored.withStatus r.status) ∧
      s'.IsReplaceable l := by
  rw [updateStatus_of_incarnation (incarnation_of_get hget hl huid)]
  exact perform_of_isReplaceable h hget hown (generation_le_of_get (r := stored) hget)

/-- An update of a replaceable document that does not release the resource is accepted. -/
theorem update_of_isReplaceable (h : s.IsReplaceable l) (hget : s.get l = .ok stored)
    (hown : stored.locator = l) (hl : r.locator = l)
    (huid : stored.metadata.uid = r.metadata.uid) (hrel : isReleased (revise stored r) = false) :
    ∃ s', s.update r = (.ok (), s') ∧ s'.get l = .ok (revise stored r) ∧ s'.IsReplaceable l := by
  have hgen := generation_revise_le (r := r) (generation_le_of_get hget)
  rw [update_of_incarnation (incarnation_of_get hget hl huid), if_neg (by simp [hrel])]
  exact perform_of_isReplaceable h hget hown hgen

/-! ## A store with one document -/

def webLocator : Locator := ⟨"default", "web"⟩

/-- A store with one document of the given text. -/
def webStore (text : String) : Store where
  base := ["state"]
  files := ⟨[(["state", "default", "web.json"], .file text), (["state", "default"], .directory),
    (["state"], .directory)]⟩

theorem documentPath_webLocator :
    documentPath ["state"] webLocator = ["state", "default", "web.json"] := by decide

theorem get_webStore (h : r.metadata.generation ≤ maxGeneration) :
    (webStore (Document.text r)).get webLocator = .ok r := by
  refine get_eq_ok_iff.mpr ⟨Document.text r, ?_, Document.ofText?_text h⟩
  show (webStore (Document.text r)).files.read (documentPath ["state"] webLocator) = _
  rw [documentPath_webLocator]
  rfl

theorem locatorsIn_webStore (text : String) :
    (webStore text).locatorsIn "default" = .ok [webLocator] := by
  have hbase : (webStore text).base ++ ["default"] = ["state", "default"] := rfl
  have hdir : (webStore text).files.isDirectory ["state", "default"] = true := rfl
  have hnames : (webStore text).files.list ["state", "default"] = .ok ["web.json"] := rfl
  have hname : locatorOfPath? ["default", "web.json"] = some webLocator := by decide
  rw [locatorsIn, hbase, if_pos hdir, hnames]
  simp [hname]

theorem list_webStore (text : String) : (webStore text).list = .ok [webLocator] := by
  have hbase : (webStore text).base = ["state"] := rfl
  have hnames : (webStore text).files.list ["state"] = .ok ["default"] := rfl
  have hgroups : ["default"].mapM (webStore text).locatorsIn = .ok [[webLocator]] := by
    rw [List.mapM_cons, locatorsIn_webStore]
    rfl
  rw [list, hbase, hnames]
  simp [hgroups]

theorem perform_webStore (text : String) (hl : r.locator = webLocator) :
    (webStore text).perform (writeSteps ["state"] r) = (.ok (), webStore (Document.text r)) := by
  have hname : temporaryName ["state", "default", "web.json"] = "web.tmp" := by decide
  rw [writeSteps_eq_replaceSteps, hl, documentPath_webLocator, hname]
  rfl

theorem incarnation_webStore (hg : stored.metadata.generation ≤ maxGeneration)
    (hl : r.locator = webLocator) (huid : stored.metadata.uid = r.metadata.uid) :
    (webStore (Document.text stored)).incarnation r = .ok stored :=
  incarnation_of_get (get_webStore hg) hl huid

theorem updateStatus_webStore (hg : stored.metadata.generation ≤ maxGeneration)
    (hown : stored.locator = webLocator) (hmeta : r.metadata = stored.metadata) :
    (webStore (Document.text stored)).updateStatus r =
      (.ok (), webStore (Document.text (stored.withStatus r.status))) := by
  have hl : r.locator = webLocator := by rw [← hown, Resource.locator, hmeta, Resource.locator]
  rw [updateStatus_of_incarnation (incarnation_webStore hg hl (by rw [hmeta]))]
  exact perform_webStore _ hown

theorem update_webStore (hg : stored.metadata.generation ≤ maxGeneration)
    (hown : stored.locator = webLocator) (hl : r.locator = webLocator)
    (huid : stored.metadata.uid = r.metadata.uid) (hrel : isReleased (revise stored r) = false) :
    (webStore (Document.text stored)).update r =
      (.ok (), webStore (Document.text (revise stored r))) := by
  have hown' : (revise stored r).locator = webLocator := hown
  rw [update_of_incarnation (incarnation_webStore hg hl huid), if_neg (by simp [hrel])]
  exact perform_webStore _ hown'

theorem isReplaceable_webStore (text : String) : (webStore text).IsReplaceable webLocator := by
  have hname : temporaryName ["state", "default", "web.json"] = "web.tmp" := by decide
  have hpath : documentPath (webStore text).base webLocator = ["state", "default", "web.json"] :=
    documentPath_webLocator
  rw [IsReplaceable, hpath, hname]
  refine ⟨by decide, fun dir hdir => ?_⟩
  have hfollow : (webStore text).files.follow [] ["state", "default"] = .ok ["state", "default"] := rfl
  cases hfollow.symm.trans hdir
  simp [entryAt?, webStore]

end Store
end StackKeeper
