import StackKeeper.Proofs.Lifecycle
import StackKeeper.Proofs.StoreAnswers
import StackKeeper.Rehearsal.World
/-!
# What a write that fails leaves

A write is refused before it does anything, or its steps are done in order up to the first that is
seen to fail, for whatever reason. Such a write leaves directories and a temporary file, and no
document is a directory or a temporary file. So the listing is what it was, every document is what it
was and no change is published. Only a locator that was missing can be answered otherwise, when a
directory or the temporary file is now where its document would be looked for.

A failure that is not seen is another matter. When the last piece of the content is lost the write goes
on: it moves what there is of the document into place, publishes the change and reports success.

Results:
* `take_eq_plan`, `plan_cases`: a write is refused, or it takes the steps that write or remove its
  document.
* `IsSited.after_cutOff`, `IsSited.after_slips`, `IsSited.after_applyAll`: what these steps leave of a
  store when they are cut off, when a loss goes unnoticed, and done.
* `ends_take`: what a write does by itself is one of its ends.
* `traceless_iff_reported`: a write that failed leaves no trace exactly if it reports the failure.
* `exists_lost`: every document that can be written can be lost in writing.
* `traces_of_writes`: an update that reports success and has lost the document, and the traces that are
  left where a locator was missing, where the base directory climbs or cannot be made, and where a
  document names another locator than its own.
-/
namespace StackKeeper

namespace Store
open FileTree StackKeeper.Path

variable {s s' : Store} {w : Write} {l m : Locator} {r stored : Resource} {e : Error}
  {steps : List Step} {failing : Step} {t : FileTree} {names : List String} {piece : Nat}

/-! ## What a write is about to do -/

/-- The steps that a write takes, or why it is refused. -/
def plan (s : Store) : Write → Except Error (List Step)
  | .create r uid now =>
    match s.get r.locator with
    | .ok _ => .error (.resourceExists r.locator.text)
    | .error e => if e.isNotFound then .ok (writeSteps s.base (incarnate r uid now)) else .error e
  | .update r =>
    (s.incarnation r).map fun stored =>
      if isReleased (revise stored r) then removeSteps s.base r.locator
      else writeSteps s.base (revise stored r)
  | .updateStatus r =>
    (s.incarnation r).map fun stored => writeSteps s.base (stored.withStatus r.status)

theorem take_eq_plan (s : Store) (w : Write) :
    s.take w =
      match s.plan w with
      | .error e => (.error e, s)
      | .ok steps => s.perform steps := by
  cases w with
  | create r uid now =>
    rw [take, create, plan]
    cases s.get r.locator with
    | ok x => rfl
    | error e =>
      cases hmissing : e.isNotFound with
      | false =>
        simp only [hmissing, Bool.false_eq_true, if_false]
        rfl
      | true =>
        simp only [hmissing, if_true]
        rcases s.perform (writeSteps s.base (incarnate r uid now)) with ⟨answer, s'⟩
        cases answer <;> rfl
  | update r =>
    rw [take, update, plan]
    cases s.incarnation r with
    | error e => rfl
    | ok stored =>
      simp only [Except.map]
      split <;> rfl
  | updateStatus r =>
    rw [take, updateStatus, plan]
    cases s.incarnation r <;> rfl

theorem eq_of_isNotFound (h : s.get l = .error e) (he : e.isNotFound = true) :
    e = .resourceNotFound l.text := by
  rw [get] at h
  split at h
  · exact (Except.error.inj h).symm
  · cases h
    cases he
  · split at h
    · cases h
    · cases h
      cases he

/-- What a write that is not refused is about to do: its document was missing or could be read, and is
written or removed. -/
theorem plan_cases (hown : ∀ r, s.get w.locator = .ok r → r.locator = w.locator)
    (h : s.plan w = .ok steps) :
    (s.get w.locator = .error (.resourceNotFound w.locator.text) ∨
        ∃ r, s.get w.locator = .ok r) ∧
      ((∃ r : Resource, r.locator = w.locator ∧ r.metadata.generation ≤ maxGeneration ∧
          steps = writeSteps s.base r) ∨
        (∃ r, s.get w.locator = .ok r) ∧ steps = removeSteps s.base w.locator) := by
  cases w with
  | create r uid now =>
    rw [plan] at h
    cases hget : s.get r.locator with
    | ok x => simp [hget] at h
    | error e =>
      rw [hget] at h
      dsimp only at h
      split at h
      · rename_i hmissing
        cases h
        refine ⟨.inl ?_, .inl ⟨incarnate r uid now, rfl, (by decide : 1 ≤ maxGeneration), rfl⟩⟩
        show s.get r.locator = .error (.resourceNotFound r.locator.text)
        rw [hget, eq_of_isNotFound hget hmissing]
      · cases h
  | update r =>
    rw [plan] at h
    cases hinc : s.incarnation r with
    | error e => simp [hinc, Except.map] at h
    | ok x =>
      obtain ⟨hget, -⟩ := incarnation_eq_ok_iff.mp hinc
      rw [hinc, Except.map, Except.ok.injEq] at h
      refine ⟨.inr ⟨x, hget⟩, ?_⟩
      split at h
      · exact .inr ⟨⟨x, hget⟩, h.symm⟩
      · exact .inl ⟨revise x r, hown x hget, generation_revise_le (generation_le_of_get hget), h.symm⟩
  | updateStatus r =>
    rw [plan] at h
    cases hinc : s.incarnation r with
    | error e => simp [hinc, Except.map] at h
    | ok x =>
      obtain ⟨hget, -⟩ := incarnation_eq_ok_iff.mp hinc
      rw [hinc, Except.map, Except.ok.injEq] at h
      have hg := generation_le_of_get hget
      exact ⟨.inr ⟨x, hget⟩, .inl ⟨x.withStatus r.status, hown x hget, hg, h.symm⟩⟩

/-! ## What a write changes -/

/-- Whether the files of a store are as a file system has them, and its base directory, as far as it is
missing, can be made by its names. -/
structure IsSited (s : Store) : Prop where
  tree : s.files.IsTree
  paths : s.files.HasOnePaths
  written : s.base.IsWritten
  clear : s.files.IsClear s.base

theorem IsSited.neverClimbs (hs : s.IsSited) (hm : m.IsPlain) :
    s.files.NeverClimbs (documentPath s.base m).parent := by
  rw [parent_documentPath hm]
  exact hs.clear.neverClimbs.append_single hm.2.2.2

/-- A write that is not refused is to a store that can be looked into. -/
theorem IsSited.isGrounded (hs : s.IsSited) (hm : m.IsPlain)
    (hget : s.get m = .error (.resourceNotFound m.text) ∨ ∃ r, s.get m = .ok r) : s.IsGrounded := by
  refine ⟨hs.tree, hs.paths, hs.written, hs.clear.isAnchored hs.tree fun why hf => ?_⟩
  have hrefused := get_of_follow_refused hm (follow_append_error hf (single m.ns))
  rcases hget with hget | ⟨r, hget⟩
  · cases hget.symm.trans hrefused
  · cases hget.symm.trans hrefused

theorem IsGrounded.of_alters (hs : s.IsGrounded) (hclear : s.files.IsClear s.base)
    (h : Alters (namespaceDirectory s.base m) names s.files t) (ht : t.IsTree)
    (hp : t.HasOnePaths) : ({ s with files := t } : Store).IsGrounded :=
  ⟨ht, hp, hs.written, hclear.isAnchored_of_alters hs.tree ht hs.anchored h (List.prefix_append _ _)⟩

theorem IsSited.of_alters (hs : s.IsSited) (hg : s.IsGrounded)
    (h : Alters (namespaceDirectory s.base m) names s.files t) (ht : t.IsTree)
    (hp : t.HasOnePaths) : ({ s with files := t } : Store).IsSited :=
  ⟨ht, hp, hs.written, hs.clear.of_keepsDirectories hg.anchored h.keepsDirectories⟩

theorem alters_of_write (hs : s.IsSited) (hm : r.locator.IsPlain)
    (h : s.files.applyAll (writeSteps s.base r) = (.ok (), t)) :
    Alters (namespaceDirectory s.base r.locator) [temporaryOf r.locator, documentName r.locator]
      s.files t := by
  rw [writeSteps_eq_replaceSteps] at h
  have halters := alters_of_replace (hs.neverClimbs hm)
    (isOrdinary_fileName_documentPath s.base r.locator) (isOrdinary_temporaryName _)
    (temporaryName_ne_fileName _ s.base r.locator) h
  rwa [resolve_parent_documentPath hm, temporaryName_documentPath hm, fileName_documentPath hm]
    at halters

theorem alters_of_cutOff_write (hs : s.IsSited) (hm : r.locator.IsPlain)
    (h : s.files.CutOff piece (writeSteps s.base r) failing t) :
    Alters (namespaceDirectory s.base r.locator) [temporaryOf r.locator] s.files t ∧
      KeepsEntries s.files t := by
  rw [writeSteps_eq_replaceSteps] at h
  have halters := alters_of_cutOff_replace (hs.neverClimbs hm) (isOrdinary_temporaryName _) h
  rwa [resolve_parent_documentPath hm, temporaryName_documentPath hm] at halters

theorem alters_of_slips_write (hs : s.IsSited) (hm : r.locator.IsPlain)
    (h : s.files.Slips piece (writeSteps s.base r) t) :
    Alters (namespaceDirectory s.base r.locator) [temporaryOf r.locator, documentName r.locator]
        s.files t ∧
      ∃ n, lastPiece piece (Document.text r) ≤ n ∧ n < (Document.text r).utf8ByteSize ∧
        t.entryAt? (place s.base r.locator) = some (cut (Document.text r) n) := by
  rw [writeSteps_eq_replaceSteps] at h
  have halters := alters_of_slips_replace (hs.neverClimbs hm)
    (isOrdinary_fileName_documentPath s.base r.locator) (isOrdinary_temporaryName _)
    (temporaryName_ne_fileName _ s.base r.locator) h
  rwa [resolve_parent_documentPath hm, temporaryName_documentPath hm, fileName_documentPath hm]
    at halters

theorem alters_of_remove (hm : m.IsPlain)
    (h : s.files.applyAll (removeSteps s.base m) = (.ok (), t)) :
    Alters (namespaceDirectory s.base m) [temporaryOf m, documentName m] s.files t := by
  have htouch := touchesOnly_remove (t := s.files) (isOrdinary_fileName_documentPath s.base m)
  rw [removeSteps] at h
  rw [h, resolve_parent_documentPath hm, fileName_documentPath hm] at htouch
  intro p
  rcases htouch p with he | ⟨hmem, hno, hno'⟩
  · exact .inl he
  · exact .inr (.inr ⟨⟨_, by simp, List.mem_singleton.mp hmem⟩, hno, hno'⟩)

/-- What a write leaves of a store whose steps are cut off: a store of the same kind, in which nothing
but directories and the temporary file has changed. -/
theorem IsSited.after_cutOff (hs : s.IsSited) (hl : w.locator.IsPlain)
    (hown : ∀ r, s.get w.locator = .ok r → r.locator = w.locator)
    (h : s.plan w = .ok steps) (hc : s.files.CutOff piece steps failing t) :
    s.IsGrounded ∧ ({ s with files := t } : Store).IsSited ∧
      Alters (namespaceDirectory s.base w.locator) [temporaryOf w.locator] s.files t ∧
      KeepsEntries s.files t := by
  obtain ⟨hget, hsteps⟩ := plan_cases hown h
  have hg := hs.isGrounded hl hget
  obtain ⟨r, hr, -, rfl⟩ | ⟨-, rfl⟩ := hsteps
  · rw [← hr] at hl ⊢
    obtain ⟨halters, hkeeps⟩ := alters_of_cutOff_write hs hl hc
    exact ⟨hg, hs.of_alters hg halters (hs.tree.cutOff (isWritten_writeSteps hs.written r) hc)
      (hs.paths.cutOff hc), halters, hkeeps⟩
  · rw [eq_of_cutOff_remove hc]
    exact ⟨hg, hs, fun _ => .inl rfl, .refl _⟩

/-- What a write leaves of a store when a part of the document is lost and nobody is told: a store of
the same kind, in which the document is cut off in its last piece. -/
theorem IsSited.after_slips (hs : s.IsSited) (hl : w.locator.IsPlain)
    (hown : ∀ r, s.get w.locator = .ok r → r.locator = w.locator)
    (h : s.plan w = .ok steps) (hc : s.files.Slips piece steps t) :
    s.IsGrounded ∧ ({ s with files := t } : Store).IsSited ∧
      Alters (namespaceDirectory s.base w.locator) [temporaryOf w.locator, documentName w.locator]
        s.files t ∧
      ∃ r n, s.plan w = .ok (writeSteps s.base r) ∧ r.locator = w.locator ∧
        lastPiece piece (Document.text r) ≤ n ∧ n < (Document.text r).utf8ByteSize ∧
        t.entryAt? (place s.base w.locator) = some (cut (Document.text r) n) := by
  obtain ⟨hget, hsteps⟩ := plan_cases hown h
  have hg := hs.isGrounded hl hget
  obtain ⟨r, hr, -, rfl⟩ | ⟨-, rfl⟩ := hsteps
  · rw [← hr] at hl ⊢
    obtain ⟨halters, n, hpiece, hn, hcut⟩ := alters_of_slips_write hs hl hc
    exact ⟨hg, hs.of_alters hg halters (hs.tree.slips (isWritten_writeSteps hs.written r) hc)
      (hs.paths.slips hc), halters, r, n, h, rfl, hpiece, hn, hcut⟩
  · exact absurd hc not_slips_remove

/-- What a write leaves of a store whose steps are all done. -/
theorem IsSited.after_applyAll (hs : s.IsSited) (hl : w.locator.IsPlain)
    (hown : ∀ r, s.get w.locator = .ok r → r.locator = w.locator)
    (h : s.plan w = .ok steps) (ht : s.files.applyAll steps = (.ok (), t)) :
    s.IsGrounded ∧ ({ s with files := t } : Store).IsSited ∧
      Alters (namespaceDirectory s.base w.locator) [temporaryOf w.locator, documentName w.locator]
        s.files t := by
  obtain ⟨hget, hsteps⟩ := plan_cases hown h
  have hg := hs.isGrounded hl hget
  have hwritten : ∀ step ∈ steps, step.IsWritten := by
    rcases hsteps with ⟨r, -, -, rfl⟩ | ⟨-, rfl⟩
    · exact isWritten_writeSteps hs.written r
    · rw [removeSteps, List.forall_mem_singleton]
      exact isWritten_documentPath hs.written w.locator
  have halters : Alters (namespaceDirectory s.base w.locator)
      [temporaryOf w.locator, documentName w.locator] s.files t := by
    rcases hsteps with ⟨r, hr, -, rfl⟩ | ⟨-, rfl⟩
    · rw [← hr] at hl ⊢
      exact alters_of_write hs hl ht
    · exact alters_of_remove hl ht
  have htree := hs.tree.applyAll hwritten
  have hpaths := hs.paths.applyAll steps
  rw [ht] at htree hpaths
  exact ⟨hg, hs.of_alters hg halters htree hpaths, halters⟩

/-! ## How a write ends -/

/-- What became of a write. -/
inductive Ending where
  | done
  /-- A part of the document was lost, and nobody is told. -/
  | lost
  | failed (e : Error)

def Ending.answer : Ending → Except Error Unit
  | done | lost => .ok ()
  | failed e => .error e

/-- How a write can end: it cannot read the document, it is refused, a step is seen to fail for a
reason that the files need not show, a loss goes unnoticed, or everything is done. -/
inductive Ends (piece : Nat) (s : Store) (w : Write) : Ending → Store → Prop
  | unread (cause : String) :
    Ends piece s w (.failed (failed ("read " ++ (documentPath s.base w.locator).text) cause)) s
  | refused {e : Error} (h : s.plan w = .error e) : Ends piece s w (.failed e) s
  | cutOff {steps : List Step} {failing : Step} {t : FileTree} (cause : String)
      (h : s.plan w = .ok steps) (hc : s.files.CutOff piece steps failing t) :
    Ends piece s w (.failed (failure cause failing)) { s with files := t }
  | lost {steps : List Step} {t : FileTree} (h : s.plan w = .ok steps)
      (hc : s.files.Slips piece steps t) : Ends piece s w .lost { s with files := t }
  | done {steps : List Step} {t : FileTree} (h : s.plan w = .ok steps)
      (hc : s.files.applyAll steps = (.ok (), t)) : Ends piece s w .done { s with files := t }

/-- What a write does by itself is one of its ends. -/
theorem ends_take (piece : Nat) (s : Store) (w : Write) :
    ∃ ending, s.Ends piece w ending (s.take w).2 ∧ ending.answer = (s.take w).1 ∧ ending ≠ .lost := by
  rw [take_eq_plan]
  cases hplan : s.plan w with
  | error e => exact ⟨.failed e, .refused hplan, rfl, by simp⟩
  | ok steps =>
    rcases happly : s.files.applyAll steps with ⟨result, t⟩
    simp only [perform, happly]
    cases result with
    | ok _ => exact ⟨.done, .done hplan happly, rfl, by simp⟩
    | error f =>
      exact ⟨_, .cutOff f.2.text hplan (cutOff_of_applyAll happly), rfl, by simp⟩

/-- Wherever a write can be done, any of its steps can be seen to fail. -/
theorem exists_failed (hplan : s.plan w = .ok steps) (hdone : s.Ends piece w .done s')
    (hmem : failing ∈ steps) (cause : String) :
    ∃ s'', s.Ends piece w (.failed (failure cause failing)) s'' := by
  cases hdone with
  | done hplan' happly =>
    cases hplan.symm.trans hplan'
    obtain ⟨t, hc⟩ := cutOff_of_mem happly hmem
    exact ⟨_, .cutOff cause hplan hc⟩

/-- A document that can be written can be lost in writing, and cannot be read afterwards: if it is
handed over in one piece, it may be empty. -/
theorem exists_lost (hown : ∀ r, s.get w.locator = .ok r → r.locator = w.locator)
    (hplan : s.plan w = .ok (writeSteps s.base r)) (hdone : s.Ends piece w .done s')
    (hsize : (Document.text r).utf8ByteSize ≤ piece) :
    ∃ s'', s.Ends piece w .lost s'' ∧
      s''.get w.locator = .error (corrupted (documentPath s.base w.locator)) := by
  cases hdone with
  | done hplan' happly =>
    cases hplan.symm.trans hplan'
    obtain ⟨-, ⟨r', hr', hg, hsteps⟩ | ⟨-, hsteps⟩⟩ := plan_cases hown hplan
    · obtain ⟨-, -, ⟨-, htext⟩, -, hpath⟩ : _ ∧ _ ∧ (_ ∧ Document.text r = Document.text r') ∧ _ ∧
          documentPath s.base r.locator = documentPath s.base r'.locator := by
        simpa [writeSteps] using hsteps
      have hempty : Document.ofText? "" = none := by decide
      have hpos : 0 < (Document.text r).utf8ByteSize := by
        rw [Nat.pos_iff_ne_zero, Ne, String.utf8ByteSize_eq_zero_iff, htext]
        intro hnothing
        have hread := Document.ofText?_text hg
        rw [hnothing, hempty] at hread
        cases hread
      have hpiece : lastPiece piece (Document.text r) ≤ 0 := by
        rw [lastPiece, Nat.div_eq_of_lt (by omega), Nat.zero_mul]
      rw [writeSteps_eq_replaceSteps] at happly
      obtain ⟨t, hslips, hfind⟩ := slips_of_applyAll_replace
        (isOrdinary_fileName_documentPath s.base r.locator) (isOrdinary_temporaryName _)
        (temporaryName_ne_fileName _ _ _) hpiece hpos happly
      refine ⟨_, .lost hplan (by rwa [writeSteps_eq_replaceSteps]), ?_⟩
      rw [hpath, hr', cut_zero] at hfind
      rw [get]
      simp only [FileTree.read, hfind, hempty]
    · simp [writeSteps, removeSteps] at hsteps

end Store

namespace World
open Store FileTree

variable {x x' : World} {w : Write} {m : Locator} {steps : List Step} {failing : Step}
  {t : FileTree} {piece : Nat} {ending : Ending}

/-- A write to the store of a world: the answer, and the world after it. -/
def take (x : World) : Write → Except Error Unit × World
  | .create r uid now => ((x.create r uid now).1.map fun _ => (), (x.create r uid now).2)
  | .update r => x.serve (.updateResource r)
  | .updateStatus r => x.serve (.updateStatus r)

theorem take_eq_afterWrite (x : World) (w : Write) :
    x.take w = x.afterWrite w.locator (x.store.take w) := by
  cases w with
  | create r uid now =>
    rw [take, create, Store.take]
    rcases x.store.create r uid now with ⟨answer, s⟩
    cases answer <;> rfl
  | update r => rfl
  | updateStatus r => rfl

/-- How a write to the store of a world can end; the change is published if the write says that it
is done. -/
def Ends (piece : Nat) (x : World) (w : Write) (ending : Ending) (x' : World) : Prop :=
  ∃ s', x.store.Ends piece w ending s' ∧ x' = (x.afterWrite w.locator (ending.answer, s')).2

/-- What a write to a locator that failed leaves of a world. -/
structure Traceless (m : Locator) (x x' : World) : Prop where
  listed : x'.store.list = x.store.list
  known : ∀ l : Locator, x.store.get l ≠ .error (.resourceNotFound l.text) →
    x'.store.get l = x.store.get l
  missing : ∀ l : Locator, l.IsPlain → x.store.get l = .error (.resourceNotFound l.text) →
    x'.store.get l = .error (.resourceNotFound l.text) ∨
      (Hides [temporaryOf m] m l ∧
        ∃ why, x'.store.get l = .error (unreadable (documentPath x.store.base l) why))
  files : Alters (namespaceDirectory x.store.base m) [temporaryOf m] x.store.files x'.store.files
  documents : ∀ l : Locator, l.IsPlain → x'.store.file? l = x.store.file? l
  feed : x'.feed = x.feed
  published : x'.published = x.published

/-- What a write to a locator that was accepted changes in a world. -/
structure AltersAlone (m : Locator) (x x' : World) : Prop where
  replaced : x.store.file? m = none ∨ ∃ r, x.store.get m = .ok r
  listed : ∃ ls ls', x.store.list = .ok ls ∧ x'.store.list = .ok ls' ∧
    ls'.filter (· ≠ m) = ls.filter (· ≠ m)
  others : ∀ l : Locator, l.IsPlain → l ≠ m → x'.store.get l = x.store.get l ∨
    (Hides [temporaryOf m, documentName m] m l ∧
      IsAbsent (documentPath x.store.base l) l (x.store.get l) ∧
      IsAbsent (documentPath x.store.base l) l (x'.store.get l))
  files : Alters (namespaceDirectory x.store.base m) [temporaryOf m, documentName m] x.store.files
    x'.store.files
  documents : ∀ l : Locator, l.IsPlain → l ≠ m → x'.store.file? l = x.store.file? l
  feed : x'.feed = x.feed.publish m
  published : x'.published = m :: x.published

theorem Traceless.refl (m : Locator) (x : World) : Traceless m x x where
  listed := rfl
  known _ _ := rfl
  missing _ _ h := .inl h
  files _ := .inl rfl
  documents _ _ := rfl
  feed := rfl
  published := rfl

/-- A published change is a trace. -/
theorem AltersAlone.not_traceless (h : AltersAlone m x x') : ¬ Traceless m x x' := by
  intro hnone
  have hlength := congrArg List.length (h.published.symm.trans hnone.published)
  simp at hlength

/-- What a write leaves that is cut off. -/
theorem traceless_of_cutOff (hs : x.store.IsSited) (hl : w.locator.IsPlain)
    (hown : ∀ r, x.store.get w.locator = .ok r → r.locator = w.locator)
    (h : x.store.plan w = .ok steps) (hc : x.store.files.CutOff piece steps failing t) :
    Traceless w.locator x { x with store := { x.store with files := t } } := by
  obtain ⟨hg, hs', halters, hkeeps⟩ := hs.after_cutOff hl hown h hc
  have hg' := hg.of_alters hs.clear halters hs'.tree hs'.paths
  have hplace : ∀ l : Locator, ∀ name ∈ [temporaryOf w.locator],
      place x.store.base l ≠ namespaceDirectory x.store.base w.locator ++ [name] := by
    intro l name hname
    rw [List.mem_singleton.mp hname]
    exact place_ne_temporaryOf _ _ _ l
  refine ⟨list_eq_of_isListed hg hg' fun l => isListed_iff_of_alters rfl halters (hplace l), ?_, ?_,
    halters, fun l _ => file?_of_alters rfl halters (hplace l), rfl, rfl⟩
  · intro l hl
    refine get_of_read_eq rfl (read_of_alters halters hkeeps (isOrdinary_fileName_documentPath _ l) ?_
      fun hmissing => hl (get_of_missing hmissing))
    exact fun hmem => temporaryOf_ne_fileName _ _ l (List.mem_singleton.mp hmem).symm
  · intro l hl hmissing
    rcases get_of_alters hg hg' rfl halters hl (hplace l) with hsame | ⟨hhides, -, hgone | hio⟩
    · exact .inl (hsame.trans hmissing)
    · exact .inl hgone
    · exact .inr ⟨hhides, hio⟩

/-- What a write changes that has altered the document and its neighbour. -/
theorem altersAlone_of_alters (hs : x.store.IsSited) (hg : x.store.IsGrounded)
    (hs' : ({ x.store with files := t } : Store).IsSited) (hl : w.locator.IsPlain)
    (hget : x.store.get w.locator = .error (.resourceNotFound w.locator.text) ∨
      ∃ r, x.store.get w.locator = .ok r)
    (halters : Alters (namespaceDirectory x.store.base w.locator)
      [temporaryOf w.locator, documentName w.locator] x.store.files t) :
    AltersAlone w.locator x
      (({ x with store := { x.store with files := t } } : World).publish w.locator) := by
  have hg' := hg.of_alters hs.clear halters hs'.tree hs'.paths
  have hplace : ∀ l : Locator, l ≠ w.locator →
      ∀ name ∈ [temporaryOf w.locator, documentName w.locator],
        place x.store.base l ≠ namespaceDirectory x.store.base w.locator ++ [name] := by
    intro l hne name hname
    rw [List.mem_cons, List.mem_singleton] at hname
    rcases hname with rfl | rfl
    · exact place_ne_temporaryOf _ _ _ l
    · exact fun heq => hne (place_inj heq)
  refine ⟨hget.imp_left (file?_of_notFound hg hl), ?_, ?_, halters, ?_, rfl, rfl⟩
  · refine list_filter_eq hg hg' fun l hne => isListed_iff_of_alters rfl halters (hplace l ?_)
    simpa using hne
  · exact fun l hl' hne => get_of_alters hg hg' rfl halters hl' (hplace l hne)
  · exact fun l _ hne => file?_of_alters rfl halters (hplace l hne)

/-- What a write leaves of a world, wherever it fails.

It leaves no trace exactly if it reports the failure: then the listing and every document are as they
were, no change is published and every locator is answered as before, but for one that was missing.
Such a one may be answered otherwise if it is not plain; if it is, only as unreadable, and only if
what was made is in its way.

A write that reports success replaces what it could read, or nothing. It changes no other document,
whether that can be read or not, and publishes one change, of its own locator. If it has failed all the
same, its document was lost in the last piece and is cut off there. -/
theorem traceless_iff_reported (hs : x.store.IsSited) (hl : w.locator.IsPlain)
    (hown : ∀ r, x.store.get w.locator = .ok r → r.locator = w.locator)
    (h : x.Ends piece w ending x') :
    (ending ≠ .done → (Traceless w.locator x x' ↔ ending.answer ≠ .ok ())) ∧
      (ending.answer = .ok () → AltersAlone w.locator x x') ∧
      (ending = .lost → ∃ r n, x.store.plan w = .ok (writeSteps x.store.base r) ∧
        r.locator = w.locator ∧ lastPiece piece (Document.text r) ≤ n ∧
        n < (Document.text r).utf8ByteSize ∧
        x'.store.file? w.locator = some (cut (Document.text r) n)) := by
  have reported : ∀ {e : Error}, Traceless w.locator x x' →
      (Traceless w.locator x x' ↔ (Ending.failed e).answer ≠ .ok ()) := fun hnone =>
    iff_of_true hnone (by simp [Ending.answer])
  obtain ⟨s', hends, rfl⟩ := h
  cases hends with
  | unread cause => exact ⟨fun _ => reported (.refl _ _), by simp [Ending.answer], by simp⟩
  | refused hplan => exact ⟨fun _ => reported (.refl _ _), by simp [Ending.answer], by simp⟩
  | cutOff cause hplan hc =>
    exact ⟨fun _ => reported (traceless_of_cutOff hs hl hown hplan hc), by simp [Ending.answer],
      by simp⟩
  | lost hplan hc =>
    obtain ⟨hg, hs', halters, r, n, hwrites, hr, hpiece, hn, hcut⟩ :=
      hs.after_slips hl hown hplan hc
    have halone := altersAlone_of_alters hs hg hs' hl (plan_cases hown hplan).1 halters
    refine ⟨fun _ => iff_of_false halone.not_traceless fun hne => hne rfl, fun _ => halone,
      fun _ => ⟨r, n, hwrites, hr, hpiece, hn, ?_⟩⟩
    show Store.file? { x.store with files := _ } w.locator = _
    rw [file?, hcut]
    simp [cut_ne_directory]
  | done hplan hc =>
    obtain ⟨hg, hs', halters⟩ := hs.after_applyAll hl hown hplan hc
    exact ⟨fun hne => absurd rfl hne,
      fun _ => altersAlone_of_alters hs hg hs' hl (plan_cases hown hplan).1 halters, by simp⟩

/-- The most bytes of a content that are handed over at once. -/
def pieceBytes : Nat := 2 * 1024 * 1024

def webWorld (text : String) : World :=
  { start ⟨TextMap.empty, [], false, 30⟩ 1 none [] with store := webStore text }

def webDraft : Resource := incarnate (plainResource webLocator "" "A") "uid-1" daybreak

def webUpdate : Write := .update (plainResource webLocator "uid-1" "B")

def webRevision : Resource := revise webDraft (plainResource webLocator "uid-1" "B")

theorem isSited_webStore (text : String) : (webStore text).IsSited where
  tree := by
    refine isTree_of_entries ?_ ?_
    · simp only [webStore, List.forall_mem_cons]
      exact ⟨rfl, rfl, rfl, by simp⟩
    · have hnames : ∀ p ∈ [["state", "default", "web.json"], ["state", "default"], ["state"]],
          (Path.fileName p ≠ "" ∧ Path.fileName p ≠ "." ∧ Path.fileName p ≠ "..") ∧
            '/' ∉ (Path.fileName p).toList := by decide
      exact fun e he _ _ => hnames e.1 (List.mem_map_of_mem he)
  paths := by
    simp only [HasOnePaths, webStore, List.map_cons, List.map_nil]
    decide
  written := .inl fun c hc => by
    rw [show c = "state" from List.mem_singleton.mp hc]
    decide
  clear := by
    rintro q c rest hq hf
    cases q with
    | nil => cases hf
    | cons a q => simp [webStore] at hq

theorem plan_webUpdate : (webStore (Document.text webDraft)).plan webUpdate =
    .ok (writeSteps ["state"] webRevision) := by
  have hinc : (webStore (Document.text webDraft)).incarnation (plainResource webLocator "uid-1" "B") =
      .ok webDraft := incarnation_webStore (by decide) rfl rfl
  rw [webUpdate, plan, hinc]
  rfl

theorem done_webUpdate :
    ∃ s', (webStore (Document.text webDraft)).Ends pieceBytes webUpdate .done s' := by
  have hname : temporaryName ["state", "default", "web.json"] = "web.tmp" := by decide
  have happly : ∃ t, (webStore (Document.text webDraft)).files.applyAll
      (writeSteps ["state"] webRevision) = (.ok (), t) := by
    rw [writeSteps_eq_replaceSteps, show webRevision.locator = webLocator from rfl,
      documentPath_webLocator, hname]
    exact ⟨_, rfl⟩
  obtain ⟨t, happly⟩ := happly
  exact ⟨_, .done plan_webUpdate happly⟩

theorem own_webUpdate {r : Resource}
    (hr : (webStore (Document.text webDraft)).get webUpdate.locator = .ok r) :
    r.locator = webUpdate.locator := by
  cases (get_webStore (r := webDraft) (by decide)).symm.trans hr
  rfl

theorem lost_webUpdate :
    ∃ s', (webStore (Document.text webDraft)).Ends pieceBytes webUpdate .lost s' ∧
      s'.get webLocator = .error (corrupted ["state", "default", "web.json"]) := by
  obtain ⟨s, hdone⟩ := done_webUpdate
  have hsize : (Document.text webRevision).utf8ByteSize ≤ pieceBytes := by
    rw [Document.text, Json.pretty, String.utf8ByteSize_ofList]
    decide +kernel
  obtain ⟨s', hlost, hget⟩ := exists_lost (fun _ => own_webUpdate) plan_webUpdate hdone hsize
  exact ⟨s', hlost, documentPath_webLocator ▸ hget⟩

/-- The update fails to make its file durable and says so, or its document is lost and it does not. -/
theorem traceless_of_failed_sync :
    let x := webWorld (Document.text webDraft)
    x.store.IsSited ∧ webUpdate.locator.IsPlain ∧
      (∀ r, x.store.get webUpdate.locator = .ok r → r.locator = webUpdate.locator) ∧
      (∃ x', x.Ends pieceBytes webUpdate
          (.failed (.storeIo "Failed to sync resource: Input/output error (os error 5)")) x' ∧
        Traceless webUpdate.locator x x') ∧
      ∃ x', x.Ends pieceBytes webUpdate .lost x' ∧ ¬ Traceless webUpdate.locator x x' := by
  intro x
  have hs : x.store.IsSited := isSited_webStore _
  have hl : webUpdate.locator.IsPlain := by decide
  have hown : ∀ r, x.store.get webUpdate.locator = .ok r → r.locator = webUpdate.locator :=
    fun _ => own_webUpdate
  obtain ⟨s, hdone⟩ := done_webUpdate
  have hsync : Step.sync (temporaryPath (documentPath ["state"] webRevision.locator)) ∈
      writeSteps ["state"] webRevision := by simp [writeSteps]
  obtain ⟨s₁, hfailed⟩ :=
    exists_failed plan_webUpdate hdone hsync "Input/output error (os error 5)"
  obtain ⟨s₂, hlost, -⟩ := lost_webUpdate
  refine ⟨hs, hl, hown, ⟨_, ⟨s₁, hfailed, rfl⟩, ?_⟩, _, ⟨s₂, hlost, rfl⟩, ?_⟩
  · exact ((traceless_iff_reported hs hl hown ⟨s₁, hfailed, rfl⟩).1 (by simp)).mpr
      (by simp [Ending.answer])
  · exact fun hnone => ((traceless_iff_reported hs hl hown ⟨s₂, hlost, rfl⟩).1 (by simp)).mp hnone rfl

end World

/-! ## Traces that are left -/

namespace Store
open FileTree StackKeeper.Path

variable {s s' : Store} {w : Write} {l : Locator} {r : Resource} {uid : String} {now : Instant}
  {t : FileTree} {f : Step × FileFault}

def longName (n : Nat) : String := String.ofList (List.replicate n 'n')

theorem utf8ByteSize_longName (n : Nat) : (longName n).utf8ByteSize = n := by
  rw [longName, String.utf8ByteSize_ofList]
  induction n with
  | zero => rfl
  | succ n ih =>
    rw [List.replicate_succ, String.utf8Len_cons, ih]
    rfl

theorem isName_longName (n : Nat) {ending : String} (h : '\x00' ∉ ending.toList) :
    isName (longName n ++ ending) = decide (n + ending.utf8ByteSize ≤ maxNameBytes) := by
  have hnul : '\x00' ∉ (longName n ++ ending).toList := by
    rw [String.toList_append, List.mem_append, not_or]
    refine ⟨fun hmem => ?_, h⟩
    rw [longName, String.toList_ofList, List.mem_replicate] at hmem
    exact absurd hmem.2 (by decide)
  have hcontains : (longName n ++ ending).toList.contains '\x00' = false := by simpa using hnul
  rw [isName, String.utf8ByteSize_append, utf8ByteSize_longName, hcontains, Bool.not_false,
    Bool.and_true]

/-- A long name stands for no directory seen from where it stands. -/
theorem longName_ne (n : Nat) (ending : String) {c : String}
    (h : c.utf8ByteSize < n + ending.utf8ByteSize) : longName n ++ ending ≠ c := by
  rintro rfl
  rw [String.utf8ByteSize_append, utf8ByteSize_longName] at h
  exact Nat.lt_irrefl _ h

theorem not_mem_longName (n : Nat) {ending : String} {c : Char} (hc : c ≠ 'n')
    (h : c ∉ ending.toList) : c ∉ (longName n ++ ending).toList := by
  rw [String.toList_append, List.mem_append, not_or]
  refine ⟨fun hmem => hc ?_, h⟩
  rw [longName, String.toList_ofList, List.mem_replicate] at hmem
  exact hmem.2

/-- Whether a write fails and changes how a locator is answered. -/
def LeavesTrace (s : Store) (w : Write) (l : Locator) : Prop :=
  (∃ e, (s.take w).1 = .error e) ∧ (s.take w).2.get l ≠ s.get l

/-- Whether a write fails and changes the listing. -/
def ShowsTrace (s : Store) (w : Write) : Prop :=
  (∃ e, (s.take w).1 = .error e) ∧ (s.take w).2.list ≠ s.list

/-- A locator that was missing is answered otherwise. -/
theorem leavesTrace_of_take {e e' : Error} (htake : s.take w = (.error e, s'))
    (hmissing : s.get l = .error (.resourceNotFound l.text)) (hother : s'.get l = .error e')
    (he : e'.isNotFound = false) : LeavesTrace s w l := by
  refine ⟨⟨e, by rw [htake]⟩, ?_⟩
  rw [htake, hmissing, hother]
  intro hsame
  cases hsame
  cases he

/-- Writing a document fails before anything is written if its temporary file has no name that fits. -/
theorem applyAll_write_of_unfit (hl : r.locator.IsPlain)
    (hmade : s.files.makeDirectories [] (s.base ++ single r.locator.ns) = (.ok (), t))
    (hname : isName (temporaryOf r.locator) = false) :
    ∃ f, s.files.applyAll (writeSteps s.base r) = (.error f, t) := by
  rw [← parent_documentPath hl] at hmade
  have hf := @follow_makeDirectories s.files (documentPath s.base r.locator).parent [] (by rw [hmade])
  rw [hmade] at hf
  rw [writeSteps_eq_replaceSteps, replaceSteps, temporaryName_documentPath hl,
    applyAll_cons_ok (.makeDirectory _) hmade]
  obtain ⟨why, hput⟩ := @putFile_refused t
    ((documentPath s.base r.locator).withFileName (temporaryOf r.locator)) _ ""
    (by rwa [parent_withFileName])
    (by rw [fileName_withFileName]; exact isOrdinary_temporaryName [documentName r.locator])
    (by simp [hname])
  exact ⟨_, applyAll_cons_error (.truncate _) hput⟩

theorem take_create_of_applyAll (hget : s.get r.locator = .error (.resourceNotFound r.locator.text))
    (happly : s.files.applyAll (writeSteps s.base (incarnate r uid now)) = (.error f, t)) :
    s.take (.create r uid now) = (.error (failure f.2.text f.1), { s with files := t }) := by
  rw [take_eq_plan, plan, hget]
  simp only [Error.isNotFound, if_true, perform, happly]

theorem temporaryOf_longName (ns : String) {n : Nat} (h : n ≠ 0) :
    temporaryOf ⟨ns, longName n⟩ = longName n ++ ".tmp" := by
  have hne : longName n ≠ "" := by
    intro he
    have := congrArg String.utf8ByteSize he
    rw [utf8ByteSize_longName] at this
    exact h this
  rw [temporaryOf, @splitExtension_documentName ⟨ns, longName n⟩ hne, String.append_assoc]
  rfl

theorem isPlain_longName {ns : String} (n : Nat) (h : '/' ∉ ns.toList ∧ ns ≠ "." ∧ ns ≠ "..") :
    (⟨ns, longName n⟩ : Locator).IsPlain := by
  refine ⟨h.1, fun hmem => ?_, h.2⟩
  rw [longName, String.toList_ofList, List.mem_replicate] at hmem
  exact absurd hmem.2 (by decide)

/-- The creation of a resource whose document has too long a name, and the temporary file as well. -/
def unfitting (ns : String) : Write :=
  .create (plainResource ⟨ns, longName 252⟩ "" "A") "uid-1" daybreak

theorem take_unfitting {ns : String} (h : '/' ∉ ns.toList ∧ ns ≠ "." ∧ ns ≠ "..")
    (hf : s.files.follow [] (s.base ++ single ns) = .error .missing)
    (hmade : s.files.makeDirectories [] (s.base ++ single ns) = (.ok (), t)) :
    ∃ e, s.take (unfitting ns) = (.error e, { s with files := t }) := by
  have hl := isPlain_longName 252 h
  have hname : isName (temporaryOf ⟨ns, longName 252⟩) = false := by
    rw [temporaryOf_longName _ (by decide), isName_longName _ (by decide)]
    decide
  obtain ⟨f, happly⟩ := @applyAll_write_of_unfit s
    (incarnate (plainResource ⟨ns, longName 252⟩ "" "A") "uid-1" daybreak) t hl hmade hname
  exact ⟨_, take_create_of_applyAll (get_of_follow_missing hl hf) happly⟩

/-- A directory that a failed creation made is in the place of another document, and too long a name
is answered otherwise than as missing. -/
theorem hidden_by_directory :
    LeavesTrace (bareStore []) (unfitting "x.json") looseLocator ∧
      LeavesTrace (bareStore []) (unfitting "x.json") (unfitting "x.json").locator := by
  obtain ⟨e, htake⟩ := @take_unfitting (bareStore []) _ "x.json" (by decide) rfl rfl
  have hl : (unfitting "x.json").locator.IsPlain := isPlain_longName 252 (by decide)
  constructor
  · have hdirectory : (bareStore [(["state", "x.json"], .directory), (["state"], .directory)]).get
        looseLocator = .error (unreadable (documentPath ["state"] looseLocator) .isDirectory) := by
      rw [get_of_hasRoom (by decide) ⟨rfl, by decide⟩]
      rfl
    exact leavesTrace_of_take htake (get_of_follow_missing (by decide) rfl) hdirectory rfl
  · refine leavesTrace_of_take htake (get_of_follow_missing hl rfl)
      (get_of_isName_false hl rfl ?_) rfl
    show isName (longName 252 ++ "." ++ extension) = false
    rw [String.append_assoc, isName_longName _ (by decide)]
    decide

/-- A file whose name does not fit leaves its neighbour behind. -/
theorem exists_neighbour_of_replace {p : Path} {t t₁ : FileTree} {name : String} (text : String)
    (hmade : t.makeDirectories [] p.parent = (.ok (), t₁)) (ho : IsOrdinary p.fileName)
    (hn : IsOrdinary name) (hp : isName p.fileName = false) (hname : isName name = true)
    (hw : t₁.entryAt? (resolve [] p.parent ++ [name]) ≠ some .directory) :
    ∃ f t', t.applyAll (replaceSteps p name text) = (.error f, t') ∧
      t'.follow [] p.parent = .ok (resolve [] p.parent) ∧
      t'.entryAt? (resolve [] p.parent ++ [name]) = some (.file text) := by
  have hf := @follow_makeDirectories t p.parent [] (by rw [hmade])
  rw [hmade] at hf
  have put : ∀ {t : FileTree} (text : String), t.follow [] p.parent = .ok (resolve [] p.parent) →
      t.entryAt? (resolve [] p.parent ++ [name]) ≠ some .directory →
      t.putFile (p.withFileName name) text =
        (.ok (), t.put (resolve [] p.parent ++ [name]) (.file text)) := by
    intro t text hf hw
    have hf' : t.follow [] (p.withFileName name).parent = .ok (resolve [] p.parent) := by
      rwa [parent_withFileName]
    have h := @putFile_of_follow _ _ _ text hf' (by simpa using hn) (by simpa using hname)
      (by simpa using hw)
    simpa using h
  have hs := sameDirectories_put (e := .file "") hw (by simp)
  have hf₂ := follow_of_sameDirectories hs hf
  have hw₂ := fun h => hw ((hs _).mpr h)
  have hf₃ := follow_of_sameDirectories (sameDirectories_put (e := .file text) hw₂ (by simp)) hf₂
  have hthere : ∀ {e : FileEntry}, ((t₁.put (resolve [] p.parent ++ [name]) (.file "")).put
      (resolve [] p.parent ++ [name]) e).entryAt? (resolve [] p.parent ++ [name]) = some e := by
    intro e
    rw [entryAt?_put (ne_start_of_entryAt? hw₂), if_pos rfl]
  rcases renameFile_cases hf₃ ho hn hname hthere (by simp) with ⟨hfits, -⟩ | ⟨why, hrename⟩
  · rw [hp] at hfits
    cases hfits
  · refine ⟨(.rename (p.withFileName name) p, .refused why), _, ?_, hf₃, hthere⟩
    rw [replaceSteps, applyAll_cons_ok (.makeDirectory _) hmade,
      applyAll_cons_ok (.truncate _) (put "" hf hw),
      applyAll_cons_ok (.write _ _) (put text hf₂ hw₂), applyAll_cons_ok (.sync _) rfl]
    exact applyAll_cons_error (.rename _ _) hrename

/-- The temporary file of a failed creation is where a namespace would be. -/
theorem hidden_by_temporary (uid : String) (now : Instant) :
    LeavesTrace (bareStore []) (.create (plainResource ⟨"", longName 251⟩ "" "A") uid now)
      ⟨longName 251 ++ ".tmp", "y"⟩ := by
  let s := bareStore []
  let w := Write.create (plainResource ⟨"", longName 251⟩ "" "A") uid now
  let l : Locator := ⟨longName 251 ++ ".tmp", "y"⟩
  have hm : w.locator.IsPlain := isPlain_longName 251 (by decide)
  have hname : temporaryOf w.locator = longName 251 ++ ".tmp" := temporaryOf_longName "" (by decide)
  have hfits : isName (longName 251 ++ ".tmp") = true := by
    rw [isName_longName _ (by decide)]
    decide
  have hl : l.IsPlain := ⟨not_mem_longName 251 (by decide) (by decide), by decide,
    longName_ne 251 _ (by decide), longName_ne 251 _ (by decide)⟩
  have hparent : (documentPath ["state"] w.locator).parent = ["state"] := parent_documentPath hm
  obtain ⟨_, t, happly, hf, he⟩ := @exists_neighbour_of_replace (documentPath ["state"] w.locator)
    s.files ⟨[(["state"], .directory)]⟩ (temporaryOf w.locator)
    (Document.text (incarnate (plainResource ⟨"", longName 251⟩ "" "A") uid now))
    (by rw [hparent]; rfl) (isOrdinary_fileName_documentPath _ _)
    (isOrdinary_temporaryName [documentName w.locator])
    (by
      rw [fileName_documentPath hm]
      show isName (longName 251 ++ "." ++ extension) = false
      rw [String.append_assoc, isName_longName _ (by decide)]
      decide)
    (hname ▸ hfits) (by rw [hparent]; simp [entryAt?, resolve])
  rw [hparent, hname] at he
  rw [hparent] at hf
  rw [← temporaryName_documentPath hm ["state"]] at happly
  have htake : s.take w = _ := take_create_of_applyAll (get_of_follow_missing hm rfl) happly
  have hmissing : s.files.follow [] ["state"] = .error .missing := rfl
  have hrefused : t.follow [] (["state"] ++ single (longName 251 ++ ".tmp")) =
      .error (.refused .notDirectory) := by
    rw [follow_append hf, single, if_neg (longName_ne 251 _ (by decide)), follow,
      if_neg (longName_ne 251 _ (by decide)), if_neg (longName_ne 251 _ (by decide)), hfits, he]
    rfl
  exact @leavesTrace_of_take s _ w l _ _ htake
    (get_of_follow_missing hl (follow_append_error hmissing _)) (get_of_follow_refused hl hrefused) rfl

/-- A store with one document, whose base directory is named by climbing out of another one, which is
there or not. -/
def climbingStore (entries : List (Path × FileEntry)) (text : String) : Store :=
  ⟨["gone", "..", "state"], ⟨entries ++ (webStore text).files.entries⟩⟩

theorem list_climbingStore (text : String) :
    (climbingStore [(["gone"], .directory)] text).list = .ok [webLocator] := by
  generalize hs : climbingStore [(["gone"], .directory)] text = s
  have hbase : s.base = ["gone", "..", "state"] := by rw [← hs]; rfl
  have hnames : s.files.list ["gone", "..", "state"] = .ok ["default"] := by rw [← hs]; rfl
  have hdir : s.files.isDirectory ["gone", "..", "state", "default"] = true := by rw [← hs]; rfl
  have hfiles : s.files.list ["gone", "..", "state", "default"] = .ok ["web.json"] := by
    rw [← hs]
    rfl
  have hgroup : s.locatorsIn "default" = .ok [webLocator] := by
    have hname : locatorOfPath? ["default", "web.json"] = some webLocator := by decide
    rw [locatorsIn, hbase]
    simp [hdir, hfiles, hname]
  have hgroups : ["default"].mapM s.locatorsIn = .ok [[webLocator]] := by
    rw [List.mapM_cons, hgroup]
    rfl
  rw [list, hbase, hnames]
  simp [hgroups]

/-- A failed creation makes the directory that a base directory climbs out of, and so what is stored
there comes to light. -/
theorem listed_by_climbing (text : String) :
    ShowsTrace (climbingStore [] text) (unfitting "default") := by
  obtain ⟨e, htake⟩ := @take_unfitting (climbingStore [] text)
    (climbingStore [(["gone"], .directory)] text).files "default" (by decide) rfl rfl
  have hunlisted : (climbingStore [] text).list = .ok [] := rfl
  have hlisted := list_climbingStore text
  refine ⟨⟨e, by rw [htake]⟩, fun hsame => ?_⟩
  rw [htake, hunlisted] at hsame
  cases hlisted.symm.trans hsame

/-- Once a failed creation has made a part of the base directory, the rest has too long a name. -/
theorem unlisted_by_length {c : String} (hc : isName c = false) (hne : IsOrdinary c) :
    ShowsTrace ⟨["gone", c], FileTree.empty⟩ (unfitting "default") := by
  generalize hs : (⟨["gone", c], FileTree.empty⟩ : Store) = s
  have hl : (unfitting "default").locator.IsPlain := isPlain_longName 252 (by decide)
  have hmade : s.files.makeDirectories [] (documentPath s.base (unfitting "default").locator).parent =
      (.error (.refused (unnameable c)), ⟨[(["gone"], .directory)]⟩) := by
    subst hs
    rw [parent_documentPath hl]
    show (⟨[(["gone"], .directory)]⟩ : FileTree).makeDirectories ["gone"] [c, "default"] = _
    rw [makeDirectories, if_neg hne.2.1, if_neg hne.2.2, if_pos (by simp [hc])]
  have hget : s.get (unfitting "default").locator =
      .error (.resourceNotFound (unfitting "default").locator.text) := by
    subst hs
    exact get_of_follow_missing hl rfl
  have htake : s.take (unfitting "default") = _ :=
    take_create_of_applyAll hget (applyAll_cons_error (.makeDirectory _) hmade)
  have hlocate : (⟨[(["gone"], .directory)]⟩ : FileTree).locate ["gone", c] =
      .error (.refused (unnameable c)) := by
    rw [@locate_of_follow _ ["gone", c] ["gone"] rfl hne]
    show (if isName c = true then _ else _) = _
    rw [hc]
    rfl
  have hlisted : s.list = .ok [] := by
    subst hs
    rfl
  refine ⟨⟨_, congrArg Prod.fst htake⟩, fun hsame => ?_⟩
  rw [htake, hlisted] at hsame
  subst hs
  simp only [list, FileTree.list, hlocate] at hsame
  cases hsame

/-- A locator that is not plain leads through a directory that a failed creation made. -/
theorem found_through_directory :
    LeavesTrace (webStore "") (unfitting "later") ⟨"later", "../default/web"⟩ := by
  obtain ⟨e, htake⟩ := @take_unfitting (webStore "")
    ⟨(["state", "later"], .directory) :: (webStore "").files.entries⟩ "later" (by decide) rfl rfl
  have hpath : documentPath ["state"] ⟨"later", "../default/web"⟩ =
      ["state", "later", "..", "default", "web.json"] := by
    decide
  have hmissing : (webStore "").files.read (documentPath ["state"] ⟨"later", "../default/web"⟩) =
      .error .missing := by
    rw [hpath]
    rfl
  have hread : (⟨(["state", "later"], .directory) :: (webStore "").files.entries⟩ : FileTree).read
      (documentPath ["state"] ⟨"later", "../default/web"⟩) = .ok "" := by
    rw [hpath]
    rfl
  have hdocument : Document.ofText? "" = none := by decide
  have hcorrupted : (⟨["state"], ⟨(["state", "later"], .directory) :: (webStore "").files.entries⟩⟩ :
      Store).get ⟨"later", "../default/web"⟩ =
        .error (corrupted (documentPath ["state"] ⟨"later", "../default/web"⟩)) := by
    rw [get, hread]
    simp only [hdocument]
  exact leavesTrace_of_take htake (get_of_missing hmissing) hcorrupted rfl

/-- An update goes by the locator that a document names, wherever it lies. -/
theorem written_elsewhere {x r : Resource} (hx : x.locator = ⟨"default", "api"⟩)
    (hg : x.metadata.generation ≤ maxGeneration) (hr : r.locator = webLocator)
    (huid : x.metadata.uid = r.metadata.uid) (hrel : isReleased (revise x r) = false) :
    let s := webStore (Document.text x)
    (s.take (.update r)).1 = .ok () ∧
      s.get x.locator = .error (.resourceNotFound x.locator.text) ∧
      (s.take (.update r)).2.get x.locator = .ok (revise x r) := by
  intro s
  have hpath : documentPath ["state"] x.locator = ["state", "default", "api.json"] := by
    rw [hx]
    decide
  have hname : temporaryName ["state", "default", "api.json"] = "api.tmp" := by decide
  have hsteps : s.perform (writeSteps ["state"] (revise x r)) =
      (.ok (), bareStore ((["state", "default", "api.json"], .file (Document.text (revise x r))) ::
        s.files.entries)) := by
    have hpath' : documentPath ["state"] (revise x r).locator = _ := hpath
    rw [writeSteps_eq_replaceSteps, hpath', hname]
    rfl
  have htake : s.take (.update r) = (.ok (),
      bareStore ((["state", "default", "api.json"], .file (Document.text (revise x r))) ::
        s.files.entries)) := by
    rw [take, update_of_incarnation (incarnation_of_get (get_webStore hg) hr huid),
      if_neg (by simp [hrel])]
    exact hsteps
  rw [htake]
  refine ⟨rfl, get_of_missing ?_, get_eq_ok_iff.mpr ⟨Document.text (revise x r), ?_,
    Document.ofText?_text (generation_revise_le hg)⟩⟩
  · show s.files.read (documentPath ["state"] x.locator) = _
    rw [hpath]
    rfl
  · show FileTree.read _ (documentPath ["state"] x.locator) = _
    rw [hpath]
    rfl

/-- The resource whose document lies where that of another one belongs. -/
def strayResource : Resource :=
  incarnate (plainResource ⟨"default", "api"⟩ "" "A") "uid-1" daybreak

/-- The ways in which a write can leave more than it should. In the first of them it has failed to
write the document and says that it is done. -/
theorem traces_of_writes :
    (∃ x', (World.webWorld (Document.text World.webDraft)).Ends World.pieceBytes World.webUpdate .lost
        x' ∧ Ending.lost.answer = .ok () ∧ x'.published = [webLocator] ∧
      x'.store.get webLocator = .error (corrupted ["state", "default", "web.json"])) ∧
      LeavesTrace (bareStore []) (unfitting "x.json") ⟨"", "x"⟩ ∧
      LeavesTrace (bareStore []) (unfitting "x.json") ⟨"x.json", longName 252⟩ ∧
      LeavesTrace (bareStore [])
        (.create (plainResource ⟨"", longName 251⟩ "" "A") "uid-1" daybreak)
        ⟨longName 251 ++ ".tmp", "y"⟩ ∧
      LeavesTrace (webStore "") (unfitting "later") ⟨"later", "../default/web"⟩ ∧
      ShowsTrace (climbingStore [] "") (unfitting "default") ∧
      ShowsTrace ⟨["gone", longName 256], FileTree.empty⟩ (unfitting "default") ∧
      ((webStore (Document.text strayResource)).take
          (.update (plainResource webLocator "uid-1" "B"))).1 = .ok () ∧
      ((webStore (Document.text strayResource)).take
          (.update (plainResource webLocator "uid-1" "B"))).2.get ⟨"default", "api"⟩ ≠
        (webStore (Document.text strayResource)).get ⟨"default", "api"⟩ := by
  obtain ⟨s', hlost, hget⟩ := World.lost_webUpdate
  obtain ⟨hloose, hlong⟩ := hidden_by_directory
  have hfits : isName (longName 256) = false := by
    have h := @isName_longName 256 "" (by decide)
    rw [String.append_empty] at h
    rw [h]
    decide
  have hne : ∀ c : String, c.utf8ByteSize < 256 → longName 256 ≠ c := by
    rintro c hc rfl
    rw [utf8ByteSize_longName] at hc
    exact Nat.lt_irrefl _ hc
  obtain ⟨hdone, hstray, hstray'⟩ := @written_elsewhere strayResource
    (plainResource webLocator "uid-1" "B") rfl (by decide) rfl rfl rfl
  refine ⟨⟨_, ⟨s', hlost, rfl⟩, rfl, rfl, hget⟩, hloose, hlong, hidden_by_temporary "uid-1" daybreak,
    found_through_directory, listed_by_climbing "",
    unlisted_by_length hfits ⟨hne _ (by decide), hne _ (by decide), hne _ (by decide)⟩, hdone, ?_⟩
  exact fun h => nomatch hstray'.symm.trans (h.trans hstray)

end Store
end StackKeeper
