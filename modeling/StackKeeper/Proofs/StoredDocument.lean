import StackKeeper.Proofs.FileFrame
import StackKeeper.Proofs.StoreAccess
/-!
# What is stored is read back

A document that was written is found under the locator of its resource, wherever that leads, and holds
the resource that was written; so whoever creates a resource gets the very value that later readers get.

Results:
* `read_of_written`, `get_of_written`: a write that was accepted is read back.
* `round_trip`: so is a resource from either form of its document, and after its creation.
-/
namespace StackKeeper.Store
open FileTree

variable {s s' : Store} {r stored : Resource}

/-- A write that was accepted leaves the text of the document, whatever was there before. -/
theorem read_of_written (h : s.perform (writeSteps s.base r) = (.ok (), s')) :
    s'.files.read (documentPath s'.base r.locator) = .ok (Document.text r) := by
  have ho := isOrdinary_fileName_documentPath s.base r.locator
  obtain ⟨t₁, -, ⟨t', hsteps, -, hf, hname, hfile⟩ | ⟨f, t', hsteps, -⟩⟩ :=
    replace_cases (t := s.files) (Document.text r) ho (isOrdinary_temporaryName _)
      (temporaryName_ne_fileName _ s.base r.locator) rfl
  · rw [perform, writeSteps_eq_replaceSteps, hsteps] at h
    cases h
    exact (read_eq_ok_iff ho).mpr ⟨_, hf, hname, hfile⟩
  · rw [perform, writeSteps_eq_replaceSteps, hsteps] at h
    cases h

theorem get_of_written (hg : r.metadata.generation ≤ maxGeneration)
    (h : s.perform (writeSteps s.base r) = (.ok (), s')) : s'.get r.locator = .ok r :=
  get_eq_ok_iff.mpr ⟨_, read_of_written h, Document.ofText?_text hg⟩

/-- A resource that was created is the declared one with what the store adds, and its document was
written. -/
theorem written_of_create {uid : String} {now : Instant} (h : s.create r uid now = (.ok stored, s')) :
    stored = incarnate r uid now ∧ s.perform (writeSteps s.base stored) = (.ok (), s') := by
  rw [create] at h
  split at h
  · cases h
  · split at h
    · dsimp only at h
      split at h
      · rename_i hw
        cases h
        exact ⟨rfl, hw⟩
      · cases h
    · cases h

/-- Every resource reads back from its document, with line breaks or without, and a resource that was
created is the one that is read from then on. -/
theorem round_trip :
    (∀ r : Resource, r.metadata.generation ≤ maxGeneration →
      Document.ofText? (Document.ofResource r).pretty = some r ∧
        Document.ofText? (Document.ofResource r).compact = some r) ∧
      ∀ (s : Store) (r : Resource) (uid : String) (now : Instant) (stored : Resource) (s' : Store),
        s.create r uid now = (.ok stored, s') → s'.get r.locator = .ok stored := by
  refine ⟨fun r hg => ⟨Document.ofText?_text hg, Document.ofText?_compact hg⟩, ?_⟩
  intro s r uid now stored s' h
  obtain ⟨rfl, hw⟩ := written_of_create h
  have hone : (1 : Nat) ≤ maxGeneration := by decide
  exact get_of_written (r := incarnate r uid now) hone hw

def leapSecond : Instant := ⟨1972, 6, 30, 23, 59, 59, 1123456789, rfl, rfl⟩

/-- A resource whose texts need escapes, with an empty name for its stack and the last generation. -/
def oddResource : Resource :=
  ⟨⟨"web", "default", "\x01", maxGeneration, some leapSecond, some leapSecond, []⟩,
    { Spec.empty with stackName := some "", template := some "\"\\\n\tß∂" }, Status.empty⟩

def emptyStore : Store := ⟨["state"], .empty⟩

/-- The resource is read back from both forms, and from the store after its creation. -/
theorem round_trip_oddResource :
    oddResource.metadata.generation ≤ maxGeneration ∧
      Document.ofText? (Document.ofResource oddResource).pretty = some oddResource ∧
      Document.ofText? (Document.ofResource oddResource).compact = some oddResource ∧
      ∃ s', emptyStore.create oddResource "uid-1" leapSecond =
          (.ok (incarnate oddResource "uid-1" leapSecond), s') ∧
        s'.get webLocator = .ok (incarnate oddResource "uid-1" leapSecond) := by
  have hg : oddResource.metadata.generation ≤ maxGeneration := Nat.le_refl _
  have hcreate : emptyStore.create oddResource "uid-1" leapSecond =
      (.ok (incarnate oddResource "uid-1" leapSecond),
        webStore (Document.text (incarnate oddResource "uid-1" leapSecond))) := by
    have hl : (incarnate oddResource "uid-1" leapSecond).locator = webLocator := rfl
    have hname : temporaryName ["state", "default", "web.json"] = "web.tmp" := by decide
    apply create_of_missing
    · show emptyStore.files.read (documentPath ["state"] webLocator) = _
      rw [documentPath_webLocator]
      rfl
    · show emptyStore.perform (writeSteps ["state"] (incarnate oddResource "uid-1" leapSecond)) = _
      rw [writeSteps_eq_replaceSteps, hl, documentPath_webLocator, hname]
      rfl
  obtain ⟨hpretty, hcompact⟩ := round_trip.1 oddResource hg
  exact ⟨hg, hpretty, hcompact, _, hcreate, round_trip.2 _ oddResource _ _ _ _ hcreate⟩

end StackKeeper.Store
