import StackKeeper.Proofs.Interleaving
import StackKeeper.Proofs.PassEnding
import StackKeeper.Store.Request
/-!
# A declaration applied beside a pass

Applying a declaration reads the stored resource and writes it back with the declared spec. A pass
over a resource that has no finalizer yet reads it and writes it back with the finalizer. A write
brings spec and finalizers from the copy that was read, whichever of the two it is about, so if both
read before either writes, the later write takes the earlier one back.

Results:
* `both_kept_iff`: the declared spec and the finalizer are both there in the end exactly if the one
  cycle was over before the other began.
* `finalizer_taken_back`: a declaration that was read before the pass and written after it.
-/
namespace StackKeeper

namespace Resource

variable (r : Resource) (finalizer : String)

@[simp] theorem spec_withSpec (s : Spec) : (r.withSpec s).spec = s := rfl

@[simp] theorem hasFinalizer_withSpec (s : Spec) :
    (r.withSpec s).hasFinalizer finalizer = r.hasFinalizer finalizer := rfl

@[simp] theorem locator_withSpec (s : Spec) : (r.withSpec s).locator = r.locator := rfl

@[simp] theorem isMarked_withSpec (s : Spec) : (r.withSpec s).isMarked = r.isMarked := rfl

@[simp] theorem spec_addFinalizer : (r.addFinalizer finalizer).spec = r.spec := by
  unfold addFinalizer
  split <;> rfl

@[simp] theorem locator_addFinalizer : (r.addFinalizer finalizer).locator = r.locator := by
  unfold addFinalizer
  split <;> rfl

@[simp] theorem isMarked_addFinalizer : (r.addFinalizer finalizer).isMarked = r.isMarked := by
  unfold addFinalizer
  split <;> rfl

end Resource

namespace Store

variable {s s' : Store} {l : Locator} {d r stored : Resource} {a b c : Log}

/-! ## Applying as a read and a write -/

/-- The logs of applying a declaration to a stored resource that is not marked. -/
inductive ApplyLog (d : Resource) : Log → Applied → Prop
  | unchanged (r : Resource) (hm : r.isMarked = false) (hs : r.spec = d.spec) :
    ApplyLog d [⟨.getResource d.locator, .ok r⟩] .unchanged
  | configured (r : Resource) (hm : r.isMarked = false) (hs : r.spec ≠ d.spec) :
    ApplyLog d [⟨.getResource d.locator, .ok r⟩, ⟨.updateResource (r.withSpec d.spec), .ok ()⟩]
      .configured

/-! ## Writes to a resource that is not marked -/

theorem isMarked_revise (stored r : Resource) :
    (revise stored r).isMarked = (stored.isMarked || r.isMarked) := by
  simp [revise, Resource.isMarked]

@[simp] theorem spec_revise (stored r : Resource) : (revise stored r).spec = r.spec := rfl

@[simp] theorem hasFinalizer_revise (stored r : Resource) (finalizer : String) :
    (revise stored r).hasFinalizer finalizer = r.hasFinalizer finalizer := rfl

/-- A resource that nobody has marked is stored under its own locator. -/
structure Stands (s : Store) (l : Locator) (r : Resource) : Prop where
  get : s.get l = .ok r
  own : r.locator = l
  unmarked : r.isMarked = false

namespace Stands

variable {log : Log}

theorem start (hown : s.Owns l) (hr : r.isMarked = false)
    (hc : Chain Serves s (⟨.getResource l, .ok r⟩ :: log) s') :
    s.Stands l r ∧ Chain Serves s log s' := by
  obtain ⟨hget, hc⟩ := chain_read.mp hc
  exact ⟨⟨hget, hown r hget, hr⟩, hc⟩

theorem read (h : s.Stands l stored) (hc : Chain Serves s (⟨.getResource l, .ok r⟩ :: log) s') :
    r = stored ∧ Chain Serves s log s' := by
  obtain ⟨hr, hc⟩ := chain_read.mp hc
  exact ⟨Except.ok.inj (hr.symm.trans h.get), hc⟩

/-- An accepted write of a copy that is not marked leaves the resource revised. -/
theorem update (h : s.Stands l stored) (hl : r.locator = l) (hr : r.isMarked = false)
    (hc : Chain Serves s (⟨.updateResource r, .ok ()⟩ :: log) s') :
    ∃ m : Store, m.Stands l (revise stored r) ∧ Chain Serves m log s' := by
  obtain ⟨m, hm, hc⟩ := hc
  simp only [Serves] at hm
  have hmark : (revise stored r).isMarked = false := by
    simp [isMarked_revise, h.unmarked, hr]
  obtain ⟨-, hget⟩ := get_of_update_ok h.get h.own hl hm
  rw [if_neg (by simp [isReleased, hmark])] at hget
  exact ⟨m, ⟨hget, h.own, hmark⟩, hc⟩

end Stands

/-! ## The two cycles -/

/-- What applying a declaration and adding the finalizer leave together. When both were accepted,
the spec is the declared one and the finalizer is there exactly if the accesses of the one came
before those of the other; else the later write has undone the earlier one. -/
theorem both_kept_iff {p : Policy} (hown : s.Owns d.locator) (ha : ApplyLog d a .configured)
    (hb : Job.Ran (Pass.reconcile p d.locator) b (.ok .finalizerAdded)) (hi : Interleaved a b c)
    (hc : Chain Serves s c s') :
    ∃ before after, s.get d.locator = .ok before ∧ s'.get d.locator = .ok after ∧
      (after.spec = d.spec ∧ after.hasFinalizer stackFinalizer = true ↔
        c = a ++ b ∨ c = b ++ a) ∧
      (after.spec = d.spec ∨
        after.spec = before.spec ∧ after.hasFinalizer stackFinalizer = true) := by
  obtain ⟨r', hm', hf', rfl⟩ := Pass.finalizerAdded_of_passLog (Pass.passLog_of_ran hb)
  cases ha with
  | configured r hm hs =>
    have hadded : ∀ x : Resource, (x.addFinalizer stackFinalizer).hasFinalizer stackFinalizer = true :=
      fun x => x.hasFinalizer_addFinalizer stackFinalizer
    -- In every order the two writes follow one another, and the copy of the second one stands.
    rcases interleaved_pairs hi with rfl | rfl | h | h
    · obtain ⟨hbefore, hc⟩ := Stands.start hown hm hc
      obtain ⟨m, hstands, hc⟩ := hbefore.update (by simpa using hbefore.own) (by simpa using hm) hc
      obtain ⟨rfl, hc⟩ := hstands.read hc
      obtain ⟨_, hafter, rfl⟩ := hstands.update (by simpa using hstands.own) (by simpa using hm') hc
      exact ⟨_, _, hbefore.get, hafter.get, by simp [hadded], by simp⟩
    · obtain ⟨hbefore, hc⟩ := Stands.start hown hm' hc
      obtain ⟨m, hstands, hc⟩ := hbefore.update (by simpa using hbefore.own) (by simpa using hm') hc
      obtain ⟨rfl, hc⟩ := hstands.read hc
      obtain ⟨_, hafter, rfl⟩ := hstands.update (by simpa using hstands.own) (by simpa using hm) hc
      exact ⟨_, _, hbefore.get, hafter.get, by simp [hadded], by simp⟩
    · obtain ⟨hget, rfl, hc⟩ := chain_overtakes h hc
      have hbefore : s.Stands d.locator r' := ⟨hget, hown r' hget, hm⟩
      obtain ⟨m, hstands, hc⟩ := hbefore.update (by simpa using hbefore.own) (by simpa using hm) hc
      obtain ⟨_, hafter, rfl⟩ := hstands.update (by simpa using hbefore.own) (by simpa using hm) hc
      have hnot := h.not_sequential (by simp) (by simp)
      exact ⟨_, _, hget, hafter.get, iff_of_false (by simp [hs]) hnot, by simp [hadded]⟩
    · obtain ⟨hget, rfl, hc⟩ := chain_overtakes h hc
      have hbefore : s.Stands d.locator r := ⟨hget, hown r hget, hm⟩
      obtain ⟨m, hstands, hc⟩ := hbefore.update (by simpa using hbefore.own) (by simpa using hm) hc
      obtain ⟨_, hafter, rfl⟩ := hstands.update (by simpa using hbefore.own) (by simpa using hm) hc
      have hnot := h.not_sequential (by simp) (by simp)
      exact ⟨_, _, hget, hafter.get, iff_of_false (by simp [hf']) (by rwa [or_comm]), by simp⟩

/-! ## A declaration that takes the finalizer back -/

def unmetResource : Resource := Course.newResource.withFinalizers []

def metResource : Resource := revise unmetResource (unmetResource.addFinalizer stackFinalizer)

/-- A declaration of the resource with another template. -/
def declaredResource : Resource :=
  unmetResource.withSpec { Spec.empty with template := some "u" }

def declaringLog : Log :=
  [⟨.getResource webLocator, .ok unmetResource⟩, ⟨.updateResource declaredResource, .ok ()⟩]

def meetingLog : Log :=
  [⟨.getResource webLocator, .ok unmetResource⟩,
    ⟨.updateResource (unmetResource.addFinalizer stackFinalizer), .ok ()⟩]

/-- The pass comes between the two accesses of the declaration. -/
def straddlingLog : Log :=
  [⟨.getResource webLocator, .ok unmetResource⟩, ⟨.getResource webLocator, .ok unmetResource⟩,
    ⟨.updateResource (unmetResource.addFinalizer stackFinalizer), .ok ()⟩,
    ⟨.updateResource declaredResource, .ok ()⟩]

theorem applyLog_declaringLog : ApplyLog declaredResource declaringLog .configured :=
  .configured unmetResource rfl (by decide)

theorem ran_meetingLog :
    Job.Ran (Pass.reconcile Pass.plainPolicy webLocator) meetingLog (.ok .finalizerAdded) :=
  (Pass.PassLog.read unmetResource (.entering rfl (by decide) (.ok ()))).ran

theorem interleaved_straddlingLog : Interleaved declaringLog meetingLog straddlingLog :=
  .left _ (.right _ (.right _ (.left _ .nil)))

theorem chain_straddlingLog :
    Chain Serves (webStore (Document.text unmetResource)) straddlingLog
      (webStore (Document.text (revise metResource declaredResource))) := by
  have hget : (webStore (Document.text unmetResource)).get webLocator = .ok unmetResource :=
    get_webStore (by decide)
  have hmet := @update_webStore (unmetResource.addFinalizer stackFinalizer) unmetResource
    (by decide) rfl rfl rfl (by decide)
  have hdeclared := @update_webStore declaredResource metResource (by decide) rfl rfl rfl
    (by decide)
  exact chain_read.mpr ⟨hget, chain_read.mpr ⟨hget, _, hmet, _, hdeclared, rfl⟩⟩

theorem owns_unmetResource : (webStore (Document.text unmetResource)).Owns webLocator := by
  intro r hr
  rw [get_webStore (by decide)] at hr
  cases hr
  rfl

theorem both_kept_iff_straddlingLog :
    (webStore (Document.text unmetResource)).Owns declaredResource.locator ∧
      ApplyLog declaredResource declaringLog .configured ∧
      Job.Ran (Pass.reconcile Pass.plainPolicy declaredResource.locator) meetingLog
        (.ok .finalizerAdded) ∧
      Interleaved declaringLog meetingLog straddlingLog ∧
      ∃ before after,
        (webStore (Document.text unmetResource)).get declaredResource.locator = .ok before ∧
        (webStore (Document.text (revise metResource declaredResource))).get
          declaredResource.locator = .ok after ∧
        (after.spec = declaredResource.spec ∧ after.hasFinalizer stackFinalizer = true ↔
          straddlingLog = declaringLog ++ meetingLog ∨
            straddlingLog = meetingLog ++ declaringLog) ∧
        (after.spec = declaredResource.spec ∨
          after.spec = before.spec ∧ after.hasFinalizer stackFinalizer = true) :=
  ⟨owns_unmetResource, applyLog_declaringLog, ran_meetingLog, interleaved_straddlingLog,
    both_kept_iff owns_unmetResource applyLog_declaringLog ran_meetingLog interleaved_straddlingLog
      chain_straddlingLog⟩

/-- The declaration and the pass have both succeeded, and the finalizer is gone. -/
theorem finalizer_taken_back :
    ¬ ∀ (s s' : Store) (p : Policy) (d : Resource) (a b c : Log), s.Owns d.locator →
        ApplyLog d a .configured →
        Job.Ran (Pass.reconcile p d.locator) b (.ok .finalizerAdded) → Interleaved a b c →
        Chain Serves s c s' → ∃ after, s'.get d.locator = .ok after ∧ after.spec = d.spec ∧
          after.hasFinalizer stackFinalizer = true := by
  intro h
  obtain ⟨after, hafter, -, hf⟩ := h _ _ Pass.plainPolicy declaredResource _ _ _ owns_unmetResource
    applyLog_declaringLog ran_meetingLog interleaved_straddlingLog chain_straddlingLog
  have hget : (webStore (Document.text (revise metResource declaredResource))).get webLocator =
      .ok (revise metResource declaredResource) := get_webStore (by decide)
  cases hget.symm.trans hafter
  exact absurd hf (by decide)

end Store
end StackKeeper
