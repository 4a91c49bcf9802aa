import StackKeeper.Proofs.StageLog
/-!
# What a pass can do

The logs of settling the stack of a resource that is not marked, of finishing a marked one, and from
them those of a whole pass.

Results:
* `settleLog_of_ran`, `deleteLog_of_ran`, `finalizeLog_of_ran`: the three stages have no other logs
  than those in their relations.
* `SettleLog.ran`, `DeleteLog.ran`, `FinalizeLog.ran`: they have all of those.
* `ran_reconcile_iff`: the logs of a pass.
-/
namespace StackKeeper.Pass
open Job Refresh

variable {p : Policy} {r : Resource} {log : Log}

/-! ## Settling -/

/-- The logs of settling the stack of a resource that is not marked. -/
inductive SettleLog (p : Policy) (r : Resource) : Log → Except Error Outcome → Prop
  | unseen (e : Error) (he : e.isStackNotFound = false) :
    SettleLog p r [⟨.getStack r.stackRef, .error e⟩] (.error e)
  | absent (e : Error) (he : e.isStackNotFound = true) {rest : Log}
    {result : Except Error Outcome} (h : CreateLog p r rest result) :
    SettleLog p r (⟨.getStack r.stackRef, .error e⟩ :: rest) result
  | foreign (s : RemoteStack) (hs : (s.isDeleted || !s.isControlled) = true) {rest : Log}
    {result : Except Error Outcome} (h : CreateLog p r rest result) :
    SettleLog p r (⟨.getStack r.stackRef, .ok s⟩ :: rest) result
  | settled (s : RemoteStack) (hs : s.isDeleted = false) (hc : s.isControlled = true)
    (ht : Lifecycle.isTerminal s.status = true) {rest : Log} {result : Except Error Outcome}
    (h : UpdateLog p r s rest result) :
    SettleLog p r (⟨.getStack r.stackRef, .ok s⟩ :: rest) result
  | atWork (s : RemoteStack) (hs : s.isDeleted = false) (hc : s.isControlled = true)
    (ht : Lifecycle.isTerminal s.status = false) :
    SettleLog p r [⟨.getStack r.stackRef, .ok s⟩, ⟨.submit (r.followRequest s.id), ()⟩]
      (.ok .handedOff)

theorem settleLog_of_ran {result : Except Error Outcome} (h : Ran (settle p r) log result) :
    SettleLog p r log result := by
  rcases ran_lookUp_bind h with ⟨answer, found, rest, hf, rfl, hrest⟩ | ⟨e, he, rfl, rfl⟩
  · cases hf with
    | absent e he => exact .absent e he (createLog_of_ran hrest)
    | here s =>
      cases hs : s.isDeleted || !s.isControlled with
      | true =>
        simp only [hs, if_true] at hrest
        exact .foreign s hs (createLog_of_ran hrest)
      | false =>
        obtain ⟨hd, hc⟩ : s.isDeleted = false ∧ s.isControlled = true := by simpa using hs
        cases ht : Lifecycle.isTerminal s.status with
        | true =>
          simp only [hs, ht, Bool.false_eq_true, if_false, if_true] at hrest
          exact .settled s hd hc ht (updateLog_of_ran hrest)
        | false =>
          simp only [hs, ht, Bool.false_eq_true, if_false] at hrest
          obtain ⟨tail, rfl, htail⟩ := ran_submit_bind hrest
          obtain ⟨rfl, rfl⟩ := ran_pure.mp htail
          exact .atWork s hd hc ht
  · exact .unseen e he

theorem SettleLog.ran {result : Except Error Outcome} (h : SettleLog p r log result) :
    Ran (settle p r) log result := by
  rw [settle]
  cases h with
  | unseen e he => exact ran_lookUp_error he
  | absent e he h => exact (Found.absent e he).ran_bind h.ran
  | foreign s hs h =>
    refine (Found.here s).ran_bind ?_
    simp only [hs, if_true]
    exact h.ran
  | settled s hs hc ht h =>
    refine (Found.here s).ran_bind ?_
    simp only [hs, hc, ht, Bool.not_true, Bool.or_false, Bool.false_eq_true, if_false, if_true]
    exact h.ran
  | atWork s hs hc ht =>
    refine (Found.here s).ran_bind ?_
    simp only [hs, hc, ht, Bool.not_true, Bool.or_false, Bool.false_eq_true, if_false]
    exact .bind (ran_submit.mpr ⟨rfl, rfl⟩) ⟨rfl, rfl⟩

/-! ## Deleting -/

/-- The logs of deleting the stack of a marked resource. -/
inductive DeleteLog (p : Policy) (r : Resource) : Log → Except Error Outcome → Prop
  | dryRun (hd : p.dryRun = true) : DeleteLog p r [] (.ok .dryRun)
  | unseen (hd : p.dryRun = false) (e : Error) (he : e.isStackNotFound = false) :
    DeleteLog p r [⟨.getStack r.stackRef, .error e⟩] (.error e)
  | absent (hd : p.dryRun = false) (e : Error) (he : e.isStackNotFound = true) {rest : Log}
    {result : Except Error Outcome} (h : ReleaseLog r .finalized rest result) :
    DeleteLog p r (⟨.getStack r.stackRef, .error e⟩ :: rest) result
  | foreign (hd : p.dryRun = false) (s : RemoteStack) (hc : s.isControlled = false) {rest : Log}
    {result : Except Error Outcome} (h : ReleaseLog r .deleteSkipped rest result) :
    DeleteLog p r (⟨.getStack r.stackRef, .ok s⟩ :: rest) result
  | atWork (hd : p.dryRun = false) (s : RemoteStack) (hc : s.isControlled = true)
    (hs : s.status = Lifecycle.deleteInProgress) :
    DeleteLog p r [⟨.getStack r.stackRef, .ok s⟩, ⟨.submit (r.followRequest s.id), ()⟩]
      (.ok .handedOff)
  | refused (hd : p.dryRun = false) (s : RemoteStack) (hc : s.isControlled = true)
    (hs : s.status ≠ Lifecycle.deleteInProgress) (e : Error) :
    DeleteLog p r [⟨.getStack r.stackRef, .ok s⟩, ⟨.deleteStack s.id, .error e⟩] (.error e)
  | accepted (hd : p.dryRun = false) (s : RemoteStack) (hc : s.isControlled = true)
    (hs : s.status ≠ Lifecycle.deleteInProgress) :
    DeleteLog p r [⟨.getStack r.stackRef, .ok s⟩, ⟨.deleteStack s.id, .ok ()⟩,
      ⟨.submit (r.followRequest s.id), ()⟩] (.ok .deleting)

theorem deleteLog_of_ran {result : Except Error Outcome} (h : Ran (delete p r) log result) :
    DeleteLog p r log result := by
  rw [delete] at h
  cases hd : p.dryRun with
  | true =>
    simp only [hd, if_true] at h
    obtain ⟨rfl, rfl⟩ := ran_pure.mp h
    exact .dryRun hd
  | false =>
    simp only [hd, Bool.false_eq_true, if_false] at h
    rcases ran_lookUp_bind h with ⟨answer, found, rest, hf, rfl, hrest⟩ | ⟨e, he, rfl, rfl⟩
    · cases hf with
      | absent e he => exact .absent hd e he (releaseLog_of_ran hrest)
      | here s =>
        cases hc : s.isControlled with
        | false =>
          simp only [hc, Bool.not_false, if_true] at hrest
          exact .foreign hd s hc (releaseLog_of_ran hrest)
        | true =>
          by_cases hs : s.status = Lifecycle.deleteInProgress
          · simp only [hc, hs, Bool.not_true, Bool.false_eq_true, if_false, beq_self_eq_true,
              if_true] at hrest
            obtain ⟨tail, rfl, htail⟩ := ran_submit_bind hrest
            obtain ⟨rfl, rfl⟩ := ran_pure.mp htail
            exact .atWork hd s hc hs
          · simp only [hc, beq_eq_false_iff_ne.mpr hs, Bool.not_true, Bool.false_eq_true,
              if_false] at hrest
            rcases ran_bind.mp hrest with ⟨e, hx, rfl⟩ | ⟨_, first, tail, hx, htail, rfl⟩
            · rw [ran_deleteStack] at hx
              exact hx ▸ .refused hd s hc hs e
            · rw [ran_deleteStack] at hx
              obtain ⟨last, rfl, hlast⟩ := ran_submit_bind htail
              obtain ⟨rfl, rfl⟩ := ran_pure.mp hlast
              exact hx ▸ .accepted hd s hc hs
    · exact .unseen hd e he

theorem DeleteLog.ran {result : Except Error Outcome} (h : DeleteLog p r log result) :
    Ran (delete p r) log result := by
  rw [delete]
  cases h with
  | dryRun hd =>
    simp only [hd, if_true]
    exact ⟨rfl, rfl⟩
  | unseen hd e he =>
    simp only [hd, Bool.false_eq_true, if_false]
    exact ran_lookUp_error he
  | absent hd e he h =>
    simp only [hd, Bool.false_eq_true, if_false]
    exact (Found.absent e he).ran_bind h.ran
  | foreign hd s hc h =>
    simp only [hd, Bool.false_eq_true, if_false]
    refine (Found.here s).ran_bind ?_
    simp only [hc, Bool.not_false, if_true]
    exact h.ran
  | atWork hd s hc hs =>
    simp only [hd, Bool.false_eq_true, if_false]
    refine (Found.here s).ran_bind ?_
    simp only [hc, hs, Bool.not_true, Bool.false_eq_true, if_false, beq_self_eq_true, if_true]
    exact .bind (ran_submit.mpr ⟨rfl, rfl⟩) ⟨rfl, rfl⟩
  | refused hd s hc hs e =>
    simp only [hd, Bool.false_eq_true, if_false]
    refine (Found.here s).ran_bind ?_
    simp only [hc, beq_eq_false_iff_ne.mpr hs, Bool.not_true, Bool.false_eq_true, if_false]
    exact .bind_error (ran_deleteStack.mpr rfl)
  | accepted hd s hc hs =>
    simp only [hd, Bool.false_eq_true, if_false]
    refine (Found.here s).ran_bind ?_
    simp only [hc, beq_eq_false_iff_ne.mpr hs, Bool.not_true, Bool.false_eq_true, if_false]
    exact .bind (ran_deleteStack.mpr rfl) (.bind (ran_submit.mpr ⟨rfl, rfl⟩) ⟨rfl, rfl⟩)

/-- The logs of finishing a marked resource. -/
inductive FinalizeLog (p : Policy) (r : Resource) : Log → Except Error Outcome → Prop
  | recorded (hs : r.status.stackStatus = Lifecycle.deleteComplete) {log : Log}
    {result : Except Error Outcome} (h : ReleaseLog r .finalized log result) :
    FinalizeLog p r log result
  | unseen (hs : r.status.stackStatus ≠ Lifecycle.deleteComplete) (e : Error)
    (he : e.isStackNotFound = false) :
    FinalizeLog p r [⟨.getStack r.stackRef, .error e⟩] (.error e)
  | absent (hs : r.status.stackStatus ≠ Lifecycle.deleteComplete) (e : Error)
    (he : e.isStackNotFound = true) {rest : Log} {result : Except Error Outcome}
    (h : ReleaseLog r .finalized rest result) :
    FinalizeLog p r (⟨.getStack r.stackRef, .error e⟩ :: rest) result
  | deleted (hs : r.status.stackStatus ≠ Lifecycle.deleteComplete) (s : RemoteStack)
    (hd : s.isDeleted = true) {rest : Log} {result : Except Error Outcome}
    (h : ReleaseLog r .finalized rest result) :
    FinalizeLog p r (⟨.getStack r.stackRef, .ok s⟩ :: rest) result
  | standing (hs : r.status.stackStatus ≠ Lifecycle.deleteComplete) (s : RemoteStack)
    (hd : s.isDeleted = false) {rest : Log} {result : Except Error Outcome}
    (h : DeleteLog p r rest result) :
    FinalizeLog p r (⟨.getStack r.stackRef, .ok s⟩ :: rest) result

theorem finalizeLog_of_ran {result : Except Error Outcome} (h : Ran (finalize p r) log result) :
    FinalizeLog p r log result := by
  rw [finalize] at h
  by_cases hs : r.status.stackStatus = Lifecycle.deleteComplete
  · simp only [hs, beq_self_eq_true, if_true] at h
    exact .recorded hs (releaseLog_of_ran h)
  simp only [beq_eq_false_iff_ne.mpr hs, Bool.false_eq_true, if_false] at h
  rcases ran_lookUp_bind h with ⟨answer, found, rest, hf, rfl, hrest⟩ | ⟨e, he, rfl, rfl⟩
  · cases hf with
    | absent e he => exact .absent hs e he (releaseLog_of_ran hrest)
    | here s =>
      cases hd : s.isDeleted with
      | true =>
        simp only [hd, if_true] at hrest
        exact .deleted hs s hd (releaseLog_of_ran hrest)
      | false =>
        simp only [hd, Bool.false_eq_true, if_false] at hrest
        exact .standing hs s hd (deleteLog_of_ran hrest)
  · exact .unseen hs e he

theorem FinalizeLog.ran {result : Except Error Outcome} (h : FinalizeLog p r log result) :
    Ran (finalize p r) log result := by
  rw [finalize]
  cases h with
  | recorded hs h =>
    simp only [hs, beq_self_eq_true, if_true]
    exact h.ran
  | unseen hs e he =>
    simp only [beq_eq_false_iff_ne.mpr hs, Bool.false_eq_true, if_false]
    exact ran_lookUp_error he
  | absent hs e he h =>
    simp only [beq_eq_false_iff_ne.mpr hs, Bool.false_eq_true, if_false]
    exact (Found.absent e he).ran_bind h.ran
  | deleted hs s hd h =>
    simp only [beq_eq_false_iff_ne.mpr hs, Bool.false_eq_true, if_false]
    refine (Found.here s).ran_bind ?_
    simp only [hd, if_true]
    exact h.ran
  | standing hs s hd h =>
    simp only [beq_eq_false_iff_ne.mpr hs, Bool.false_eq_true, if_false]
    refine (Found.here s).ran_bind ?_
    simp only [hd, Bool.false_eq_true, if_false]
    exact h.ran

/-! ## A whole pass -/

/-- The logs of what a pass does with the resource it has read. -/
inductive ResourceLog (p : Policy) (r : Resource) : Log → Except Error Outcome → Prop
  | idle (hm : r.isMarked = true) (hf : r.hasStackFinalizer = false) :
    ResourceLog p r [] (.ok .idle)
  | finalizing (hm : r.isMarked = true) (hf : r.hasStackFinalizer = true) {log : Log}
    {result : Except Error Outcome} (h : FinalizeLog p r log result) : ResourceLog p r log result
  | settling (hm : r.isMarked = false) (hf : r.hasFinalizer stackFinalizer = true) {log : Log}
    {result : Except Error Outcome} (h : SettleLog p r log result) : ResourceLog p r log result
  | entering (hm : r.isMarked = false) (hf : r.hasFinalizer stackFinalizer = false)
    (answer : Except Error Unit) :
    ResourceLog p r [⟨.updateResource (r.addFinalizer stackFinalizer), answer⟩]
      (answer.map fun _ => .finalizerAdded)

theorem resourceLog_of_ran {result : Except Error Outcome} (h : Ran (onResource p r) log result) :
    ResourceLog p r log result := by
  rw [onResource] at h
  cases hm : r.isMarked with
  | true =>
    cases hf : r.hasStackFinalizer with
    | true =>
      simp only [hm, hf, if_true] at h
      exact .finalizing hm hf (finalizeLog_of_ran h)
    | false =>
      simp only [hm, hf, if_true, Bool.false_eq_true, if_false] at h
      obtain ⟨rfl, rfl⟩ := ran_pure.mp h
      exact .idle hm hf
  | false =>
    cases hf : r.hasFinalizer stackFinalizer with
    | true =>
      simp only [hm, hf, if_true, Bool.false_eq_true, if_false] at h
      exact .settling hm hf (settleLog_of_ran h)
    | false =>
      simp only [hm, hf, Bool.false_eq_true, if_false, ran_bind, ran_updateResource, ran_pure] at h
      rcases h with ⟨e, rfl, rfl⟩ | ⟨_, _, _, rfl, ⟨rfl, rfl⟩, rfl⟩
      · exact .entering hm hf (.error e)
      · exact .entering hm hf (.ok ())

theorem ResourceLog.ran {result : Except Error Outcome} (h : ResourceLog p r log result) :
    Ran (onResource p r) log result := by
  rw [onResource]
  cases h with
  | idle hm hf =>
    simp only [hm, hf, if_true, Bool.false_eq_true, if_false]
    exact ⟨rfl, rfl⟩
  | finalizing hm hf h =>
    simp only [hm, hf, if_true]
    exact h.ran
  | settling hm hf h =>
    simp only [hm, hf, if_true, Bool.false_eq_true, if_false]
    exact h.ran
  | entering hm hf answer =>
    simp only [hm, hf, Bool.false_eq_true, if_false]
    cases answer with
    | ok _ => exact .bind (ran_updateResource.mpr rfl) ⟨rfl, rfl⟩
    | error e => exact .bind_error (ran_updateResource.mpr rfl)

/-- The logs of a pass. -/
inductive PassLog (p : Policy) (l : Locator) : Log → Except Error Outcome → Prop
  | gone (e : Error) (he : e.isNotFound = true) :
    PassLog p l [⟨.getResource l, .error e⟩] (.ok .resourceGone)
  | unread (e : Error) (he : e.isNotFound = false) :
    PassLog p l [⟨.getResource l, .error e⟩] (.error e)
  | read (r : Resource) {rest : Log} {result : Except Error Outcome}
    (h : ResourceLog p r rest result) : PassLog p l (⟨.getResource l, .ok r⟩ :: rest) result

theorem passLog_of_ran {l : Locator} {result : Except Error Outcome}
    (h : Ran (reconcile p l) log result) : PassLog p l log result := by
  rw [reconcile, ran_attempt_bind] at h
  obtain ⟨answer, first, rest, hg, h, rfl⟩ := h
  rw [ran_getResource] at hg
  subst hg
  cases answer with
  | ok r => exact .read r (resourceLog_of_ran h)
  | error e =>
    cases he : e.isNotFound with
    | true =>
      simp only [he, if_true] at h
      obtain ⟨rfl, rfl⟩ := ran_pure.mp h
      exact .gone e he
    | false =>
      simp only [he, Bool.false_eq_true, if_false] at h
      obtain ⟨rfl, rfl⟩ := ran_throw.mp h
      exact .unread e he

theorem PassLog.ran {l : Locator} {result : Except Error Outcome} (h : PassLog p l log result) :
    Ran (reconcile p l) log result := by
  rw [reconcile]
  cases h with
  | gone e he =>
    refine .attempt_bind (ran_getResource.mpr rfl) ?_
    simp only [he, if_true]
    exact ⟨rfl, rfl⟩
  | unread e he =>
    refine .attempt_bind (ran_getResource.mpr rfl) ?_
    simp only [he, Bool.false_eq_true, if_false]
    exact ⟨rfl, rfl⟩
  | read r h => exact .attempt_bind (ran_getResource.mpr rfl) h.ran

theorem ran_reconcile_iff {l : Locator} {result : Except Error Outcome} :
    Ran (reconcile p l) log result ↔ PassLog p l log result :=
  ⟨passLog_of_ran, PassLog.ran⟩

end StackKeeper.Pass
