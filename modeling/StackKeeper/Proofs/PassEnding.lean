import StackKeeper.Proofs.PassLog
/-!
# How a pass ends

How the stages of a pass can end, and what a pass has seen when it ends up to date, finalized or with
a failure.

Results:
* `outcome_of_settleLog`, `outcome_of_finalizeLog`: how the two halves of a pass can end.
* `upToDate_of_passLog`: a pass that ends up to date found the stack of the resource settled.
* `foundGone_of_passLog`: a pass that ends finalized found the stack gone, or its deletion recorded.
* `finalizerAdded_of_passLog`: a pass that ends with the finalizer added is a read and a write.
* `failure_of_passLog`: a pass that fails passes on what a call was answered with, or found no single
  template.
-/
namespace StackKeeper

/-- Whether the answer to a call can be an error. -/
def Call.canFail : Call → Bool
  | .submit _ | .unfollow _ => false
  | _ => true

/-- A call was answered with the error. -/
def Log.FailedWith (log : Log) (e : Error) : Prop :=
  ∃ c : Call, c.canFail = true ∧ ⟨c, c.failed e⟩ ∈ log

theorem Log.failedWith_head {log : Log} {e : Error} (c : Call) (hc : c.canFail = true) :
    FailedWith (⟨c, c.failed e⟩ :: log) e := ⟨c, hc, List.mem_cons_self⟩

theorem Log.FailedWith.cons {log : Log} {e : Error} {event : Event} (h : log.FailedWith e) :
    FailedWith (event :: log) e := by
  obtain ⟨c, hc, hmem⟩ := h
  exact ⟨c, hc, List.mem_cons_of_mem _ hmem⟩

namespace Pass
open Refresh

variable {p : Policy} {l : Locator} {r : Resource} {s : RemoteStack} {log : Log}

/-! ## Which stage ends how -/

theorem outcome_of_recordLog {recorded : Resource} {id : String} {o o' : Outcome}
    (h : RecordLog recorded id o log (.ok o')) : o' = o := by
  cases h
  rfl

theorem outcome_of_createLog {o : Outcome} (h : CreateLog p r log (.ok o)) :
    o = .created ∨ o = .dryRun := by
  cases h with
  | dryRun t ht hd => exact .inr rfl
  | accepted t ht hd id h => exact .inl (outcome_of_recordLog h)

def settlingOutcomes : List Outcome := [.created, .updated, .upToDate, .handedOff, .dryRun]

theorem outcome_of_updateLog {o : Outcome} (h : UpdateLog p r s log (.ok o)) :
    o ∈ settlingOutcomes := by
  generalize hres : (Except.ok o : Except Error Outcome) = result at h
  have create : ∀ {rest}, CreateLog p r rest result → o ∈ settlingOutcomes := by
    rintro rest h
    subst hres
    rcases outcome_of_createLog h with rfl | rfl <;> simp [settlingOutcomes]
  cases h with
  | noTemplate ht => cases hres
  | @current t ht hc log x h =>
    cases x with
    | error e => cases hres
    | ok x =>
      cases hres
      simp [settlingOutcomes]
  | dryRun t ht hc hd =>
    cases hres
    simp [settlingOutcomes]
  | accepted t ht hc hd h =>
    subst hres
    simp [outcome_of_recordLog h, settlingOutcomes]
  | confirmed t ht hc hd e he h =>
    cases h <;> cases hres <;> simp [settlingOutcomes]
  | recreated t ht hc hd e he h => exact create h
  | refused t ht hc hd e hn he => cases hres

theorem outcome_of_settleLog {o : Outcome} (h : SettleLog p r log (.ok o)) :
    o ∈ settlingOutcomes := by
  have create : ∀ {rest}, CreateLog p r rest (.ok o) → o ∈ settlingOutcomes := by
    intro rest h
    rcases outcome_of_createLog h with rfl | rfl <;> simp [settlingOutcomes]
  cases h with
  | absent e he h => exact create h
  | foreign s hs h => exact create h
  | settled s hs hc ht h => exact outcome_of_updateLog h
  | atWork s hs hc ht => simp [settlingOutcomes]

theorem outcome_of_releaseLog {o o' : Outcome} (h : ReleaseLog r o log (.ok o')) : o' = o := by
  cases h
  rfl

def finishingOutcomes : List Outcome := [.finalized, .deleteSkipped, .deleting, .handedOff, .dryRun]

theorem outcome_of_finalizeLog {o : Outcome} (h : FinalizeLog p r log (.ok o)) :
    o ∈ finishingOutcomes := by
  have release : ∀ {rest}, ReleaseLog r .finalized rest (.ok o) → o ∈ finishingOutcomes := by
    intro rest h
    simp [outcome_of_releaseLog h, finishingOutcomes]
  cases h with
  | recorded hs h => exact release h
  | absent hs e he h => exact release h
  | deleted hs s hd h => exact release h
  | standing hs s hd h =>
    cases h with
    | dryRun hd => simp [finishingOutcomes]
    | absent hd e he h => exact release h
    | foreign hd s hc h => simp [outcome_of_releaseLog h, finishingOutcomes]
    | atWork hd s hc hs => simp [finishingOutcomes]
    | accepted hd s hc hs => simp [finishingOutcomes]

/-! ## Up to date -/

theorem upToDate_of_updateLog {result : Except Error Outcome} (h : UpdateLog p r s log result)
    (hr : result = .ok .upToDate) : ∃ t, r.spec.templateSource? = some t ∧
      ((isCurrent p r s = true ∧ ∃ x, RefreshLog r s log (.ok x)) ∨
        (isCurrent p r s = false ∧ p.dryRun = false ∧ ∃ e rest, e.isNoUpdates = true ∧
          log = ⟨.updateStack (p.inputs r t s.id), .error e⟩ :: rest ∧
          ConfirmLog p r s rest (.ok .upToDate))) := by
  cases h with
  | noTemplate ht => cases hr
  | @current t ht hc log x h =>
    cases x with
    | error e => cases hr
    | ok x => exact ⟨t, ht, .inl ⟨hc, x, h⟩⟩
  | dryRun t ht hc hd => cases hr
  | accepted t ht hc hd h =>
    subst hr
    cases h
  | confirmed t ht hc hd e he h =>
    subst hr
    exact ⟨t, ht, .inr ⟨hc, hd, e, _, he, rfl, h⟩⟩
  | recreated t ht hc hd e he h =>
    subst hr
    rcases outcome_of_createLog h with hx | hx <;> cases hx
  | refused t ht hc hd e hn he => cases hr

theorem upToDate_of_passLog (h : PassLog p l log (.ok .upToDate)) :
    ∃ r s rest, log = ⟨.getResource l, .ok r⟩ :: ⟨.getStack r.stackRef, .ok s⟩ :: rest ∧
      r.isMarked = false ∧ r.hasFinalizer stackFinalizer = true ∧ s.isDeleted = false ∧
      s.isControlled = true ∧ Lifecycle.isTerminal s.status = true ∧
      UpdateLog p r s rest (.ok .upToDate) := by
  cases h with
  | read r h =>
    generalize hres : (Except.ok Outcome.upToDate : Except Error Outcome) = result at h
    cases h with
    | idle hm hf => cases hres
    | finalizing hm hf h =>
      subst hres
      exact absurd (outcome_of_finalizeLog h) (by decide)
    | entering hm hf answer => cases answer <;> cases hres
    | settling hm hf h =>
      subst hres
      cases h with
      | absent e he h => rcases outcome_of_createLog h with hx | hx <;> cases hx
      | foreign s hs h => rcases outcome_of_createLog h with hx | hx <;> cases hx
      | settled s hs hc ht h => exact ⟨r, s, _, rfl, hm, hf, hs, hc, ht, h⟩

/-! ## Finalized -/

/-- How a pass came to find that the stack of the resource is gone. -/
def FoundGone (r : Resource) (log : Log) : Prop :=
  (∃ e, ⟨.getStack r.stackRef, .error e⟩ ∈ log ∧ e.isStackNotFound = true) ∨
    ∃ shown, ⟨.getStack r.stackRef, .ok shown⟩ ∈ log ∧ shown.isDeleted = true

theorem FoundGone.of_subset {r : Resource} {rest : Log} (h : FoundGone r log) (hsub : log ⊆ rest) :
    FoundGone r rest := by
  rcases h with ⟨e, he, hn⟩ | ⟨shown, hs, hd⟩
  · exact .inl ⟨e, hsub he, hn⟩
  · exact .inr ⟨shown, hsub hs, hd⟩

theorem foundGone_of_finalizeLog {r : Resource} {result : Except Error Outcome}
    (h : FinalizeLog p r log result) (hr : result = .ok .finalized) :
    r.status.stackStatus = Lifecycle.deleteComplete ∨ FoundGone r log := by
  cases h with
  | recorded hs h => exact .inl hs
  | unseen hs e he => cases hr
  | absent hs e he h => exact .inr (.inl ⟨e, List.mem_cons_self, he⟩)
  | deleted hs shown hd h => exact .inr (.inr ⟨shown, List.mem_cons_self, hd⟩)
  | standing hs shown hd h =>
    cases h with
    | dryRun hd => cases hr
    | unseen hd e he => cases hr
    | absent hd e he h => exact .inr (.inl ⟨e, by simp, he⟩)
    | foreign hd shown hc h => cases h <;> cases hr
    | atWork hd shown hc hs => cases hr
    | refused hd shown hc hs e => cases hr
    | accepted hd shown hc hs => cases hr

theorem foundGone_of_passLog (h : PassLog p l log (.ok .finalized)) :
    ∃ r rest, log = ⟨.getResource l, .ok r⟩ :: rest ∧
      (r.status.stackStatus = Lifecycle.deleteComplete ∨ FoundGone r log) := by
  cases h with
  | @read r rest _ h =>
    refine ⟨r, rest, rfl, ?_⟩
    generalize hres : (Except.ok Outcome.finalized : Except Error Outcome) = result at h
    cases h with
    | idle hm hf => cases hres
    | finalizing hm hf h =>
      exact (foundGone_of_finalizeLog h hres.symm).imp_right
        (FoundGone.of_subset · (List.subset_cons_self _ _))
    | settling hm hf h =>
      subst hres
      exact absurd (outcome_of_settleLog h) (by decide)
    | entering hm hf answer => cases answer <;> cases hres

/-! ## With the finalizer added -/

/-- A pass that ends with the finalizer added has read the resource and written it back. -/
theorem finalizerAdded_of_passLog (h : PassLog p l log (.ok .finalizerAdded)) :
    ∃ r, r.isMarked = false ∧ r.hasFinalizer stackFinalizer = false ∧
      log = [⟨.getResource l, .ok r⟩, ⟨.updateResource (r.addFinalizer stackFinalizer), .ok ()⟩] := by
  cases h with
  | read r h =>
    generalize hres : (Except.ok Outcome.finalizerAdded : Except Error Outcome) = result at h
    cases h with
    | idle hm hf => cases hres
    | finalizing hm hf h =>
      subst hres
      exact absurd (outcome_of_finalizeLog h) (by decide)
    | settling hm hf h =>
      subst hres
      exact absurd (outcome_of_settleLog h) (by decide)
    | entering hm hf answer =>
      cases answer with
      | error e => cases hres
      | ok _ => exact ⟨r, hm, hf, rfl⟩

/-! ## Failed -/

/-- Why a stage failed: a call was answered with the error, or the resource has no single template. -/
def Faults (r : Resource) (log : Log) (e : Error) : Prop :=
  log.FailedWith e ∨ (r.spec.templateSource? = none ∧ e = .templateNotUnique r.locator.text)

theorem Faults.cons {e : Error} {event : Event} (h : Faults r log e) : Faults r (event :: log) e :=
  h.imp_left .cons

theorem failedWith_of_refreshLog {e : Error} (h : RefreshLog r s log (.error e)) :
    log.FailedWith e := by
  cases h with
  | unlisted => exact Log.failedWith_head (.getMembers s.id) rfl
  | unwritten members hn => exact (Log.failedWith_head (.updateStatus (merged r s members)) rfl).cons

theorem failedWith_of_releaseLog {o : Outcome} {e : Error} (h : ReleaseLog r o log (.error e)) :
    log.FailedWith e := by
  cases h
  exact Log.failedWith_head (.updateResource r.removeStackFinalizers) rfl

theorem failedWith_of_recordLog {recorded : Resource} {id : String} {o : Outcome} {e : Error}
    (h : RecordLog recorded id o log (.error e)) : log.FailedWith e := by
  cases h
  exact Log.failedWith_head (.updateStatus recorded) rfl

theorem faults_of_createLog {e : Error} (h : CreateLog p r log (.error e)) : Faults r log e := by
  cases h with
  | noTemplate ht => exact .inr ⟨ht, rfl⟩
  | refused t ht hd =>
    exact .inl (Log.failedWith_head (.createStack (p.inputs r t r.stackName) r.spec.onFailure) rfl)
  | accepted t ht hd id h =>
    exact .inl (failedWith_of_recordLog h).cons

theorem failedWith_of_confirmLog {e : Error} (h : ConfirmLog p r s log (.error e)) :
    log.FailedWith e := by
  cases h with
  | unlisted _ log h => exact failedWith_of_refreshLog h
  | unwritten log r' h =>
    exact ⟨.updateStatus r', rfl, List.mem_append_right _ List.mem_cons_self⟩

theorem faults_of_updateLog {e : Error} (h : UpdateLog p r s log (.error e)) : Faults r log e := by
  generalize hres : (Except.error e : Except Error Outcome) = result at h
  cases h with
  | noTemplate ht =>
    cases hres
    exact .inr ⟨ht, rfl⟩
  | @current t ht hc log x h =>
    cases x with
    | error e' =>
      cases hres
      exact .inl (failedWith_of_refreshLog h)
    | ok x => cases hres
  | dryRun t ht hc hd => cases hres
  | accepted t ht hc hd h =>
    subst hres
    exact .inl (failedWith_of_recordLog h).cons
  | confirmed t ht hc hd e he h =>
    subst hres
    exact .inl (failedWith_of_confirmLog h).cons
  | recreated t ht hc hd e he h =>
    subst hres
    exact (faults_of_createLog h).cons
  | refused t ht hc hd e' hn he =>
    cases hres
    exact .inl (Log.failedWith_head (.updateStack (p.inputs r t s.id)) rfl)

theorem faults_of_settleLog {e : Error} (h : SettleLog p r log (.error e)) : Faults r log e := by
  cases h with
  | unseen e he => exact .inl (Log.failedWith_head (.getStack r.stackRef) rfl)
  | absent _ he h => exact (faults_of_createLog h).cons
  | foreign s hs h => exact (faults_of_createLog h).cons
  | settled s hs hc ht h => exact (faults_of_updateLog h).cons

theorem failedWith_of_deleteLog {e : Error} (h : DeleteLog p r log (.error e)) :
    log.FailedWith e := by
  cases h with
  | unseen hd => exact Log.failedWith_head (.getStack r.stackRef) rfl
  | absent hd _ he h => exact (failedWith_of_releaseLog h).cons
  | foreign hd s hc h => exact (failedWith_of_releaseLog h).cons
  | refused hd s hc hs => exact (Log.failedWith_head (.deleteStack s.id) rfl).cons

theorem failedWith_of_finalizeLog {e : Error} (h : FinalizeLog p r log (.error e)) :
    log.FailedWith e := by
  cases h with
  | recorded hs h => exact failedWith_of_releaseLog h
  | unseen hs => exact Log.failedWith_head (.getStack r.stackRef) rfl
  | absent hs _ he h => exact (failedWith_of_releaseLog h).cons
  | deleted hs s hd h => exact (failedWith_of_releaseLog h).cons
  | standing hs s hd h => exact (failedWith_of_deleteLog h).cons

theorem failure_of_passLog {e : Error} (h : PassLog p l log (.error e)) :
    log.FailedWith e ∨ ∃ r rest, log = ⟨.getResource l, .ok r⟩ :: rest ∧
      r.spec.templateSource? = none ∧ e = .templateNotUnique r.locator.text := by
  cases h with
  | unread => exact .inl (Log.failedWith_head (.getResource l) rfl)
  | @read r rest _ h =>
    have hfaults : Faults r rest e := by
      generalize hres : (Except.error e : Except Error Outcome) = result at h
      cases h with
      | idle hm hf => cases hres
      | finalizing hm hf h =>
        subst hres
        exact .inl (failedWith_of_finalizeLog h)
      | settling hm hf h =>
        subst hres
        exact faults_of_settleLog h
      | entering hm hf answer =>
        cases answer with
        | ok _ => cases hres
        | error e' =>
          cases hres
          exact .inl (Log.failedWith_head (.updateResource (r.addFinalizer stackFinalizer)) rfl)
    rcases hfaults.cons with hcall | ⟨ht, he⟩
    · exact .inl hcall
    · exact .inr ⟨r, rest, rfl, ht, he⟩

end Pass
end StackKeeper
