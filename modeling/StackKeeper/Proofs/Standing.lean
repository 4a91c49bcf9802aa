import StackKeeper.Proofs.Course
/-!
# Passes over a stack that stands, and over one that is gone

What a pass does is narrowed down by what there is to be seen. While the stack that it looks up stands
and is ours, a pass goes by that stack: it updates or deletes it and never creates another one. Once
the stack is gone, a pass over a marked resource removes the finalizers, and one over a resource that is
not marked creates a stack.

Results:
* `standingLog_of_finalizeLog`: what is left of finishing a resource whose stack stands.
* `tendingLog_of_settleLog`, `isFor_of_tendingLog`: what is left of settling one.
* `released_of_finalizeLog`, `created_of_settleLog`: what a pass does when the stack is gone.
* `resourceLog_of_takes`: which resource a pass goes by.
-/
namespace StackKeeper

/-- The call was not refused: at most something was missing, or there was nothing to update. -/
def Event.Succeeds (e : Event) : Prop :=
  match e with
  | ⟨.getResource _, .error e⟩ => e.isNotFound = true
  | ⟨.updateResource _, .error e⟩ => e.isNotFound = true
  | ⟨.updateStatus _, .error e⟩ => e.isNotFound = true
  | ⟨.getStack _, .error e⟩ => e.isStackNotFound = true
  | ⟨.updateStack _, .error e⟩ => e.isNoUpdates = true ∨ e.isStackNotFound = true
  | ⟨.listResources, .error _⟩ | ⟨.getMembers _, .error _⟩ | ⟨.createStack _ _, .error _⟩
  | ⟨.deleteStack _, .error _⟩ => False
  | _ => True

namespace Event

variable {e : Error} {r : Resource} {stack : String} {inputs : StackInputs} {onFailure : Option String}

@[simp] theorem succeeds_updateResource :
    Succeeds ⟨.updateResource r, .error e⟩ ↔ e.isNotFound = true := Iff.rfl

@[simp] theorem succeeds_updateStatus :
    Succeeds ⟨.updateStatus r, .error e⟩ ↔ e.isNotFound = true := Iff.rfl

@[simp] theorem succeeds_getStack :
    Succeeds ⟨.getStack stack, .error e⟩ ↔ e.isStackNotFound = true := Iff.rfl

@[simp] theorem succeeds_updateStack : Succeeds ⟨.updateStack inputs, .error e⟩ ↔
    e.isNoUpdates = true ∨ e.isStackNotFound = true := Iff.rfl

@[simp] theorem not_succeeds_getMembers : ¬ Succeeds ⟨.getMembers stack, .error e⟩ := id

@[simp] theorem not_succeeds_createStack : ¬ Succeeds ⟨.createStack inputs onFailure, .error e⟩ := id

@[simp] theorem not_succeeds_deleteStack : ¬ Succeeds ⟨.deleteStack stack, .error e⟩ := id

end Event

/-- The event is no update call that misses a stack which is shown. -/
def Remote.Knows (m : Remote) (e : Event) : Prop :=
  match e with
  | ⟨.updateStack inputs, .error e⟩ => e.isStackNotFound = true → m.look inputs.stack = none
  | _ => True

/-- The call creates no stack, and changes or hands over no other stack than this one. -/
def Call.IsFor (id : String) (c : Call) : Prop :=
  match c with
  | .createStack _ _ => False
  | .updateStack inputs => inputs.stack = id
  | .deleteStack ref => ref = id
  | .submit q => q.stackId = id
  | _ => True

namespace Pass
open Refresh

variable {m : Remote} {p : Policy} {r : Resource} {c : RemoteStack} {log : Log}
  {result : Except Error Outcome}

/-! ## A stack that stands -/

theorem eq_of_answers {shown : RemoteStack} (hlook : m.look r.stackRef = some c)
    (ha : m.Answers ⟨.getStack r.stackRef, .ok shown⟩) : shown = c := by
  have hshown : m.look r.stackRef = some shown := ha
  exact Option.some.inj (hshown.symm.trans hlook)

theorem not_missing_of_answers {e : Error} (hlook : m.look r.stackRef = some c)
    (ha : m.Answers ⟨.getStack r.stackRef, .error e⟩) : e.isStackNotFound = false := by
  cases he : e.isStackNotFound with
  | false => rfl
  | true =>
    have hnone : m.look r.stackRef = none := ha he
    cases hlook.symm.trans hnone

/-- The logs of finishing a marked resource whose stack stands and is ours. -/
inductive StandingLog (p : Policy) (r : Resource) (c : RemoteStack) :
    Log → Except Error Outcome → Prop
  | unseen (e : Error) (he : e.isStackNotFound = false) :
    StandingLog p r c [⟨.getStack r.stackRef, .error e⟩] (.error e)
  | dryRun (hd : p.dryRun = true) : StandingLog p r c [⟨.getStack r.stackRef, .ok c⟩] (.ok .dryRun)
  | lost (hd : p.dryRun = false) (e : Error) (he : e.isStackNotFound = false) :
    StandingLog p r c [⟨.getStack r.stackRef, .ok c⟩, ⟨.getStack r.stackRef, .error e⟩] (.error e)
  | atWork (hd : p.dryRun = false) (hs : c.status = Lifecycle.deleteInProgress) :
    StandingLog p r c [⟨.getStack r.stackRef, .ok c⟩, ⟨.getStack r.stackRef, .ok c⟩,
      ⟨.submit (r.followRequest c.id), ()⟩] (.ok .handedOff)
  | refused (hd : p.dryRun = false) (hs : c.status ≠ Lifecycle.deleteInProgress) (e : Error) :
    StandingLog p r c [⟨.getStack r.stackRef, .ok c⟩, ⟨.getStack r.stackRef, .ok c⟩,
      ⟨.deleteStack c.id, .error e⟩] (.error e)
  | accepted (hd : p.dryRun = false) (hs : c.status ≠ Lifecycle.deleteInProgress) :
    StandingLog p r c [⟨.getStack r.stackRef, .ok c⟩, ⟨.getStack r.stackRef, .ok c⟩,
      ⟨.deleteStack c.id, .ok ()⟩, ⟨.submit (r.followRequest c.id), ()⟩] (.ok .deleting)

theorem standingLog_of_finalizeLog (h : FinalizeLog p r log result) (ha : ∀ e ∈ log, m.Answers e)
    (hlook : m.look r.stackRef = some c) (hst : r.status.stackStatus ≠ Lifecycle.deleteComplete)
    (hstands : c.isDeleted = false) (hown : c.isControlled = true) :
    StandingLog p r c log result := by
  have missing : ∀ {e : Error}, ⟨.getStack r.stackRef, .error e⟩ ∈ log → e.isStackNotFound = false :=
    fun he => not_missing_of_answers hlook (ha _ he)
  have found : ∀ shown : RemoteStack, ⟨.getStack r.stackRef, .ok shown⟩ ∈ log → shown = c :=
    fun _ hs => eq_of_answers hlook (ha _ hs)
  cases h with
  | recorded hs h => exact absurd hs hst
  | unseen hs e he => exact .unseen e he
  | absent hs e he h => cases he.symm.trans (missing (by simp))
  | deleted hs shown hd h =>
    cases found shown (by simp)
    cases hd.symm.trans hstands
  | standing hs shown hd h =>
    cases found shown (by simp)
    cases h with
    | dryRun hd => exact .dryRun hd
    | unseen hd e he => exact .lost hd e he
    | absent hd e he h => cases he.symm.trans (missing (by simp))
    | foreign hd shown hc h =>
      cases found shown (by simp)
      cases hc.symm.trans hown
    | atWork hd shown hc hs =>
      cases found shown (by simp)
      exact .atWork hd hs
    | refused hd shown hc hs e =>
      cases found shown (by simp)
      exact .refused hd hs e
    | accepted hd shown hc hs =>
      cases found shown (by simp)
      exact .accepted hd hs

/-- The logs of settling a resource that is not marked and whose stack stands and is ours. -/
inductive TendingLog (p : Policy) (r : Resource) (c : RemoteStack) :
    Log → Except Error Outcome → Prop
  | unseen (e : Error) (he : e.isStackNotFound = false) :
    TendingLog p r c [⟨.getStack r.stackRef, .error e⟩] (.error e)
  | settled {rest : Log} {result : Except Error Outcome} (h : UpdateLog p r c rest result) :
    TendingLog p r c (⟨.getStack r.stackRef, .ok c⟩ :: rest) result
  | atWork : TendingLog p r c
      [⟨.getStack r.stackRef, .ok c⟩, ⟨.submit (r.followRequest c.id), ()⟩] (.ok .handedOff)

theorem tendingLog_of_settleLog (h : SettleLog p r log result) (ha : ∀ e ∈ log, m.Answers e)
    (hlook : m.look r.stackRef = some c) (hstands : c.isDeleted = false)
    (hown : c.isControlled = true) : TendingLog p r c log result := by
  have found : ∀ shown : RemoteStack, ⟨.getStack r.stackRef, .ok shown⟩ ∈ log → shown = c :=
    fun _ hs => eq_of_answers hlook (ha _ hs)
  cases h with
  | unseen e he => exact .unseen e he
  | absent e he h => cases he.symm.trans (not_missing_of_answers hlook (ha _ List.mem_cons_self))
  | foreign shown hs h =>
    cases found shown (by simp)
    simp [hstands, hown] at hs
  | settled shown hs hc ht h =>
    cases found shown (by simp)
    exact .settled h
  | atWork shown hs hc ht =>
    cases found shown (by simp)
    exact .atWork

/-! ## Which stacks a pass calls for -/

theorem isFor_of_standingLog (h : StandingLog p r c log result) : ∀ e ∈ log, e.1.IsFor c.id := by
  cases h <;> simp [Call.IsFor, Resource.followRequest]

theorem isFor_of_refreshLog {id : String} {x : Except Error (Resource × Bool)}
    (h : RefreshLog r c log x) : ∀ e ∈ log, e.1.IsFor id := by
  cases h <;> simp [Call.IsFor]

theorem isFor_of_confirmLog {id : String} (h : ConfirmLog p r c log result) :
    ∀ e ∈ log, e.1.IsFor id := by
  cases h with
  | unlisted e log h | written log r' h => exact isFor_of_refreshLog h
  | rewritten log r' h answer ha | unwritten log r' h e he =>
    simp only [List.forall_mem_append, List.forall_mem_singleton]
    exact ⟨isFor_of_refreshLog h, trivial⟩

theorem isFor_of_updateLog (h : UpdateLog p r c log result) (hk : ∀ e ∈ log, m.Knows e)
    (hid : m.look c.id = some c) : ∀ e ∈ log, e.1.IsFor c.id := by
  cases h with
  | noTemplate ht | dryRun t ht hc hd => simp
  | current t ht hc h => exact isFor_of_refreshLog h
  | accepted t ht hc hd h =>
    refine List.forall_mem_cons.mpr ⟨rfl, ?_⟩
    cases h <;> simp [Call.IsFor, Resource.followRequest]
  | confirmed t ht hc hd e he h => exact List.forall_mem_cons.mpr ⟨rfl, isFor_of_confirmLog h⟩
  | recreated t ht hc hd e he h =>
    have hnone : m.look c.id = none :=
      hk ⟨.updateStack (p.inputs r t c.id), .error e⟩ List.mem_cons_self he
    cases hid.symm.trans hnone
  | refused t ht hc hd e hn he => simp [Call.IsFor, Policy.inputs]

theorem isFor_of_tendingLog (h : TendingLog p r c log result) (hk : ∀ e ∈ log, m.Knows e)
    (hid : m.look c.id = some c) : ∀ e ∈ log, e.1.IsFor c.id := by
  cases h with
  | unseen e he => simp [Call.IsFor]
  | settled h =>
    rw [List.forall_mem_cons] at hk
    exact List.forall_mem_cons.mpr ⟨trivial, isFor_of_updateLog h hk.2 hid⟩
  | atWork => simp [Call.IsFor, Resource.followRequest]

/-! ## How a pass over a standing stack ends -/

theorem ok_of_refreshLog {x : Except Error (Resource × Bool)} (h : RefreshLog r c log x)
    (hs : ∀ e ∈ log, e.Succeeds) : ∃ y, x = .ok y := by
  cases h with
  | unlisted e => simp at hs
  | noNews members hn | written members hn | gone members hn e he => exact ⟨_, rfl⟩
  | unwritten members hn e he => simp [he] at hs

theorem ok_of_recordLog {w : Resource} {id : String} {o : Outcome} (h : RecordLog w id o log result)
    (hs : ∀ e ∈ log, e.Succeeds) : result = .ok o := by
  cases h with
  | recorded answer ha => rfl
  | unrecorded e he => simp [he] at hs

theorem ok_of_confirmLog (h : ConfirmLog p r c log result) (hs : ∀ e ∈ log, e.Succeeds) :
    result = .ok .upToDate := by
  cases h with
  | unlisted e log h => simpa using ok_of_refreshLog h hs
  | written log r' h => rfl
  | rewritten log r' h answer ha => rfl
  | unwritten log r' h e he => simp [he, or_imp, forall_and] at hs

/-- With every call answered, the stack is handed over, updated, or found up to date. -/
theorem ok_of_tendingLog (h : TendingLog p r c log result) (hk : ∀ e ∈ log, m.Knows e)
    (hid : m.look c.id = some c) (hs : ∀ e ∈ log, e.Succeeds) (ht : r.spec.HasOneTemplate)
    (hwet : p.dryRun = false) : ∃ o ∈ [Outcome.handedOff, .updated, .upToDate], result = .ok o := by
  obtain ⟨t, ht⟩ := Spec.hasOneTemplate_iff.mp ht
  cases h with
  | unseen e he => simp [he] at hs
  | atWork => exact ⟨_, by simp, rfl⟩
  | settled h =>
    rw [List.forall_mem_cons] at hs hk
    cases h with
    | noTemplate ht' => cases ht.symm.trans ht'
    | dryRun t' ht' hc hd => cases hwet.symm.trans hd
    | current t' ht' hc h =>
      obtain ⟨y, rfl⟩ := ok_of_refreshLog h hs.2
      exact ⟨.upToDate, by simp, rfl⟩
    | accepted t' ht' hc hd h =>
      exact ⟨_, by simp, ok_of_recordLog h (List.forall_mem_cons.mp hs.2).2⟩
    | confirmed t' ht' hc hd e he h =>
      exact ⟨_, by simp, ok_of_confirmLog h (List.forall_mem_cons.mp hs.2).2⟩
    | recreated t' ht' hc hd e he h =>
      have hnone : m.look c.id = none :=
        hk.2 ⟨.updateStack (p.inputs r t' c.id), .error e⟩ List.mem_cons_self he
      cases hid.symm.trans hnone
    | refused t' ht' hc hd e hn he => simp [hn, he] at hs

/-! ## A stack that is gone -/

theorem deleted_of_isGone {shown : RemoteStack} (hgone : m.IsGone r.stackRef)
    (ha : m.Answers ⟨.getStack r.stackRef, .ok shown⟩) : shown.isDeleted = true := hgone shown ha

theorem ok_of_releaseLog {o : Outcome} (h : ReleaseLog r o log result) (hs : ∀ e ∈ log, e.Succeeds) :
    result = .ok o ∧
      ∃ answer, Forgiven answer ∧ log = [⟨.updateResource r.removeStackFinalizers, answer⟩] := by
  cases h with
  | released answer ha => exact ⟨rfl, answer, ha, rfl⟩
  | unreleased e he => simp [he] at hs

/-- A marked resource is released once its stack is gone: after a look-up, or without one if the
deletion was recorded. -/
theorem released_of_finalizeLog (h : FinalizeLog p r log result) (ha : ∀ e ∈ log, m.Answers e)
    (hs : ∀ e ∈ log, e.Succeeds)
    (hgone : r.status.stackStatus = Lifecycle.deleteComplete ∨ m.IsGone r.stackRef) :
    result = .ok .finalized ∧ ∃ looks answer, Forgiven answer ∧
      (looks = [] ∨ ∃ x, looks = [⟨.getStack r.stackRef, x⟩]) ∧
      log = looks ++ [⟨.updateResource r.removeStackFinalizers, answer⟩] := by
  cases h with
  | recorded hst h =>
    obtain ⟨hres, answer, hf, rfl⟩ := ok_of_releaseLog h hs
    exact ⟨hres, [], answer, hf, .inl rfl, rfl⟩
  | unseen hst e he => simp [he] at hs
  | absent hst e he h =>
    obtain ⟨hres, answer, hf, rfl⟩ := ok_of_releaseLog h (List.forall_mem_cons.mp hs).2
    exact ⟨hres, [_], answer, hf, .inr ⟨_, rfl⟩, rfl⟩
  | deleted hst shown hd h =>
    obtain ⟨hres, answer, hf, rfl⟩ := ok_of_releaseLog h (List.forall_mem_cons.mp hs).2
    exact ⟨hres, [_], answer, hf, .inr ⟨_, rfl⟩, rfl⟩
  | standing hst shown hd h =>
    have hdel := deleted_of_isGone (hgone.resolve_left hst) (ha _ List.mem_cons_self)
    cases hdel.symm.trans hd

/-- A resource that is not marked gets another stack once its stack is gone. -/
theorem created_of_settleLog (h : SettleLog p r log result) (ha : ∀ e ∈ log, m.Answers e)
    (hs : ∀ e ∈ log, e.Succeeds) (hgone : m.IsGone r.stackRef) (ht : r.spec.HasOneTemplate)
    (hwet : p.dryRun = false) : result = .ok .created ∧
      ∃ inputs onFailure id, ⟨.createStack inputs onFailure, .ok id⟩ ∈ log ∧
        inputs.stack = r.stackName := by
  obtain ⟨t, ht⟩ := Spec.hasOneTemplate_iff.mp ht
  have create : ∀ {first : Event} {rest : Log}, log = first :: rest → CreateLog p r rest result →
      result = .ok .created ∧ ∃ inputs onFailure id,
        ⟨.createStack inputs onFailure, .ok id⟩ ∈ log ∧ inputs.stack = r.stackName := by
    rintro first rest rfl h
    rw [List.forall_mem_cons] at hs
    cases h with
    | noTemplate ht' => cases ht.symm.trans ht'
    | dryRun t' ht' hd => cases hwet.symm.trans hd
    | refused t' ht' hd e => simp at hs
    | accepted t' ht' hd id h =>
      exact ⟨ok_of_recordLog h (List.forall_mem_cons.mp hs.2).2, p.inputs r t' r.stackName,
        r.spec.onFailure, id, by simp, rfl⟩
  cases h with
  | unseen e he => simp [he] at hs
  | absent e he h => exact create rfl h
  | foreign shown hd h => exact create rfl h
  | settled shown hd hc ht' h =>
    cases hd.symm.trans (deleted_of_isGone hgone (ha _ List.mem_cons_self))
  | atWork shown hd hc ht' =>
    cases hd.symm.trans (deleted_of_isGone hgone (ha _ List.mem_cons_self))

end Pass

namespace Course
open Pass Store

variable {l : Locator} {s s' : Store} {m : Remote} {p : Policy} {r : Resource} {log : Log}
  {result : Except Error Outcome}

/-- With every call answered, a pass goes by the resource that is stored. -/
theorem resourceLog_of_takes (h : (Step.pass m p log result).Takes l s s') (hget : s.get l = .ok r)
    (hs : ∀ e ∈ log, e.Succeeds) :
    ∃ rest, log = ⟨.getResource l, .ok r⟩ :: rest ∧ ResourceLog p r rest result ∧
      Chain (Moves l) s rest s' := by
  obtain ⟨hran, -, hc⟩ := h
  have hlog := passLog_of_ran hran
  have read : ∀ {answer : Except Error Resource} {rest : Log},
      log = ⟨.getResource l, answer⟩ :: rest → answer = .ok r ∧ Chain (Moves l) s rest s' := by
    rintro answer rest rfl
    obtain ⟨m', hm, hc⟩ := hc
    simp only [Moves, if_true] at hm
    rcases hm with ⟨rfl, rfl⟩ | ⟨⟨e, rfl, he⟩, -⟩
    · exact ⟨hget, hc⟩
    · cases he.symm.trans (hs _ List.mem_cons_self)
  cases hlog with
  | gone e he => cases (read rfl).1
  | unread e he => cases (read rfl).1
  | read r' h =>
    obtain ⟨heq, hrest⟩ := read rfl
    cases heq
    exact ⟨_, rfl, h, hrest⟩

end Course
end StackKeeper
