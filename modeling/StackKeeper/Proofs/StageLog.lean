import StackKeeper.Pass
import StackKeeper.Proofs.Log
/-!
# What the stages of a pass can do

Every log of a stage of a pass is one of the few below. There is one relation for each stage, with
one case for each way through it; a case says which calls were made, what was answered, what was
known when they were made, and how the stage ends.

Results:
* `refreshLog_of_ran`, `releaseLog_of_ran`, `recordLog_of_ran`, `createLog_of_ran`,
  `updateLog_of_ran`: a stage has no other logs than those in its relation.
* `RefreshLog.ran`, `ReleaseLog.ran`, `RecordLog.ran`, `CreateLog.ran`, `UpdateLog.ran`: it has all of
  those.
-/
namespace StackKeeper

namespace Refresh
open Job

/-- The resource with an observation merged into its status. -/
def merged (r : Resource) (s : RemoteStack) (members : List Member) : Resource :=
  r.withStatus (r.status.merge s members)

/-- The logs of refreshing a status from a stack at hand. -/
inductive RefreshLog (r : Resource) (s : RemoteStack) : Log → Except Error (Resource × Bool) → Prop
  | unlisted (e : Error) : RefreshLog r s [⟨.getMembers s.id, .error e⟩] (.error e)
  | noNews (members : List Member) (h : r.status.isNews s members = false) :
    RefreshLog r s [⟨.getMembers s.id, .ok members⟩] (.ok (r, false))
  | written (members : List Member) (h : r.status.isNews s members = true) :
    RefreshLog r s [⟨.getMembers s.id, .ok members⟩, ⟨.updateStatus (merged r s members), .ok ()⟩]
      (.ok (merged r s members, true))
  | gone (members : List Member) (h : r.status.isNews s members = true) (e : Error)
    (he : e.isNotFound = true) :
    RefreshLog r s
      [⟨.getMembers s.id, .ok members⟩, ⟨.updateStatus (merged r s members), .error e⟩]
      (.ok (merged r s members, false))
  | unwritten (members : List Member) (h : r.status.isNews s members = true) (e : Error)
    (he : e.isNotFound = false) :
    RefreshLog r s
      [⟨.getMembers s.id, .ok members⟩, ⟨.updateStatus (merged r s members), .error e⟩] (.error e)

theorem refreshLog_of_ran {d : Option Deadline} {r : Resource} {s : RemoteStack} {log : Log}
    {result : Except Error (Resource × Bool)} (h : Ran (refresh d r (some s)) log result) :
    RefreshLog r s log result := by
  simp only [refresh, observe, pure_bind, ran_bind, ran_getMembers] at h
  rcases h with ⟨e, rfl, rfl⟩ | ⟨members, _, rest, rfl, h, rfl⟩
  · exact .unlisted e
  · cases hn : r.status.isNews s members with
    | false =>
      simp only [hn, Bool.false_eq_true, if_false, ran_pure] at h
      obtain ⟨rfl, rfl⟩ := h
      exact .noNews members hn
    | true =>
      simp only [hn, if_true, persist, bind_assoc, ran_attempt_bind, ran_updateStatus] at h
      obtain ⟨answer, _, tail, rfl, h, rfl⟩ := h
      cases answer with
      | ok _ =>
        simp only [pure_bind, ran_pure] at h
        obtain ⟨rfl, rfl⟩ := h
        exact .written members hn
      | error e =>
        cases he : e.isNotFound with
        | true =>
          simp only [he, if_true, pure_bind, ran_pure] at h
          obtain ⟨rfl, rfl⟩ := h
          exact .gone members hn e he
        | false =>
          simp only [he, Bool.false_eq_true, if_false] at h
          obtain ⟨rfl, rfl⟩ := ran_throw_bind.mp h
          exact .unwritten members hn e he

theorem RefreshLog.ran {d : Option Deadline} {r : Resource} {s : RemoteStack} {log : Log}
    {result : Except Error (Resource × Bool)} (h : RefreshLog r s log result) :
    Ran (refresh d r (some s)) log result := by
  simp only [refresh, observe, pure_bind]
  cases h with
  | unlisted e => exact .bind_error (ran_getMembers.mpr rfl)
  | noNews members h =>
    refine .bind (ran_getMembers.mpr rfl) ?_
    simp only [h, Bool.false_eq_true, if_false]
    exact ⟨rfl, rfl⟩
  | written members h =>
    refine .bind (ran_getMembers.mpr rfl) ?_
    simp only [h, if_true, persist, bind_assoc]
    exact .attempt_bind (ran_updateStatus.mpr rfl) ⟨rfl, rfl⟩
  | gone members h e he =>
    refine .bind (ran_getMembers.mpr rfl) ?_
    simp only [h, if_true, persist, bind_assoc]
    refine .attempt_bind (ran_updateStatus.mpr rfl) ?_
    simp only [he, if_true]
    exact ⟨rfl, rfl⟩
  | unwritten members h e he =>
    refine .bind (ran_getMembers.mpr rfl) ?_
    simp only [h, if_true, persist, bind_assoc]
    refine .attempt_bind (ran_updateStatus.mpr rfl) ?_
    simp only [he, Bool.false_eq_true, if_false]
    exact ran_throw_bind.mpr ⟨rfl, rfl⟩
end Refresh

namespace Pass
open Job Refresh

variable {p : Policy} {r : Resource} {log : Log}

/-! ## Looking up and releasing -/

/-- What a pass makes of a look-up it can go on with: the stack, or none if there is none. -/
inductive Found : Except Error RemoteStack → Option RemoteStack → Prop
  | here (s : RemoteStack) : Found (.ok s) (some s)
  | absent (e : Error) (he : e.isStackNotFound = true) : Found (.error e) none

/-- What follows a look-up runs unless it failed for another reason than a missing stack. -/
theorem ran_lookUp_bind {f : Option RemoteStack → Job Outcome} {result : Except Error Outcome}
    (h : Ran (lookUp p r >>= f) log result) :
    (∃ answer found rest, Found answer found ∧ log = ⟨.getStack r.stackRef, answer⟩ :: rest ∧
        Ran (f found) rest result) ∨
      ∃ e, e.isStackNotFound = false ∧ log = [⟨.getStack r.stackRef, .error e⟩] ∧
        result = .error e := by
  rw [lookUp, bind_assoc, ran_attempt_bind] at h
  obtain ⟨answer, first, rest, hg, h, rfl⟩ := h
  rw [ran_getStack] at hg
  subst hg
  cases answer with
  | ok s =>
    rw [pure_bind] at h
    exact .inl ⟨.ok s, some s, rest, .here s, rfl, h⟩
  | error e =>
    cases he : e.isStackNotFound with
    | true =>
      simp only [he, if_true, pure_bind] at h
      exact .inl ⟨.error e, none, rest, .absent e he, rfl, h⟩
    | false =>
      simp only [he, Bool.false_eq_true, if_false] at h
      obtain ⟨rfl, rfl⟩ := ran_throw_bind.mp h
      exact .inr ⟨e, he, rfl, rfl⟩

theorem Found.ran_bind {answer : Except Error RemoteStack} {found : Option RemoteStack}
    {f : Option RemoteStack → Job Outcome} {rest : Log} {result : Except Error Outcome}
    (hf : Found answer found) (h : Ran (f found) rest result) :
    Ran (lookUp p r >>= f) (⟨.getStack r.stackRef, answer⟩ :: rest) result := by
  rw [lookUp, bind_assoc]
  refine .attempt_bind (ran_getStack.mpr rfl) ?_
  cases hf with
  | here s => simpa using h
  | absent e he => simpa [he] using h

theorem ran_lookUp_error {f : Option RemoteStack → Job Outcome} {e : Error}
    (he : e.isStackNotFound = false) :
    Ran (lookUp p r >>= f) [⟨.getStack r.stackRef, .error e⟩] (.error e) := by
  rw [lookUp, bind_assoc]
  refine .attempt_bind (ran_getStack.mpr rfl) ?_
  simp [he]

/-- The logs of removing the finalizers. -/
inductive ReleaseLog (r : Resource) (o : Outcome) : Log → Except Error Outcome → Prop
  | released (answer : Except Error Unit) (ha : Forgiven answer) :
    ReleaseLog r o [⟨.updateResource r.removeStackFinalizers, answer⟩] (.ok o)
  | unreleased (e : Error) (he : e.isNotFound = false) :
    ReleaseLog r o [⟨.updateResource r.removeStackFinalizers, .error e⟩] (.error e)

theorem releaseLog_of_ran {o : Outcome} {result : Except Error Outcome}
    (h : Ran (release r o) log result) : ReleaseLog r o log result := by
  obtain ⟨answer, first, hw, ⟨rest, ha, rfl, hrest⟩ | ⟨e, rfl, he, rfl, rfl⟩⟩ :=
    ran_unlessMissing_bind h
  · rw [ran_updateResource] at hw
    obtain ⟨rfl, rfl⟩ := ran_pure.mp hrest
    exact hw ▸ .released answer ha
  · rw [ran_updateResource] at hw
    exact hw ▸ .unreleased e he

theorem ReleaseLog.ran {o : Outcome} {result : Except Error Outcome}
    (h : ReleaseLog r o log result) : Ran (release r o) log result := by
  rw [release]
  cases h with
  | released answer ha => exact .unlessMissing_bind (ran_updateResource.mpr rfl) ha ⟨rfl, rfl⟩
  | unreleased e he => exact .unlessMissing_error (ran_updateResource.mpr rfl) he

/-! ## Recording and handing over -/

/-- The logs of recording an accepted submission and handing the stack over. -/
inductive RecordLog (recorded : Resource) (id : String) (o : Outcome) :
    Log → Except Error Outcome → Prop
  | recorded (answer : Except Error Unit) (ha : Forgiven answer) :
    RecordLog recorded id o
      [⟨.updateStatus recorded, answer⟩, ⟨.submit (recorded.followRequest id), ()⟩] (.ok o)
  | unrecorded (e : Error) (he : e.isNotFound = false) :
    RecordLog recorded id o [⟨.updateStatus recorded, .error e⟩] (.error e)

theorem recordLog_of_ran {recorded : Resource} {id : String} {o : Outcome}
    {result : Except Error Outcome}
    (h : Ran (do
      unlessMissing (updateStatus recorded none)
      submit (recorded.followRequest id)
      pure o) log result) : RecordLog recorded id o log result := by
  obtain ⟨answer, first, hw, ⟨rest, ha, rfl, hrest⟩ | ⟨e, rfl, he, rfl, rfl⟩⟩ :=
    ran_unlessMissing_bind h
  · rw [ran_updateStatus] at hw
    obtain ⟨tail, rfl, htail⟩ := ran_submit_bind hrest
    obtain ⟨rfl, rfl⟩ := ran_pure.mp htail
    exact hw ▸ .recorded answer ha
  · rw [ran_updateStatus] at hw
    exact hw ▸ .unrecorded e he

theorem RecordLog.ran {recorded : Resource} {id : String} {o : Outcome}
    {result : Except Error Outcome} (h : RecordLog recorded id o log result) :
    Ran (do
      unlessMissing (updateStatus recorded none)
      submit (recorded.followRequest id)
      pure o) log result := by
  cases h with
  | recorded answer ha =>
    refine .unlessMissing_bind (ran_updateStatus.mpr rfl) ha ?_
    exact .bind (ran_submit.mpr ⟨rfl, rfl⟩) ⟨rfl, rfl⟩
  | unrecorded e he => exact .unlessMissing_error (ran_updateStatus.mpr rfl) he

/-! ## Creating -/

def createdAs (p : Policy) (r : Resource) (id : String) : Resource :=
  (r.withStatus { r.status with stackId := id }).withAppliedHash (Fingerprint.ofResource p r)

/-- The resource with its inputs recorded as the last submitted ones. -/
def submittedAs (p : Policy) (r : Resource) : Resource :=
  r.withAppliedHash (Fingerprint.ofResource p r)

theorem ran_templateOf {t : Template} :
    Ran (templateOf r) log (.ok t) ↔ log = [] ∧ r.spec.templateSource? = some t := by
  rw [templateOf]
  cases r.spec.templateSource? <;> simp [eq_comm]

theorem ran_templateOf_error {e : Error} :
    Ran (templateOf r) log (.error e) ↔
      log = [] ∧ r.spec.templateSource? = none ∧ e = .templateNotUnique r.locator.text := by
  rw [templateOf]
  cases r.spec.templateSource? <;> simp

/-- The logs of creating a stack. -/
inductive CreateLog (p : Policy) (r : Resource) : Log → Except Error Outcome → Prop
  | noTemplate (ht : r.spec.templateSource? = none) :
    CreateLog p r [] (.error (.templateNotUnique r.locator.text))
  | dryRun (t : Template) (ht : r.spec.templateSource? = some t) (hd : p.dryRun = true) :
    CreateLog p r [] (.ok .dryRun)
  | refused (t : Template) (ht : r.spec.templateSource? = some t) (hd : p.dryRun = false)
    (e : Error) :
    CreateLog p r [⟨.createStack (p.inputs r t r.stackName) r.spec.onFailure, .error e⟩] (.error e)
  | accepted (t : Template) (ht : r.spec.templateSource? = some t) (hd : p.dryRun = false)
    (id : String) {rest : Log} {result : Except Error Outcome}
    (h : RecordLog (createdAs p r id) id .created rest result) :
    CreateLog p r (⟨.createStack (p.inputs r t r.stackName) r.spec.onFailure, .ok id⟩ :: rest)
      result

theorem createLog_of_ran {result : Except Error Outcome} (h : Ran (create p r) log result) :
    CreateLog p r log result := by
  rw [create, ran_bind] at h
  rcases h with ⟨e, h, rfl⟩ | ⟨t, _, rest, hp, h, rfl⟩
  · obtain ⟨rfl, ht, rfl⟩ := ran_templateOf_error.mp h
    exact .noTemplate ht
  obtain ⟨rfl, ht⟩ := ran_templateOf.mp hp
  cases hd : p.dryRun with
  | true =>
    simp only [hd, if_true] at h
    obtain ⟨rfl, rfl⟩ := ran_pure.mp h
    exact .dryRun t ht hd
  | false =>
    simp only [hd, Bool.false_eq_true, if_false] at h
    rw [ran_bind] at h
    rcases h with ⟨e, h, rfl⟩ | ⟨id, first, tail, h, hrest, rfl⟩
    · rw [ran_createStack] at h
      exact h ▸ .refused t ht hd e
    · rw [ran_createStack] at h
      exact h ▸ .accepted t ht hd id (recordLog_of_ran hrest)

theorem CreateLog.ran {result : Except Error Outcome} (h : CreateLog p r log result) :
    Ran (create p r) log result := by
  cases h with
  | noTemplate ht =>
    rw [create]
    exact .bind_error (ran_templateOf_error.mpr ⟨rfl, ht, rfl⟩)
  | dryRun t ht hd =>
    simp only [create, templateOf, ht, pure_bind, hd, if_true]
    exact ⟨rfl, rfl⟩
  | refused t ht hd e =>
    simp only [create, templateOf, ht, pure_bind, hd, Bool.false_eq_true, if_false]
    exact .bind_error (ran_createStack.mpr rfl)
  | accepted t ht hd id h =>
    simp only [create, templateOf, ht, pure_bind, hd, Bool.false_eq_true, if_false]
    exact .bind (ran_createStack.mpr rfl) h.ran

/-! ## Updating -/

/-- The logs of what follows an update call that changed nothing. -/
inductive ConfirmLog (p : Policy) (r : Resource) (s : RemoteStack) :
    Log → Except Error Outcome → Prop
  | unlisted (e : Error) (log : Log) (h : RefreshLog (submittedAs p r) s log (.error e)) :
    ConfirmLog p r s log (.error e)
  | written (log : Log) (r' : Resource) (h : RefreshLog (submittedAs p r) s log (.ok (r', true))) :
    ConfirmLog p r s log (.ok .upToDate)
  | rewritten (log : Log) (r' : Resource)
    (h : RefreshLog (submittedAs p r) s log (.ok (r', false))) (answer : Except Error Unit)
    (ha : Forgiven answer) :
    ConfirmLog p r s (log ++ [⟨.updateStatus r', answer⟩]) (.ok .upToDate)
  | unwritten (log : Log) (r' : Resource)
    (h : RefreshLog (submittedAs p r) s log (.ok (r', false))) (e : Error)
    (he : e.isNotFound = false) :
    ConfirmLog p r s (log ++ [⟨.updateStatus r', .error e⟩]) (.error e)

/-- The logs of updating a settled stack. -/
inductive UpdateLog (p : Policy) (r : Resource) (s : RemoteStack) :
    Log → Except Error Outcome → Prop
  | noTemplate (ht : r.spec.templateSource? = none) :
    UpdateLog p r s [] (.error (.templateNotUnique r.locator.text))
  | current (t : Template) (ht : r.spec.templateSource? = some t) (hc : isCurrent p r s = true)
    {log : Log} {x : Except Error (Resource × Bool)} (h : RefreshLog r s log x) :
    UpdateLog p r s log (x.map fun _ => .upToDate)
  | dryRun (t : Template) (ht : r.spec.templateSource? = some t) (hc : isCurrent p r s = false)
    (hd : p.dryRun = true) : UpdateLog p r s [] (.ok .dryRun)
  | accepted (t : Template) (ht : r.spec.templateSource? = some t) (hc : isCurrent p r s = false)
    (hd : p.dryRun = false) {rest : Log} {result : Except Error Outcome}
    (h : RecordLog (submittedAs p r) s.id .updated rest result) :
    UpdateLog p r s (⟨.updateStack (p.inputs r t s.id), .ok ()⟩ :: rest) result
  | confirmed (t : Template) (ht : r.spec.templateSource? = some t) (hc : isCurrent p r s = false)
    (hd : p.dryRun = false) (e : Error) (he : e.isNoUpdates = true) {rest : Log}
    {result : Except Error Outcome} (h : ConfirmLog p r s rest result) :
    UpdateLog p r s (⟨.updateStack (p.inputs r t s.id), .error e⟩ :: rest) result
  | recreated (t : Template) (ht : r.spec.templateSource? = some t) (hc : isCurrent p r s = false)
    (hd : p.dryRun = false) (e : Error) (he : e.isStackNotFound = true) {rest : Log}
    {result : Except Error Outcome} (h : CreateLog p r rest result) :
    UpdateLog p r s (⟨.updateStack (p.inputs r t s.id), .error e⟩ :: rest) result
  | refused (t : Template) (ht : r.spec.templateSource? = some t) (hc : isCurrent p r s = false)
    (hd : p.dryRun = false) (e : Error) (hn : e.isNoUpdates = false)
    (he : e.isStackNotFound = false) :
    UpdateLog p r s [⟨.updateStack (p.inputs r t s.id), .error e⟩] (.error e)

theorem confirmLog_of_ran {s : RemoteStack} {d : Option Deadline} {result : Except Error Outcome}
    (h : Ran (do
      let (merged, written) ← refresh d (submittedAs p r) (some s)
      if written then pure .upToDate
      else
        unlessMissing (updateStatus merged none)
        pure .upToDate) log result) : ConfirmLog p r s log result := by
  rw [ran_bind] at h
  rcases h with ⟨e, h, rfl⟩ | ⟨⟨r', written⟩, first, rest, h, hrest, rfl⟩
  · exact .unlisted e log (refreshLog_of_ran h)
  have hr := refreshLog_of_ran h
  cases written with
  | true =>
    obtain ⟨rfl, rfl⟩ := ran_pure.mp hrest
    rw [List.append_nil]
    exact .written first r' hr
  | false =>
    simp only [Bool.false_eq_true, if_false] at hrest
    obtain ⟨answer, write, hw, ⟨tail, ha, rfl, htail⟩ | ⟨e, rfl, he, rfl, rfl⟩⟩ :=
      ran_unlessMissing_bind hrest
    · rw [ran_updateStatus] at hw
      obtain ⟨rfl, rfl⟩ := ran_pure.mp htail
      rw [hw, List.append_nil]
      exact .rewritten first r' hr answer ha
    · rw [ran_updateStatus] at hw
      exact hw ▸ .unwritten first r' hr e he

theorem updateLog_of_ran {s : RemoteStack} {result : Except Error Outcome}
    (h : Ran (update p r s) log result) : UpdateLog p r s log result := by
  rw [update, ran_bind] at h
  rcases h with ⟨e, h, rfl⟩ | ⟨t, _, rest, hp, h, rfl⟩
  · obtain ⟨rfl, ht, rfl⟩ := ran_templateOf_error.mp h
    exact .noTemplate ht
  obtain ⟨rfl, ht⟩ := ran_templateOf.mp hp
  rw [List.nil_append]
  cases hc : isCurrent p r s with
  | true =>
    simp only [hc, if_true] at h
    rw [ran_bind] at h
    rcases h with ⟨e, h, rfl⟩ | ⟨x, first, tail, h, hrest, rfl⟩
    · exact .current t ht hc (refreshLog_of_ran h)
    · obtain ⟨rfl, rfl⟩ := ran_pure.mp hrest
      rw [List.append_nil]
      exact .current t ht hc (refreshLog_of_ran h)
  | false =>
    cases hd : p.dryRun with
    | true =>
      simp only [hc, hd, if_true, Bool.false_eq_true, if_false] at h
      obtain ⟨rfl, rfl⟩ := ran_pure.mp h
      exact .dryRun t ht hc hd
    | false =>
      simp only [hc, hd, Bool.false_eq_true, if_false] at h
      rw [ran_attempt_bind] at h
      obtain ⟨answer, first, tail, hu, h, rfl⟩ := h
      rw [ran_updateStack] at hu
      subst hu
      cases answer with
      | ok _ => exact .accepted t ht hc hd (recordLog_of_ran h)
      | error e =>
        cases hn : e.isNoUpdates with
        | true =>
          simp only [hn, if_true] at h
          exact .confirmed t ht hc hd e hn (confirmLog_of_ran h)
        | false =>
          cases he : e.isStackNotFound with
          | true =>
            simp only [hn, he, Bool.false_eq_true, if_false, if_true] at h
            exact .recreated t ht hc hd e he (createLog_of_ran h)
          | false =>
            simp only [hn, he, Bool.false_eq_true, if_false] at h
            obtain ⟨rfl, rfl⟩ := ran_throw.mp h
            exact .refused t ht hc hd e hn he

theorem ConfirmLog.ran {s : RemoteStack} {d : Option Deadline} {result : Except Error Outcome}
    (h : ConfirmLog p r s log result) :
    Ran (do
      let (merged, stored) ← refresh d (submittedAs p r) (some s)
      if stored then pure .upToDate
      else
        unlessMissing (updateStatus merged none)
        pure .upToDate) log result := by
  cases h with
  | unlisted e log h => exact .bind_error h.ran
  | written log r' h =>
    rw [← List.append_nil log]
    exact .bind h.ran ⟨rfl, rfl⟩
  | rewritten log r' h answer ha =>
    exact .bind h.ran (.unlessMissing_bind (ran_updateStatus.mpr rfl) ha ⟨rfl, rfl⟩)
  | unwritten log r' h e he =>
    exact .bind h.ran (.unlessMissing_error (ran_updateStatus.mpr rfl) he)

theorem UpdateLog.ran {s : RemoteStack} {result : Except Error Outcome}
    (h : UpdateLog p r s log result) : Ran (update p r s) log result := by
  rw [update]
  cases h with
  | noTemplate ht => exact .bind_error (ran_templateOf_error.mpr ⟨rfl, ht, rfl⟩)
  | @current t ht hc log x h =>
    simp only [templateOf, ht, pure_bind, hc, if_true]
    cases x with
    | error e => exact .bind_error h.ran
    | ok x =>
      rw [← List.append_nil log]
      exact .bind h.ran ⟨rfl, rfl⟩
  | dryRun t ht hc hd =>
    simp only [templateOf, ht, pure_bind, hc, hd, if_true, Bool.false_eq_true, if_false]
    exact ⟨rfl, rfl⟩
  | accepted t ht hc hd h =>
    simp only [templateOf, ht, pure_bind, hc, hd, Bool.false_eq_true, if_false]
    exact .attempt_bind (ran_updateStack.mpr rfl) h.ran
  | confirmed t ht hc hd e he h =>
    simp only [templateOf, ht, pure_bind, hc, hd, Bool.false_eq_true, if_false]
    refine .attempt_bind (ran_updateStack.mpr rfl) ?_
    simp only [he, if_true]
    exact h.ran
  | recreated t ht hc hd e he h =>
    have hn := Error.isNoUpdates_of_isStackNotFound he
    simp only [templateOf, ht, pure_bind, hc, hd, Bool.false_eq_true, if_false]
    refine .attempt_bind (ran_updateStack.mpr rfl) ?_
    simp only [hn, he, if_true, Bool.false_eq_true, if_false]
    exact h.ran
  | refused t ht hc hd e hn he =>
    simp only [templateOf, ht, pure_bind, hc, hd, Bool.false_eq_true, if_false]
    refine .attempt_bind (ran_updateStack.mpr rfl) ?_
    simp only [hn, he, Bool.false_eq_true, if_false]
    exact ⟨rfl, rfl⟩

end Pass
end StackKeeper
