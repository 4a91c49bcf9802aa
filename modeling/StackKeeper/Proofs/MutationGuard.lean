import StackKeeper.Proofs.PassLog
/-!
# When a pass touches a remote stack

A pass makes three kinds of calls that change remote stacks. For every sequence of answers, errors
included, each of them is made exactly when its guard holds, and the guard says what the pass had
read and seen by then.

Results:
* `mutates_createLog`, `mutates_updateLog`, `mutates_settleLog`, `mutates_deleteLog`,
  `mutates_finalizeLog`: the mutating calls of each stage of a pass.
* `mutations_guarded`: the create, update and delete calls of a whole pass.
-/
namespace StackKeeper

namespace Spec

/-- Whether exactly one of the two template sources is set and not empty. -/
def HasOneTemplate (s : Spec) : Prop := given s.template = none ↔ given s.templateUrl ≠ none

theorem hasOneTemplate_iff {s : Spec} : s.HasOneTemplate ↔ ∃ t, s.templateSource? = some t := by
  unfold HasOneTemplate templateSource?
  cases given s.template <;> cases given s.templateUrl <;> simp

end Spec

/-- The log has the call, and the call changes remote stacks. -/
def Log.Mutates (log : Log) (c : Call) : Prop := c ∈ log.calls ∧ c.isMutation = true

namespace Log

variable {log rest : Log} {c : Call}

theorem mem_calls_iff (hc : c.isMutation = true) : c ∈ log.calls ↔ log.Mutates c :=
  ⟨fun h => ⟨h, hc⟩, fun h => h.1⟩

@[simp] theorem not_mutates_nil : ¬ Mutates [] c := by simp [Mutates]

theorem mutates_append : Mutates (log ++ rest) c ↔ Mutates log c ∨ Mutates rest c := by
  simp only [Mutates, calls_append, List.mem_append]
  constructor
  · rintro ⟨h | h, hc⟩
    · exact .inl ⟨h, hc⟩
    · exact .inr ⟨h, hc⟩
  · rintro (⟨h, hc⟩ | ⟨h, hc⟩)
    · exact ⟨.inl h, hc⟩
    · exact ⟨.inr h, hc⟩

theorem mutates_cons {d : Call} {answer : d.Answer} :
    Mutates (⟨d, answer⟩ :: log) c ↔ (d.isMutation = true ∧ c = d) ∨ Mutates log c := by
  simp only [Mutates, calls_cons, List.mem_cons]
  constructor
  · rintro ⟨rfl | hc, hm⟩
    · exact .inl ⟨hm, rfl⟩
    · exact .inr ⟨hc, hm⟩
  · rintro (⟨hm, rfl⟩ | ⟨hc, hm⟩)
    · exact ⟨.inl rfl, hm⟩
    · exact ⟨.inr hc, hm⟩

end Log

namespace Pass
open Log Refresh

variable {p : Policy} {r : Resource} {log : Log} {c : Call}

/-! ## Stages that leave remote stacks alone -/

theorem not_mutates_refreshLog {s : RemoteStack} {x : Except Error (Resource × Bool)}
    (h : RefreshLog r s log x) : ¬ log.Mutates c := by
  cases h <;> simp [mutates_cons, Call.isMutation]

theorem not_mutates_releaseLog {o : Outcome} {result : Except Error Outcome}
    (h : ReleaseLog r o log result) : ¬ log.Mutates c := by
  cases h <;> simp [mutates_cons, Call.isMutation]

theorem not_mutates_recordLog {recorded : Resource} {id : String} {o : Outcome}
    {result : Except Error Outcome} (h : RecordLog recorded id o log result) :
    ¬ log.Mutates c := by
  cases h <;> simp [mutates_cons, Call.isMutation]

theorem not_mutates_confirmLog {s : RemoteStack} {result : Except Error Outcome}
    (h : ConfirmLog p r s log result) : ¬ log.Mutates c := by
  cases h with
  | unlisted e log h => exact not_mutates_refreshLog h
  | written log r' h => exact not_mutates_refreshLog h
  | rewritten log r' h answer ha =>
    simp [mutates_append, not_mutates_refreshLog h, mutates_cons, Call.isMutation]
  | unwritten log r' h e he =>
    simp [mutates_append, not_mutates_refreshLog h, mutates_cons, Call.isMutation]

/-! ## Creating and updating -/

def creation (p : Policy) (r : Resource) (t : Template) : Call :=
  .createStack (p.inputs r t r.stackName) r.spec.onFailure

theorem mutates_createLog {result : Except Error Outcome} (h : CreateLog p r log result) :
    log.Mutates c ↔
      ∃ t, r.spec.templateSource? = some t ∧ p.dryRun = false ∧ c = creation p r t := by
  cases h with
  | noTemplate ht => simp [ht]
  | dryRun t ht hd => simp [hd]
  | refused t ht hd e =>
    simp [mutates_cons, Call.isMutation, ht, hd, creation]
  | accepted t ht hd id h =>
    simp [mutates_cons, Call.isMutation, ht, hd, creation, not_mutates_recordLog h]

/-- The update call of a stage was answered that the stack does not exist. -/
def UpdateMissed (inputs : StackInputs) (log : Log) : Prop :=
  ∃ e : Error, e.isStackNotFound = true ∧ [⟨.updateStack inputs, .error e⟩] <+: log

theorem mutates_updateLog {s : RemoteStack} {result : Except Error Outcome}
    (h : UpdateLog p r s log result) : log.Mutates c ↔
      ∃ t, r.spec.templateSource? = some t ∧ p.dryRun = false ∧ isCurrent p r s = false ∧
        (c = .updateStack (p.inputs r t s.id) ∨
          UpdateMissed (p.inputs r t s.id) log ∧ c = creation p r t) := by
  cases h with
  | noTemplate ht => simp [ht]
  | current t ht hc h => simp [hc, not_mutates_refreshLog h]
  | dryRun t ht hc hd => simp [hd]
  | accepted t ht hc hd h =>
    simp [mutates_cons, Call.isMutation, ht, hc, hd, not_mutates_recordLog h, UpdateMissed]
  | confirmed t ht hc hd e he h =>
    have hn := Error.isStackNotFound_of_isNoUpdates he
    simp [mutates_cons, Call.isMutation, ht, hc, hd, not_mutates_confirmLog h, UpdateMissed, hn]
  | recreated t ht hc hd e he h =>
    simp [mutates_cons, Call.isMutation, mutates_createLog h, ht, hc, hd, UpdateMissed, he]
  | refused t ht hc hd e hn he =>
    simp [mutates_cons, Call.isMutation, ht, hc, hd, UpdateMissed, he]

/-! ## Guards -/

def readEvent (l : Locator) (r : Resource) : Event := ⟨.getResource l, .ok r⟩

def lookUpEvent (r : Resource) (answer : Except Error RemoteStack) : Event :=
  ⟨.getStack r.stackRef, answer⟩

/-- A look-up found no stack, or none that stands and is ours. -/
def FoundNone (answer : Except Error RemoteStack) : Prop :=
  (∃ e, answer = .error e ∧ e.isStackNotFound = true) ∨
    ∃ s, answer = .ok s ∧ (s.isDeleted = true ∨ s.isControlled = false)

/-- The resource is to have a stack, and inputs may be submitted for it. -/
structure Submittable (p : Policy) (r : Resource) : Prop where
  unmarked : r.isMarked = false
  held : r.hasFinalizer stackFinalizer = true
  template : r.spec.HasOneTemplate
  wet : p.dryRun = false

/-- What holds when the stack of a resource is created: the look-up found none, or the update call
for the one it found was answered that there is none. -/
structure CreateGuard (p : Policy) (l : Locator) (r : Resource) (log : Log) : Prop
    extends Submittable p r where
  missing : (∃ answer, [readEvent l r, lookUpEvent r answer] <+: log ∧ FoundNone answer) ∨
    ∃ s inputs e, [readEvent l r, lookUpEvent r (.ok s), ⟨.updateStack inputs, .error e⟩] <+: log ∧
      e.isStackNotFound = true

/-- What holds when the stack that was looked up is updated. -/
structure UpdateGuard (p : Policy) (r : Resource) (s : RemoteStack) : Prop
    extends Submittable p r where
  standing : s.isDeleted = false
  owned : s.isControlled = true
  terminal : Lifecycle.isTerminal s.status = true
  stale : ¬ (r.status.appliedHash = Fingerprint.ofResource p r ∧
    Lifecycle.isSuccessful s.status = true ∧ s.tags = p.effectiveTags r)

/-- What holds when the stack of a resource is deleted: a first look-up found it standing, and a
second one, made right before the call, found it ours and not being deleted yet. -/
structure DeleteGuard (p : Policy) (r : Resource) (first second : RemoteStack) : Prop where
  marked : r.isMarked = true
  held : r.hasStackFinalizer = true
  wet : p.dryRun = false
  unrecorded : r.status.stackStatus ≠ Lifecycle.deleteComplete
  standing : first.isDeleted = false
  owned : second.isControlled = true
  resting : second.status ≠ Lifecycle.deleteInProgress

theorem isCurrent_eq_false_iff {s : RemoteStack} : isCurrent p r s = false ↔
    ¬ (r.status.appliedHash = Fingerprint.ofResource p r ∧
      Lifecycle.isSuccessful s.status = true ∧ s.tags = p.effectiveTags r) := by
  rw [isCurrent, ← Bool.not_eq_true, Bool.and_eq_true, Bool.and_eq_true, beq_iff_eq, beq_iff_eq,
    and_assoc]

/-! ## Whole passes -/

/-- The call is the one that settling a resource makes after the events of the log. -/
def Settles (p : Policy) (r : Resource) (log : Log) (c : Call) : Prop :=
  ∃ t, r.spec.templateSource? = some t ∧ p.dryRun = false ∧
    ((∃ answer, [lookUpEvent r answer] <+: log ∧ FoundNone answer ∧ c = creation p r t) ∨
      ∃ s, [lookUpEvent r (.ok s)] <+: log ∧ s.isDeleted = false ∧ s.isControlled = true ∧
        Lifecycle.isTerminal s.status = true ∧ isCurrent p r s = false ∧
        (c = .updateStack (p.inputs r t s.id) ∨
          UpdateMissed (p.inputs r t s.id) (log.drop 1) ∧ c = creation p r t))

/-- The call is the one that deleting the stack of a resource makes after the events of the log. -/
def Deletes (p : Policy) (r : Resource) (log : Log) (c : Call) : Prop :=
  p.dryRun = false ∧ ∃ s, [lookUpEvent r (.ok s)] <+: log ∧ s.isControlled = true ∧
    s.status ≠ Lifecycle.deleteInProgress ∧ c = .deleteStack s.id

/-- The call is the one that finishing a resource makes after the events of the log. -/
def Finishes (p : Policy) (r : Resource) (log : Log) (c : Call) : Prop :=
  r.status.stackStatus ≠ Lifecycle.deleteComplete ∧
    ∃ s, [lookUpEvent r (.ok s)] <+: log ∧ s.isDeleted = false ∧ Deletes p r (log.drop 1) c

theorem mutates_settleLog {result : Except Error Outcome} (h : SettleLog p r log result) :
    log.Mutates c ↔ Settles p r log c := by
  unfold Settles
  cases h with
  | unseen e he => simp [mutates_cons, Call.isMutation, lookUpEvent, FoundNone, he]
  | absent e he h =>
    simp [mutates_cons, Call.isMutation, lookUpEvent, FoundNone, he, mutates_createLog h]
  | foreign s hs h =>
    have hn : s.isDeleted = true ∨ s.isControlled = false := by simpa using hs
    have hx : ∀ q : Prop, (s.isDeleted = false ∧ s.isControlled = true ∧ q) ↔ False := by
      rcases hn with hn | hn <;> simp [hn]
    simp [mutates_cons, Call.isMutation, lookUpEvent, FoundNone, mutates_createLog h, hn, hx]
  | settled s hs hc ht h =>
    simp [mutates_cons, Call.isMutation, lookUpEvent, FoundNone, mutates_updateLog h, hs, hc, ht]
  | atWork s hs hc ht =>
    simp [mutates_cons, Call.isMutation, lookUpEvent, FoundNone, hs, hc, ht]

theorem mutates_deleteLog {result : Except Error Outcome} (h : DeleteLog p r log result) :
    log.Mutates c ↔ Deletes p r log c := by
  unfold Deletes
  cases h with
  | dryRun hd => simp [hd]
  | unseen hd e he => simp [mutates_cons, Call.isMutation, lookUpEvent]
  | absent hd e he h => simp [mutates_cons, Call.isMutation, lookUpEvent, not_mutates_releaseLog h]
  | foreign hd s hc h =>
    simp [mutates_cons, Call.isMutation, lookUpEvent, not_mutates_releaseLog h, hc]
  | atWork hd s hc hs => simp [mutates_cons, Call.isMutation, lookUpEvent, hs]
  | refused hd s hc hs e => simp [mutates_cons, Call.isMutation, lookUpEvent, hd, hc, hs]
  | accepted hd s hc hs => simp [mutates_cons, Call.isMutation, lookUpEvent, hd, hc, hs]

theorem mutates_finalizeLog {result : Except Error Outcome} (h : FinalizeLog p r log result) :
    log.Mutates c ↔ Finishes p r log c := by
  unfold Finishes
  cases h with
  | recorded hs h => simp [hs, not_mutates_releaseLog h]
  | unseen hs e he => simp [mutates_cons, Call.isMutation, lookUpEvent]
  | absent hs e he h => simp [mutates_cons, Call.isMutation, lookUpEvent, not_mutates_releaseLog h]
  | deleted hs s hd h =>
    simp [mutates_cons, Call.isMutation, lookUpEvent, not_mutates_releaseLog h, hd]
  | standing hs s hd h =>
    simp [mutates_cons, Call.isMutation, mutates_deleteLog h, lookUpEvent, hs, hd]

theorem mutates_passLog {l : Locator} {result : Except Error Outcome} (h : PassLog p l log result) :
    log.Mutates c ↔ ∃ r, [readEvent l r] <+: log ∧
      ((r.isMarked = false ∧ r.hasFinalizer stackFinalizer = true ∧ Settles p r (log.drop 1) c) ∨
        (r.isMarked = true ∧ r.hasStackFinalizer = true ∧ Finishes p r (log.drop 1) c)) := by
  cases h with
  | gone e he => simp [mutates_cons, Call.isMutation, readEvent]
  | unread e he => simp [mutates_cons, Call.isMutation, readEvent]
  | read r h =>
    cases h with
    | idle hm hf => simp [mutates_cons, Call.isMutation, readEvent, hm, hf]
    | finalizing hm hf h =>
      simp [mutates_cons, Call.isMutation, readEvent, hm, hf, mutates_finalizeLog h]
    | settling hm hf h =>
      simp [mutates_cons, Call.isMutation, readEvent, hm, hf, mutates_settleLog h]
    | entering hm hf answer => simp [mutates_cons, Call.isMutation, readEvent, hm, hf]

/-- A longer start of a log is its first event and a start of what follows. -/
theorem prefix_cons_iff {e : Event} {rest : Log} :
    e :: rest <+: log ↔ [e] <+: log ∧ rest <+: log.drop 1 := by
  cases log with
  | nil => simp
  | cons d log => simp [List.cons_prefix_cons]

theorem prefix_head_unique {d e : Event} (hd : [d] <+: log) (he : [e] <+: log) : d = e := by
  cases log with
  | nil => simp at hd
  | cons a log =>
    obtain ⟨rfl, -⟩ := List.cons_prefix_cons.mp hd
    exact (List.cons_prefix_cons.mp he).1.symm

theorem updates_iff {l : Locator} {result : Except Error Outcome} (h : PassLog p l log result)
    {inputs : StackInputs} :
    .updateStack inputs ∈ log.calls ↔
      ∃ r s t, [readEvent l r, lookUpEvent r (.ok s)] <+: log ∧ UpdateGuard p r s ∧
        r.spec.templateSource? = some t ∧ inputs = p.inputs r t s.id := by
  rw [mem_calls_iff rfl, mutates_passLog h]
  constructor
  · rintro ⟨r, hr, ⟨hm, hf, t, ht, hd, hs⟩ | ⟨-, -, -, s, -, -, -, s', -, -, -, hx⟩⟩
    · rcases hs with ⟨answer, -, -, hx⟩ | ⟨s, hs, hdel, hown, hterm, hcur, hx | ⟨-, hx⟩⟩
      · cases hx
      · cases hx
        exact ⟨r, s, t, prefix_cons_iff.mpr ⟨hr, hs⟩,
          ⟨⟨hm, hf, Spec.hasOneTemplate_iff.mpr ⟨t, ht⟩, hd⟩, hdel, hown, hterm,
            isCurrent_eq_false_iff.mp hcur⟩, ht, rfl⟩
      · cases hx
    · cases hx
  · rintro ⟨r, s, t, hp, hg, ht, rfl⟩
    obtain ⟨hr, hs⟩ := prefix_cons_iff.mp hp
    exact ⟨r, hr, .inl ⟨hg.unmarked, hg.held, t, ht, hg.wet, .inr ⟨s, hs, hg.standing, hg.owned,
      hg.terminal, isCurrent_eq_false_iff.mpr hg.stale, .inl rfl⟩⟩⟩

theorem creates_iff {l : Locator} {result : Except Error Outcome} (h : PassLog p l log result)
    {inputs : StackInputs} {onFailure : Option String} :
    .createStack inputs onFailure ∈ log.calls ↔
      ∃ r t, CreateGuard p l r log ∧ r.spec.templateSource? = some t ∧
        inputs = p.inputs r t r.stackName ∧ onFailure = r.spec.onFailure := by
  rw [mem_calls_iff rfl, mutates_passLog h]
  constructor
  · rintro ⟨r, hr, ⟨hm, hf, t, ht, hd, hs⟩ | ⟨-, -, -, s, -, -, -, s', -, -, -, hx⟩⟩
    · have hsub : Submittable p r := ⟨hm, hf, Spec.hasOneTemplate_iff.mpr ⟨t, ht⟩, hd⟩
      rcases hs with ⟨answer, hs, hnone, hx⟩ | ⟨s, hs, -, -, -, -, hx | ⟨⟨e, he, hu⟩, hx⟩⟩
      · cases hx
        exact ⟨r, t, ⟨hsub, .inl ⟨answer, prefix_cons_iff.mpr ⟨hr, hs⟩, hnone⟩⟩, ht, rfl, rfl⟩
      · cases hx
      · cases hx
        have hp := prefix_cons_iff.mpr ⟨hr, prefix_cons_iff.mpr ⟨hs, hu⟩⟩
        exact ⟨r, t, ⟨hsub, .inr ⟨s, _, e, hp, he⟩⟩, ht, rfl, rfl⟩
    · cases hx
  · rintro ⟨r, t, hg, ht, rfl, rfl⟩
    rcases hg.missing with ⟨answer, hp, hnone⟩ | ⟨s, inputs, e, hp, he⟩
    · obtain ⟨hr, hs⟩ := prefix_cons_iff.mp hp
      exact ⟨r, hr, .inl ⟨hg.unmarked, hg.held, t, ht, hg.wet, .inl ⟨answer, hs, hnone, rfl⟩⟩⟩
    · -- The update call was made, so its own guard tells what was looked up.
      obtain ⟨hr, hp'⟩ := prefix_cons_iff.mp hp
      obtain ⟨hs, hu⟩ := prefix_cons_iff.mp hp'
      have hmem : .updateStack inputs ∈ log.calls :=
        List.mem_map.mpr ⟨⟨.updateStack inputs, .error e⟩, hp.subset (by simp), rfl⟩
      obtain ⟨r', s', t', hp'', hg', ht', rfl⟩ := (updates_iff h).mp hmem
      obtain ⟨hr', hs'⟩ := prefix_cons_iff.mp hp''
      obtain rfl : r' = r := by simpa [readEvent] using prefix_head_unique hr' hr
      obtain rfl : s' = s := by simpa [lookUpEvent] using prefix_head_unique hs' hs
      obtain rfl : t' = t := Option.some.inj (ht'.symm.trans ht)
      exact ⟨r', hr, .inl ⟨hg.unmarked, hg.held, t', ht, hg.wet, .inr ⟨s', hs, hg'.standing,
        hg'.owned, hg'.terminal, isCurrent_eq_false_iff.mpr hg'.stale, .inr ⟨⟨e, he, hu⟩, rfl⟩⟩⟩⟩

theorem deletes_iff {l : Locator} {result : Except Error Outcome} (h : PassLog p l log result)
    {stack : String} :
    .deleteStack stack ∈ log.calls ↔
      ∃ r first second,
        [readEvent l r, lookUpEvent r (.ok first), lookUpEvent r (.ok second)] <+: log ∧
        DeleteGuard p r first second ∧ stack = second.id := by
  rw [mem_calls_iff rfl, mutates_passLog h]
  constructor
  · rintro ⟨r, hr, ⟨-, -, t, -, -, hs⟩ | ⟨hm, hf, hn, s, hs, hdel, hd, s', hs', hown, hrest, hx⟩⟩
    · rcases hs with ⟨answer, -, -, hx⟩ | ⟨s, -, -, -, -, -, hx | ⟨-, hx⟩⟩ <;> cases hx
    · cases hx
      exact ⟨r, s, s', prefix_cons_iff.mpr ⟨hr, prefix_cons_iff.mpr ⟨hs, hs'⟩⟩,
        ⟨hm, hf, hd, hn, hdel, hown, hrest⟩, rfl⟩
  · rintro ⟨r, s, s', hp, hg, rfl⟩
    obtain ⟨hr, hp⟩ := prefix_cons_iff.mp hp
    obtain ⟨hs, hs'⟩ := prefix_cons_iff.mp hp
    exact ⟨r, hr, .inr ⟨hg.marked, hg.held, hg.unrecorded, s, hs, hg.standing, hg.wet, s', hs',
      hg.owned, hg.resting, rfl⟩⟩

/-- Whatever the store and the provisioning API answer, a pass makes each of the calls that change
remote stacks exactly when its guard holds. -/
theorem mutations_guarded (p : Policy) (l : Locator) {log : Log} {result : Except Error Outcome}
    (h : Job.Ran (reconcile p l) log result) :
    (∀ inputs onFailure, .createStack inputs onFailure ∈ log.calls ↔
      ∃ r t, CreateGuard p l r log ∧ r.spec.templateSource? = some t ∧
        inputs = p.inputs r t r.stackName ∧ onFailure = r.spec.onFailure) ∧
    (∀ inputs, .updateStack inputs ∈ log.calls ↔
      ∃ r s t, [readEvent l r, lookUpEvent r (.ok s)] <+: log ∧ UpdateGuard p r s ∧
        r.spec.templateSource? = some t ∧ inputs = p.inputs r t s.id) ∧
    (∀ stack, .deleteStack stack ∈ log.calls ↔
      ∃ r first second,
        [readEvent l r, lookUpEvent r (.ok first), lookUpEvent r (.ok second)] <+: log ∧
        DeleteGuard p r first second ∧ stack = second.id) :=
  ⟨fun _ _ => creates_iff (passLog_of_ran h), fun _ => updates_iff (passLog_of_ran h),
    fun _ => deletes_iff (passLog_of_ran h)⟩

/-! ## A pass that updates and then creates -/

def plainPolicy : Policy := ⟨TextMap.empty, [], false, 30⟩

def heldResource : Resource :=
  ⟨⟨"web", "default", "u", 1, none, none, [stackFinalizer]⟩,
    { Spec.empty with template := some "t" }, { Status.empty with stackId := "s1" }⟩

/-- A stack of ours whose last update was rolled back. -/
def rolledBackStack : RemoteStack :=
  ⟨"s1", "default-web", "UPDATE_ROLLBACK_COMPLETE", none, none, TextMap.empty,
    Policy.ownershipTags "u", none⟩

/-- The stack is gone by the time of the update call, and the pass creates another one. -/
def recreatingLog : Log :=
  [readEvent heldResource.locator heldResource, lookUpEvent heldResource (.ok rolledBackStack),
    ⟨.updateStack (plainPolicy.inputs heldResource (.body "t") "s1"), .error (.stackNotFound "s1")⟩,
    ⟨creation plainPolicy heldResource (.body "t"), .ok "s2"⟩,
    ⟨.updateStatus (createdAs plainPolicy heldResource "s2"), .ok ()⟩,
    ⟨.submit (heldResource.followRequest "s2"), ()⟩]

theorem ran_recreatingLog :
    Job.Ran (reconcile plainPolicy heldResource.locator) recreatingLog (.ok .created) := by
  have hf : heldResource.hasFinalizer stackFinalizer = true := by decide
  have ht : heldResource.spec.templateSource? = some (.body "t") := by decide
  have hcur : isCurrent plainPolicy heldResource rolledBackStack = false :=
    isCurrent_eq_false_iff.mpr fun h => absurd h.2.1 (by decide)
  have hcreate := CreateLog.accepted (.body "t") ht (rfl : plainPolicy.dryRun = false) "s2"
    (.recorded (.ok ()) (.inl rfl))
  have hupdate := UpdateLog.recreated (.body "t") ht hcur rfl (.stackNotFound "s1") rfl hcreate
  have hsettle := SettleLog.settled rolledBackStack (by decide) (by decide)
    (by decide) hupdate
  exact (PassLog.read heldResource (.settling rfl hf hsettle)).ran

theorem recreation_guarded :
    Job.Ran (reconcile plainPolicy heldResource.locator) recreatingLog (.ok .created) ∧
      ∃ r t, CreateGuard plainPolicy heldResource.locator r recreatingLog ∧
        r.spec.templateSource? = some t ∧
        plainPolicy.inputs heldResource (.body "t") "default-web" =
          plainPolicy.inputs r t r.stackName ∧
        none = r.spec.onFailure := by
  have hname : heldResource.stackName = "default-web" := by decide +kernel
  refine ⟨ran_recreatingLog, ((mutations_guarded _ _ ran_recreatingLog).1 _ _).mp ?_⟩
  rw [← hname]
  simp [recreatingLog, creation, heldResource, Spec.empty]

end Pass
end StackKeeper
