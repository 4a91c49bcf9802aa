import Mathlib.Data.List.Basic
import StackKeeper.Proofs.MutationGuard
/-!
# What a pass leaves behind

A pass leaves something behind in three places: it changes what is stored, it has a stack changed, and
it submits a request to follow a stack. The first and the last of them are tied to how it ends: a pass
that fails has left neither, and a pass that ends well has submitted one request exactly if there is a
stack at work that it started or found.

Results:
* `footprint_of_passLog`: what every log of a pass leaves behind.
* `footprint_of_ran`: the same, said of the writes, the submissions and the stack that a pass acted on.
-/
namespace StackKeeper

namespace Event

/-- Whether the store accepted a write. -/
def isLanded : Event → Bool
  | ⟨.updateResource _, .ok ()⟩ => true
  | ⟨.updateStatus _, .ok ()⟩ => true
  | _ => false

/-- Whether a change of a stack was accepted. -/
def isAct : Event → Bool
  | ⟨.createStack _ _, .ok _⟩ => true
  | ⟨.updateStack _, .ok ()⟩ => true
  | ⟨.deleteStack _, .ok ()⟩ => true
  | _ => false

/-- The stack that a look-up found. -/
def shown? : Event → Option RemoteStack
  | ⟨.getStack _, .ok s⟩ => some s
  | _ => none

def submitted? : Event → Option FollowRequest
  | ⟨.submit q, _⟩ => some q
  | _ => none

end Event

namespace Log

def landed (log : Log) : Nat := log.countP Event.isLanded

def acts (log : Log) : Log := log.filter Event.isAct

def shown (log : Log) : List RemoteStack := log.filterMap Event.shown?

def submitted (log : Log) : List FollowRequest := log.filterMap Event.submitted?

@[simp] theorem landed_append (log rest : Log) : landed (log ++ rest) = landed log + landed rest :=
  List.countP_append

@[simp] theorem submitted_append (log rest : Log) :
    submitted (log ++ rest) = submitted log ++ submitted rest :=
  List.filterMap_append

theorem landed_single_le (e : Event) : landed [e] ≤ 1 := List.countP_le_length

end Log

/-- Whether a pass that ends so has handed a stack over. -/
def Outcome.handsOver : Outcome → Bool
  | .created | .updated | .deleting | .handedOff => true
  | _ => false

namespace Pass
open Refresh

variable {p : Policy} {l : Locator} {r : Resource} {s : RemoteStack} {log : Log} {e : Event}
  {o : Outcome} {id : String} {result : Except Error Outcome}

/-- The stack that a pass acted on: the one whose change was accepted, as the only one, or the one that
was found at work by the last look-up. -/
inductive ActsOn (log : Log) : Outcome → String → Prop
  | created (inputs : StackInputs) (onFailure : Option String) (id : String)
    (h : log.acts = [⟨.createStack inputs onFailure, .ok id⟩]) : ActsOn log .created id
  | updated (inputs : StackInputs) (h : log.acts = [⟨.updateStack inputs, .ok ()⟩]) :
    ActsOn log .updated inputs.stack
  | deleting (id : String) (h : log.acts = [⟨.deleteStack id, .ok ()⟩]) : ActsOn log .deleting id
  | handedOff (s : RemoteStack) (h : log.acts = []) (hs : log.shown.getLast? = some s) :
    ActsOn log .handedOff s.id

/-- What a pass over the resource leaves behind, by how it ends. -/
def Footprint (r : Resource) (log : Log) : Except Error Outcome → Prop
  | .error _ => log.landed = 0 ∧ log.submitted = []
  | .ok o => log.landed ≤ 1 ∧
    (o.handsOver = true → ∃ id, ActsOn log o id ∧ log.submitted = [r.followRequest id]) ∧
    (o.handsOver = false → log.submitted = [])

/-! ## Calls that leave nothing behind -/

/-- The call has changed neither the store nor a stack, and it has submitted nothing. -/
structure IsIdle (e : Event) : Prop where
  isLanded : e.isLanded = false
  isAct : e.isAct = false
  submitted? : e.submitted? = none

theorem isIdle_getResource (answer : Except Error Resource) : IsIdle ⟨.getResource l, answer⟩ :=
  ⟨rfl, rfl, rfl⟩

theorem isIdle_getStack (ref : String) (answer : Except Error RemoteStack) :
    IsIdle ⟨.getStack ref, answer⟩ :=
  ⟨rfl, rfl, rfl⟩

theorem isIdle_updateStack (inputs : StackInputs) (e : Error) :
    IsIdle ⟨.updateStack inputs, .error e⟩ :=
  ⟨rfl, rfl, rfl⟩

theorem ActsOn.cons (he : IsIdle e) (h : ActsOn log o id) : ActsOn (e :: log) o id := by
  have hacts : Log.acts (e :: log) = log.acts := by simp [Log.acts, he.isAct]
  cases h with
  | created inputs onFailure id h => exact .created inputs onFailure id (hacts.trans h)
  | updated inputs h => exact .updated inputs (hacts.trans h)
  | deleting id h => exact .deleting id (hacts.trans h)
  | handedOff s h hs =>
    refine .handedOff s (hacts.trans h) ?_
    rw [Log.shown, List.filterMap_cons]
    cases e.shown? with
    | none => exact hs
    | some s' => exact List.mem_getLast?_cons hs

theorem Footprint.cons (he : IsIdle e) (h : Footprint r log result) :
    Footprint r (e :: log) result := by
  have hlanded : Log.landed (e :: log) = log.landed := by simp [Log.landed, he.isLanded]
  have hsubmitted : Log.submitted (e :: log) = log.submitted := by
    simp [Log.submitted, he.submitted?]
  cases result with
  | error x => exact ⟨hlanded.trans h.1, hsubmitted.trans h.2⟩
  | ok o =>
    obtain ⟨hle, hover, hkept⟩ := h
    refine ⟨hlanded ▸ hle, fun ho => ?_, fun ho => hsubmitted.trans (hkept ho)⟩
    obtain ⟨id, hact, hq⟩ := hover ho
    exact ⟨id, hact.cons he, hsubmitted.trans hq⟩

/-- A pass that hands nothing over leaves a write at most. -/
theorem footprint_of_kept (ho : o.handsOver = false) (hl : log.landed ≤ 1)
    (hs : log.submitted = []) : Footprint r log (.ok o) := by
  refine ⟨hl, fun ho' => ?_, fun _ => hs⟩
  rw [ho] at ho'
  cases ho'

/-! ## The stages -/

theorem landed_of_refreshLog {x : Except Error (Resource × Bool)} (h : RefreshLog r s log x) :
    Log.submitted log = [] ∧ log.landed = if x matches .ok (_, true) then 1 else 0 := by
  cases h <;> exact ⟨rfl, rfl⟩

theorem footprint_of_releaseLog (ho : o.handsOver = false) (h : ReleaseLog r o log result) :
    Footprint r log result := by
  cases h with
  | released answer ha =>
    exact footprint_of_kept ho (Log.landed_single_le _) rfl
  | unreleased e he => exact ⟨rfl, rfl⟩

/-- An accepted call is recorded, and the stack that it changed is handed over. -/
theorem footprint_of_recordLog {recorded : Resource} (h : RecordLog recorded id o log result)
    (hmeta : recorded.metadata = r.metadata) (he : e.isLanded = false) (hs : e.submitted? = none)
    (hact : ∀ rest : Log, rest.acts = [] → ActsOn (e :: rest) o id) (ho : o.handsOver = true) :
    Footprint r (e :: log) result := by
  have hlanded : Log.landed (e :: log) = log.landed := by simp [Log.landed, he]
  have hsubmitted : Log.submitted (e :: log) = log.submitted := by simp [Log.submitted, hs]
  have hrequest : recorded.followRequest id = r.followRequest id := by
    simp only [Resource.followRequest, Resource.locator, hmeta]
  cases h with
  | recorded answer ha =>
    have hacts : Log.acts [⟨.updateStatus recorded, answer⟩,
        ⟨.submit (recorded.followRequest id), ()⟩] = [] := by cases answer <;> rfl
    refine ⟨?_, fun _ => ⟨id, hact _ hacts, ?_⟩, fun ho' => absurd (ho.symm.trans ho') (by decide)⟩
    · rw [hlanded]
      exact Log.landed_single_le ⟨.updateStatus recorded, answer⟩
    · rw [hsubmitted, ← hrequest]
      rfl
  | unrecorded x hx => exact ⟨hlanded, hsubmitted⟩

theorem footprint_of_createLog (h : CreateLog p r log result) : Footprint r log result := by
  cases h with
  | noTemplate ht => exact ⟨rfl, rfl⟩
  | dryRun t ht hd => exact footprint_of_kept rfl (Nat.zero_le 1) rfl
  | refused t ht hd e => exact ⟨rfl, rfl⟩
  | accepted t ht hd id h =>
    refine footprint_of_recordLog h rfl rfl rfl
      (fun rest hrest => .created (p.inputs r t r.stackName) r.spec.onFailure id ?_) rfl
    rw [Log.acts, List.filter_cons_of_pos rfl]
    exact congrArg _ hrest

/-- What follows an update that changed nothing writes the status once: a second write comes only after
a first one that failed or was left out. -/
theorem footprint_of_confirmLog (h : ConfirmLog p r s log result) : Footprint r log result := by
  cases h with
  | unlisted e log h => exact (landed_of_refreshLog h).symm
  | written log r' h =>
    obtain ⟨hsubmitted, hlanded⟩ := landed_of_refreshLog h
    exact footprint_of_kept rfl (Nat.le_of_eq hlanded) hsubmitted
  | rewritten log r' h answer ha =>
    obtain ⟨hsubmitted, hlanded⟩ := landed_of_refreshLog h
    refine footprint_of_kept rfl ?_ ?_
    · rw [Log.landed_append, hlanded]
      simpa using Log.landed_single_le _
    · rw [Log.submitted_append, hsubmitted]
      rfl
  | unwritten log r' h e he =>
    obtain ⟨hsubmitted, hlanded⟩ := landed_of_refreshLog h
    refine ⟨?_, ?_⟩
    · rw [Log.landed_append, hlanded]
      rfl
    · rw [Log.submitted_append, hsubmitted]
      rfl

theorem footprint_of_updateLog (h : UpdateLog p r s log result) : Footprint r log result := by
  cases h with
  | noTemplate ht => exact ⟨rfl, rfl⟩
  | @current t ht hc log x h =>
    obtain ⟨hsubmitted, hlanded⟩ := landed_of_refreshLog h
    cases x with
    | error e => exact ⟨hlanded, hsubmitted⟩
    | ok x =>
      obtain ⟨r', written⟩ := x
      refine footprint_of_kept rfl ?_ hsubmitted
      cases written <;> simp [hlanded]
  | dryRun t ht hc hd => exact footprint_of_kept rfl (Nat.zero_le 1) rfl
  | accepted t ht hc hd h =>
    refine footprint_of_recordLog h rfl rfl rfl
      (fun rest hrest => .updated (p.inputs r t s.id) ?_) rfl
    rw [Log.acts, List.filter_cons_of_pos rfl]
    exact congrArg _ hrest
  | confirmed t ht hc hd e he h => exact (footprint_of_confirmLog h).cons (isIdle_updateStack _ e)
  | recreated t ht hc hd e he h => exact (footprint_of_createLog h).cons (isIdle_updateStack _ e)
  | refused t ht hc hd e hn he => exact ⟨rfl, rfl⟩

/-- A stack that is found at work is handed over as it is. -/
theorem footprint_of_handedOff (ref : String) :
    Footprint r [⟨.getStack ref, .ok s⟩, ⟨.submit (r.followRequest s.id), ()⟩] (.ok .handedOff) :=
  ⟨Nat.zero_le 1, fun _ => ⟨s.id, .handedOff s rfl rfl, rfl⟩, fun ho => absurd ho (by decide)⟩

theorem footprint_of_settleLog (h : SettleLog p r log result) : Footprint r log result := by
  cases h with
  | unseen e he => exact ⟨rfl, rfl⟩
  | absent e he h => exact (footprint_of_createLog h).cons (isIdle_getStack _ _)
  | foreign s hs h => exact (footprint_of_createLog h).cons (isIdle_getStack _ _)
  | settled s hs hc ht h => exact (footprint_of_updateLog h).cons (isIdle_getStack _ _)
  | atWork s hs hc ht => exact footprint_of_handedOff _

theorem footprint_of_deleteLog (h : DeleteLog p r log result) : Footprint r log result := by
  cases h with
  | dryRun hd => exact footprint_of_kept rfl (Nat.zero_le 1) rfl
  | unseen hd e he => exact ⟨rfl, rfl⟩
  | absent hd e he h => exact (footprint_of_releaseLog rfl h).cons (isIdle_getStack _ _)
  | foreign hd s hc h => exact (footprint_of_releaseLog rfl h).cons (isIdle_getStack _ _)
  | atWork hd s hc hs => exact footprint_of_handedOff _
  | refused hd s hc hs e => exact ⟨rfl, rfl⟩
  | accepted hd s hc hs =>
    exact ⟨Nat.zero_le 1, fun _ => ⟨s.id, .deleting s.id rfl, rfl⟩, fun ho => absurd ho (by decide)⟩

theorem footprint_of_finalizeLog (h : FinalizeLog p r log result) : Footprint r log result := by
  cases h with
  | recorded hs h => exact footprint_of_releaseLog rfl h
  | unseen hs e he => exact ⟨rfl, rfl⟩
  | absent hs e he h => exact (footprint_of_releaseLog rfl h).cons (isIdle_getStack _ _)
  | deleted hs s hd h => exact (footprint_of_releaseLog rfl h).cons (isIdle_getStack _ _)
  | standing hs s hd h => exact (footprint_of_deleteLog h).cons (isIdle_getStack _ _)

theorem footprint_of_resourceLog (h : ResourceLog p r log result) : Footprint r log result := by
  cases h with
  | idle hm hf => exact footprint_of_kept rfl (Nat.zero_le 1) rfl
  | finalizing hm hf h => exact footprint_of_finalizeLog h
  | settling hm hf h => exact footprint_of_settleLog h
  | entering hm hf answer =>
    cases answer with
    | error e => exact ⟨rfl, rfl⟩
    | ok _ => exact footprint_of_kept rfl (Nat.le_refl 1) rfl

/-- A pass that found no resource has left nothing behind. -/
theorem footprint_of_passLog (h : PassLog p l log result) :
    (∃ r rest, log = ⟨.getResource l, .ok r⟩ :: rest ∧ Footprint r log result) ∨
      log.landed = 0 ∧ log.submitted = [] ∧ ∀ o, result = .ok o → o = .resourceGone := by
  cases h with
  | gone e he =>
    refine .inr ⟨rfl, rfl, fun o ho => ?_⟩
    cases ho
    rfl
  | unread e he =>
    refine .inr ⟨rfl, rfl, fun o ho => ?_⟩
    cases ho
  | read r h =>
    exact .inl ⟨r, _, rfl, (footprint_of_resourceLog h).cons (isIdle_getResource _)⟩

/-- What a pass leaves behind, whatever its calls are answered: at most one accepted write; neither a
write nor a submission when it fails; and when it ends well, one request for the stack that it acted
on, with the locator and the uid of the resource, if it handed a stack over, and otherwise none. -/
theorem footprint_of_ran (h : Job.Ran (reconcile p l) log result) :
    log.landed ≤ 1 ∧
      (∀ e, result = .error e → log.landed = 0 ∧ log.submitted = []) ∧
      (∀ o, result = .ok o → o ∈ [.created, .updated, .deleting, .handedOff] →
        ∃ r rest id, log = ⟨.getResource l, .ok r⟩ :: rest ∧ ActsOn log o id ∧
          log.submitted = [⟨id, r.locator, r.metadata.uid⟩]) ∧
      (∀ o, result = .ok o → o ∉ [.created, .updated, .deleting, .handedOff] →
        log.submitted = []) := by
  have hover : ∀ o : Outcome,
      o ∈ [.created, .updated, .deleting, .handedOff] ↔ o.handsOver = true := by
    rintro (_ | _) <;> decide
  simp only [hover, Bool.not_eq_true]
  rcases footprint_of_passLog (passLog_of_ran h) with ⟨r, rest, hlog, hfoot⟩ | ⟨hl, hs, hgone⟩
  · cases result with
    | error e =>
      obtain ⟨hl, hs⟩ := hfoot
      refine ⟨hl ▸ Nat.zero_le 1, fun _ _ => ⟨hl, hs⟩, fun o ho => ?_, fun o ho => ?_⟩ <;> cases ho
    | ok o =>
      obtain ⟨hl, hhanded, hkept⟩ := hfoot
      refine ⟨hl, fun _ he => (by cases he), ?_, ?_⟩
      · rintro _ ⟨⟩ ho
        obtain ⟨id, hact, hq⟩ := hhanded ho
        exact ⟨r, rest, id, hlog, hact, hq⟩
      · rintro _ ⟨⟩ ho
        exact hkept ho
  · refine ⟨hl ▸ Nat.zero_le 1, fun _ _ => ⟨hl, hs⟩, ?_, fun _ _ _ => hs⟩
    rintro o ho hover
    obtain rfl := hgone o ho
    exact absurd hover (by decide)

/-- The stack is gone by the time of the update; another one is created, and it is handed over. -/
theorem footprint_of_recreatingLog :
    Job.Ran (reconcile plainPolicy heldResource.locator) recreatingLog (.ok .created) ∧
      recreatingLog.landed ≤ 1 ∧
      ∃ r rest id, recreatingLog = ⟨.getResource heldResource.locator, .ok r⟩ :: rest ∧
        ActsOn recreatingLog .created id ∧
        recreatingLog.submitted = [⟨id, r.locator, r.metadata.uid⟩] := by
  obtain ⟨hlanded, -, hhanded, -⟩ := footprint_of_ran ran_recreatingLog
  exact ⟨ran_recreatingLog, hlanded, hhanded _ rfl (by decide)⟩

end Pass
end StackKeeper
