import StackKeeper.Proofs.PassLog
/-!
# What a pass writes

Every status that a pass writes is that of the resource it has read, with the hash of its inputs, with
a stack that it created, or with what it observed of the stack that it looked up. Whatever else a pass
does with the resource, it changes the finalizers or hands over its stack.

Results:
* `writes_of_passLog`: the resources whose status a pass writes.
* `afterRead_of_passLog`: all that a pass calls for, as far as the resource is concerned.
-/
namespace StackKeeper.Pass
open Refresh

variable {p : Policy} {r w : Resource} {s : RemoteStack} {log whole : Log}
  {answer : Except Error Unit} {result : Except Error Outcome}

/-- The resources whose status a pass over `r` writes. -/
inductive Written (p : Policy) (r : Resource) (log : Log) : Resource → Prop
  | submitted : Written p r log (submittedAs p r)
  | created (inputs : StackInputs) (onFailure : Option String) (id : String)
    (h : ⟨.createStack inputs onFailure, .ok id⟩ ∈ log) : Written p r log (createdAs p r id)
  | observed (s : RemoteStack) (members : List Member) (h : ⟨.getStack r.stackRef, .ok s⟩ ∈ log) :
    Written p r log (merged r s members)
  | confirmed (s : RemoteStack) (members : List Member) (h : ⟨.getStack r.stackRef, .ok s⟩ ∈ log) :
    Written p r log (merged (submittedAs p r) s members)

theorem Written.metadata_eq (h : Written p r log w) : w.metadata = r.metadata := by
  cases h <;> rfl

theorem Written.locator_eq (h : Written p r log w) : w.locator = r.locator := by
  rw [Resource.locator, h.metadata_eq, Resource.locator]

theorem writes_of_refreshLog {x : Except Error (Resource × Bool)} (h : RefreshLog r s log x)
    (hw : ⟨.updateStatus w, answer⟩ ∈ log) : ∃ members, w = merged r s members := by
  cases h with
  | unlisted e => simp at hw
  | noNews members hn => simp at hw
  | written members hn =>
    simp only [List.mem_cons, List.not_mem_nil, or_false] at hw
    rcases hw with hw | hw <;> cases hw
    exact ⟨members, rfl⟩
  | gone members hn e he =>
    simp only [List.mem_cons, List.not_mem_nil, or_false] at hw
    rcases hw with hw | hw <;> cases hw
    exact ⟨members, rfl⟩
  | unwritten members hn e he =>
    simp only [List.mem_cons, List.not_mem_nil, or_false] at hw
    rcases hw with hw | hw <;> cases hw
    exact ⟨members, rfl⟩

theorem not_mem_releaseLog {o : Outcome} (h : ReleaseLog r o log result) :
    ⟨.updateStatus w, answer⟩ ∉ log := by
  cases h <;> simp

theorem writes_of_recordLog {recorded : Resource} {id : String} {o : Outcome}
    (h : RecordLog recorded id o log result) (hw : ⟨.updateStatus w, answer⟩ ∈ log) :
    w = recorded := by
  cases h with
  | recorded answer' ha =>
    simp only [List.mem_cons, List.not_mem_nil, or_false] at hw
    rcases hw with hw | hw <;> cases hw
    rfl
  | unrecorded e he =>
    simp only [List.mem_cons, List.not_mem_nil, or_false] at hw
    cases hw
    rfl

theorem writes_of_createLog (h : CreateLog p r log result) (hsub : log ⊆ whole)
    (hw : ⟨.updateStatus w, answer⟩ ∈ log) : Written p r whole w := by
  cases h with
  | noTemplate ht => cases hw
  | dryRun t ht hd => cases hw
  | refused t ht hd e => simp at hw
  | accepted t ht hd id h =>
    rcases List.mem_cons.mp hw with hw | hw
    · cases hw
    · rw [writes_of_recordLog h hw]
      exact .created _ _ id (hsub List.mem_cons_self)

theorem writes_of_confirmLog (h : ConfirmLog p r s log result)
    (hw : ⟨.updateStatus w, answer⟩ ∈ log) :
    w = submittedAs p r ∨ ∃ members, w = merged (submittedAs p r) s members := by
  -- What is written after the refresh is what the refresh ended with.
  have last : ∀ {first : Log} {r' : Resource} {answer' : Except Error Unit},
      RefreshLog (submittedAs p r) s first (.ok (r', false)) →
      ⟨.updateStatus w, answer⟩ ∈ first ++ [⟨.updateStatus r', answer'⟩] →
      w = submittedAs p r ∨ ∃ members, w = merged (submittedAs p r) s members := by
    intro first r' answer' h hw
    rcases List.mem_append.mp hw with hw | hw
    · exact .inr (writes_of_refreshLog h hw)
    · rw [List.mem_singleton] at hw
      cases hw
      cases h with
      | noNews members hn => exact .inl rfl
      | gone members hn e he => exact .inr ⟨members, rfl⟩
  cases h with
  | unlisted e log h => exact .inr (writes_of_refreshLog h hw)
  | written log r' h => exact .inr (writes_of_refreshLog h hw)
  | rewritten log r' h answer' ha => exact last h hw
  | unwritten log r' h e he => exact last h hw

theorem writes_of_updateLog (h : UpdateLog p r s log result) (hsub : log ⊆ whole)
    (hs : ⟨.getStack r.stackRef, .ok s⟩ ∈ whole) (hw : ⟨.updateStatus w, answer⟩ ∈ log) :
    Written p r whole w := by
  cases h with
  | noTemplate ht => cases hw
  | current t ht hc h =>
    obtain ⟨members, rfl⟩ := writes_of_refreshLog h hw
    exact .observed s members hs
  | dryRun t ht hc hd => cases hw
  | accepted t ht hc hd h =>
    rcases List.mem_cons.mp hw with hw | hw
    · cases hw
    · rw [writes_of_recordLog h hw]
      exact .submitted
  | confirmed t ht hc hd e he h =>
    rcases List.mem_cons.mp hw with hw | hw
    · cases hw
    · rcases writes_of_confirmLog h hw with rfl | ⟨members, rfl⟩
      · exact .submitted
      · exact .confirmed s members hs
  | recreated t ht hc hd e he h =>
    rcases List.mem_cons.mp hw with hw | hw
    · cases hw
    · exact writes_of_createLog h (fun e he => hsub (List.mem_cons_of_mem _ he)) hw
  | refused t ht hc hd e hn he => simp at hw

theorem writes_of_settleLog (h : SettleLog p r log result) (hsub : log ⊆ whole)
    (hw : ⟨.updateStatus w, answer⟩ ∈ log) : Written p r whole w := by
  cases h with
  | unseen e he => simp at hw
  | absent e he h =>
    rcases List.mem_cons.mp hw with hw | hw
    · cases hw
    · exact writes_of_createLog h (fun e he => hsub (List.mem_cons_of_mem _ he)) hw
  | foreign s hs h =>
    rcases List.mem_cons.mp hw with hw | hw
    · cases hw
    · exact writes_of_createLog h (fun e he => hsub (List.mem_cons_of_mem _ he)) hw
  | settled s hs hc ht h =>
    rcases List.mem_cons.mp hw with hw | hw
    · cases hw
    · exact writes_of_updateLog h (fun e he => hsub (List.mem_cons_of_mem _ he))
        (hsub List.mem_cons_self) hw
  | atWork s hs hc ht => simp at hw

theorem not_mem_deleteLog (h : DeleteLog p r log result) : ⟨.updateStatus w, answer⟩ ∉ log := by
  cases h with
  | absent hd e he h => simpa using not_mem_releaseLog h
  | foreign hd s hc h => simpa using not_mem_releaseLog h
  | dryRun hd => simp
  | unseen hd e he => simp
  | atWork hd s hc hs => simp
  | refused hd s hc hs e => simp
  | accepted hd s hc hs => simp

theorem not_mem_finalizeLog (h : FinalizeLog p r log result) :
    ⟨.updateStatus w, answer⟩ ∉ log := by
  cases h with
  | recorded hs h => exact not_mem_releaseLog h
  | unseen hs e he => simp
  | absent hs e he h => simpa using not_mem_releaseLog h
  | deleted hs s hd h => simpa using not_mem_releaseLog h
  | standing hs s hd h => simpa using not_mem_deleteLog h

/-- A pass writes the status of the resource it has read. -/
theorem writes_of_passLog {l : Locator} (h : PassLog p l log result)
    (hw : ⟨.updateStatus w, answer⟩ ∈ log) :
    ∃ r rest, log = ⟨.getResource l, .ok r⟩ :: rest ∧ Written p r log w := by
  cases h with
  | gone e he => simp at hw
  | unread e he => simp at hw
  | @read r rest _ h =>
    refine ⟨r, rest, rfl, ?_⟩
    rcases List.mem_cons.mp hw with hw | hw
    · cases hw
    cases h with
    | idle hm hf => cases hw
    | finalizing hm hf h => exact absurd hw (not_mem_finalizeLog h)
    | settling hm hf h => exact writes_of_settleLog h (List.subset_cons_self _ _) hw
    | entering hm hf answer' => simp at hw

/-! ## All calls of a pass -/

/-- What a pass that has read `r` goes on to call for: it reads no other resource and looks up no other
stack, and what it writes and hands over is `r`. -/
inductive AfterRead (r : Resource) : Event → Prop
  | looks (answer : Except Error RemoteStack) : AfterRead r ⟨.getStack r.stackRef, answer⟩
  | lists (id : String) (answer : Except Error (List Member)) : AfterRead r ⟨.getMembers id, answer⟩
  | creates (inputs : StackInputs) (onFailure : Option String) (answer : Except Error String) :
    AfterRead r ⟨.createStack inputs onFailure, answer⟩
  | updates (inputs : StackInputs) (answer : Except Error Unit) :
    AfterRead r ⟨.updateStack inputs, answer⟩
  | deletes (ref : String) (answer : Except Error Unit) : AfterRead r ⟨.deleteStack ref, answer⟩
  | declares (finalizers : List String) (answer : Except Error Unit) :
    AfterRead r ⟨.updateResource (r.withFinalizers finalizers), answer⟩
  | records (w : Resource) (hw : w.metadata = r.metadata) (answer : Except Error Unit) :
    AfterRead r ⟨.updateStatus w, answer⟩
  | submits (w : Resource) (hw : w.metadata = r.metadata) (id : String) :
    AfterRead r ⟨.submit (w.followRequest id), ()⟩

theorem afterRead_of_refreshLog {r' : Resource} {x : Except Error (Resource × Bool)}
    (h : RefreshLog r' s log x) (hr : r'.metadata = r.metadata) : ∀ e ∈ log, AfterRead r e := by
  cases h with
  | unlisted e | noNews members hn => simp [AfterRead.lists]
  | written members hn | gone members hn e he | unwritten members hn e he =>
    simp [AfterRead.lists, AfterRead.records (merged r' s members) hr]

theorem afterRead_of_recordLog {id : String} {o : Outcome} (h : RecordLog w id o log result)
    (hw : w.metadata = r.metadata) : ∀ e ∈ log, AfterRead r e := by
  cases h with
  | recorded answer ha => simp [AfterRead.records _ hw, AfterRead.submits _ hw]
  | unrecorded e he => simp [AfterRead.records _ hw]

theorem afterRead_of_createLog (h : CreateLog p r log result) : ∀ e ∈ log, AfterRead r e := by
  cases h with
  | noTemplate ht | dryRun t ht hd => simp
  | refused t ht hd e => simp [AfterRead.creates]
  | accepted t ht hd id h =>
    exact List.forall_mem_cons.mpr ⟨.creates _ _ _, afterRead_of_recordLog h rfl⟩

theorem afterRead_of_confirmLog (h : ConfirmLog p r s log result) : ∀ e ∈ log, AfterRead r e := by
  -- The last write is of what the refresh ended with.
  have last : ∀ {first : Log} {r' : Resource} {x : Bool} {answer : Except Error Unit},
      RefreshLog (submittedAs p r) s first (.ok (r', x)) →
      ∀ e ∈ first ++ [⟨.updateStatus r', answer⟩], AfterRead r e := by
    intro first r' x answer h
    have hr' : r'.metadata = r.metadata := by cases h <;> rfl
    simp only [List.forall_mem_append, List.forall_mem_singleton]
    exact ⟨afterRead_of_refreshLog h rfl, .records _ hr' _⟩
  cases h with
  | unlisted e log h | written log r' h => exact afterRead_of_refreshLog h rfl
  | rewritten log r' h answer ha | unwritten log r' h e he => exact last h

theorem afterRead_of_updateLog (h : UpdateLog p r s log result) : ∀ e ∈ log, AfterRead r e := by
  cases h with
  | noTemplate ht | dryRun t ht hc hd => simp
  | current t ht hc h => exact afterRead_of_refreshLog h rfl
  | accepted t ht hc hd h =>
    exact List.forall_mem_cons.mpr ⟨.updates _ _, afterRead_of_recordLog h rfl⟩
  | confirmed t ht hc hd e he h =>
    exact List.forall_mem_cons.mpr ⟨.updates _ _, afterRead_of_confirmLog h⟩
  | recreated t ht hc hd e he h =>
    exact List.forall_mem_cons.mpr ⟨.updates _ _, afterRead_of_createLog h⟩
  | refused t ht hc hd e hn he => simp [AfterRead.updates]

theorem afterRead_of_settleLog (h : SettleLog p r log result) : ∀ e ∈ log, AfterRead r e := by
  cases h with
  | unseen e he => simp [AfterRead.looks]
  | absent e he h | foreign s hs h =>
    exact List.forall_mem_cons.mpr ⟨.looks _, afterRead_of_createLog h⟩
  | settled s hs hc ht h =>
    exact List.forall_mem_cons.mpr ⟨.looks _, afterRead_of_updateLog h⟩
  | atWork s hs hc ht => simp [AfterRead.looks, AfterRead.submits r rfl]

theorem afterRead_of_releaseLog {o : Outcome} (h : ReleaseLog r o log result) :
    ∀ e ∈ log, AfterRead r e := by
  cases h <;> simp [Resource.removeStackFinalizers, AfterRead.declares]

theorem afterRead_of_deleteLog (h : DeleteLog p r log result) : ∀ e ∈ log, AfterRead r e := by
  cases h with
  | dryRun hd => simp
  | unseen hd e he => simp [AfterRead.looks]
  | refused hd s hc hs e => simp [AfterRead.looks, AfterRead.deletes]
  | absent hd e he h | foreign hd s hc h =>
    exact List.forall_mem_cons.mpr ⟨.looks _, afterRead_of_releaseLog h⟩
  | atWork hd s hc hs | accepted hd s hc hs =>
    simp [AfterRead.looks, AfterRead.deletes, AfterRead.submits r rfl]

theorem afterRead_of_finalizeLog (h : FinalizeLog p r log result) : ∀ e ∈ log, AfterRead r e := by
  cases h with
  | recorded hs h => exact afterRead_of_releaseLog h
  | unseen hs e he => simp [AfterRead.looks]
  | absent hs e he h | deleted hs s hd h =>
    exact List.forall_mem_cons.mpr ⟨.looks _, afterRead_of_releaseLog h⟩
  | standing hs s hd h => exact List.forall_mem_cons.mpr ⟨.looks _, afterRead_of_deleteLog h⟩

theorem afterRead_of_resourceLog (h : ResourceLog p r log result) : ∀ e ∈ log, AfterRead r e := by
  cases h with
  | idle hm hf => simp
  | finalizing hm hf h => exact afterRead_of_finalizeLog h
  | settling hm hf h => exact afterRead_of_settleLog h
  | entering hm hf answer =>
    rw [List.forall_mem_singleton, Resource.addFinalizer, if_neg (by simp [hf])]
    exact .declares _ _

/-- A pass reads once, and goes on with what it has read. -/
theorem afterRead_of_passLog {l : Locator} {e : Event} (h : PassLog p l log result) (he : e ∈ log) :
    (∃ error, e = ⟨.getResource l, .error error⟩) ∨
      ∃ r rest, log = ⟨.getResource l, .ok r⟩ :: rest ∧
        (e = ⟨.getResource l, .ok r⟩ ∨ AfterRead r e) := by
  cases h with
  | gone error _ | unread error _ => exact .inl ⟨error, List.mem_singleton.mp he⟩
  | read r h =>
    refine .inr ⟨r, _, rfl, ?_⟩
    exact (List.mem_cons.mp he).imp_right (afterRead_of_resourceLog h e)

end StackKeeper.Pass
