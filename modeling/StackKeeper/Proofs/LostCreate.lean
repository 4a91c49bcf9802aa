import StackKeeper.Proofs.Orphans
import StackKeeper.Proofs.Standing
/-!
# Stacks whose creation was not recorded

A create call can take effect although the pass does not learn of it, and the pass can learn the id and
fail to store it. The resource is then what it was before. Later passes look the stack up by the
recorded id, or by its name when no id is recorded: they find the stack in the one case, and miss it
in the other, where the recorded id is that of an earlier stack.

Results:
* `unchanged_of_losesCreate`: such a pass leaves the resource as it was.
* `findable_of_step`: a resource that leads to its stack goes on to do so.
* `found_unless_another_recorded`: what later passes do with the stack that was created.
* `created_again`: a second stack of the same name.
-/
namespace StackKeeper

/-- A stack of ours with the id stands under the name. -/
def Remote.Shows (m : Remote) (name id : String) : Prop :=
  ∃ c, m.look name = some c ∧ c.id = id ∧ c.isDeleted = false ∧ c.isControlled = true

namespace Status

/-- A deletion is recorded together with an id. -/
def NamesDeleted (st : Status) : Prop :=
  st.stackId = "" → st.stackStatus ≠ Lifecycle.deleteComplete

/-- The status leads to the stack with the id: it records no other id, and no deletion. -/
structure LeadsTo (id : String) (st : Status) : Prop where
  ref : st.stackId = "" ∨ st.stackId = id
  undeleted : st.stackStatus ≠ Lifecycle.deleteComplete

end Status

namespace Pass
open Log Refresh

variable {p : Policy} {r : Resource} {s : RemoteStack} {log : Log} {e : Error}
  {inputs : StackInputs} {onFailure : Option String} {answer : Except Error String}

/-! ## A pass that loses what it created -/

theorem mutates_of_mem (hc : ⟨.createStack inputs onFailure, answer⟩ ∈ log) :
    log.Mutates (.createStack inputs onFailure) := ⟨mem_calls_of_mem hc, rfl⟩

theorem lost_of_createLog (h : CreateLog p r log (.error e))
    (hc : ⟨.createStack inputs onFailure, answer⟩ ∈ log) :
    inputs.stack = r.stackName ∧ ∀ d ∈ log, d.WritesNothing := by
  obtain ⟨t, -, -, hcall⟩ := (mutates_createLog h).mp (mutates_of_mem hc)
  cases hcall
  refine ⟨rfl, ?_⟩
  generalize hres : (Except.error e : Except Error Outcome) = result at h
  cases h with
  | noTemplate ht => simp
  | dryRun t ht hd => cases hres
  | refused t ht hd e => simp [Event.WritesNothing]
  | accepted t ht hd id h =>
    subst hres
    cases h
    simp [Event.WritesNothing]

theorem lost_of_updateLog (h : UpdateLog p r s log (.error e))
    (hc : ⟨.createStack inputs onFailure, answer⟩ ∈ log) :
    inputs.stack = r.stackName ∧ ∀ d ∈ log, d.WritesNothing := by
  have hmut := mutates_of_mem hc
  generalize hres : (Except.error e : Except Error Outcome) = result at h
  cases h with
  | noTemplate ht | dryRun t ht hd' hd => cases hc
  | refused t ht hd' hd e hn he => simp at hc
  | current t ht hd' h => exact absurd hmut (not_mutates_refreshLog h)
  | accepted t ht hd' hd h => simp [mutates_cons, not_mutates_recordLog h] at hmut
  | confirmed t ht hd' hd e he h => simp [mutates_cons, not_mutates_confirmLog h] at hmut
  | recreated t ht hd' hd e he h =>
    subst hres
    obtain ⟨hname, hw⟩ := lost_of_createLog h (by simpa using hc)
    exact ⟨hname, List.forall_mem_cons.mpr ⟨by simp [Event.WritesNothing], hw⟩⟩

theorem lost_of_settleLog (h : SettleLog p r log (.error e))
    (hc : ⟨.createStack inputs onFailure, answer⟩ ∈ log) :
    inputs.stack = r.stackName ∧ ∀ d ∈ log, d.WritesNothing := by
  cases h with
  | unseen e he => simp at hc
  | absent e he h | foreign s hs h =>
    obtain ⟨hname, hw⟩ := lost_of_createLog h (by simpa using hc)
    exact ⟨hname, List.forall_mem_cons.mpr ⟨by simp [Event.WritesNothing], hw⟩⟩
  | settled s hs hown ht h =>
    obtain ⟨hname, hw⟩ := lost_of_updateLog h (by simpa using hc)
    exact ⟨hname, List.forall_mem_cons.mpr ⟨by simp [Event.WritesNothing], hw⟩⟩

/-- A pass that called for a stack and ends in an error has written nothing. -/
theorem lost_of_passLog {l : Locator} (h : PassLog p l log (.error e))
    (hc : ⟨.createStack inputs onFailure, answer⟩ ∈ log) :
    ∃ r rest, log = ⟨.getResource l, .ok r⟩ :: rest ∧ inputs.stack = r.stackName ∧
      ∀ d ∈ log, d.WritesNothing := by
  generalize hres : (Except.error e : Except Error Outcome) = result at h
  cases h with
  | gone e he | unread e he => simp at hc
  | @read r rest _ h =>
    refine ⟨r, rest, rfl, ?_⟩
    have hc : ⟨.createStack inputs onFailure, answer⟩ ∈ rest := by simpa using hc
    cases h with
    | idle hm hf => cases hc
    | entering hm hf answer => simp at hc
    | finalizing hm hf h =>
      obtain ⟨-, _, -, -, -, _, -, -, -, hcall⟩ := (mutates_finalizeLog h).mp (mutates_of_mem hc)
      cases hcall
    | settling hm hf h =>
      subst hres
      obtain ⟨hname, hw⟩ := lost_of_settleLog h hc
      exact ⟨hname, List.forall_mem_cons.mpr ⟨by simp [Event.WritesNothing], hw⟩⟩

end Pass

namespace Course
open Store Pass Follow Refresh

variable {l : Locator} {past : List Step} {s s' : Store} {m : Remote} {p : Policy} {log : Log}
  {r : Resource} {c : RemoteStack} {name id : String} {inputs : StackInputs}
  {result : Except Error Outcome}

/-- A pass called for a stack, and ended in an error before the id was stored. If it learned an id at
all, it is this one. -/
def LosesCreate (l : Locator) (s : Store) (inputs : StackInputs) (id : String) (s' : Store) : Prop :=
  ∃ m p log e onFailure answer, (Step.pass m p log (.error e)).Takes l s s' ∧
    ⟨.createStack inputs onFailure, answer⟩ ∈ log ∧ ∀ given, answer = .ok given → given = id

theorem unchanged_of_losesCreate (hown : s.Owns l) (h : LosesCreate l s inputs id s') :
    ∃ r, s.get l = .ok r ∧ s'.get l = .ok r ∧ r.stackName = inputs.stack := by
  obtain ⟨m, p, log, e, onFailure, answer, ⟨hran, -, hc⟩, hcall, -⟩ := h
  obtain ⟨r, rest, rfl, hname, hw⟩ := lost_of_passLog (passLog_of_ran hran) hcall
  have hget : s.get l = .ok r := get_of_chain hc
  exact ⟨r, hget, get_of_unwritten hown hc hget hw, hname.symm⟩

/-! ## Recorded deletions -/

/-- The stacks that a pass creates have ids. -/
def Step.NamesStacks (step : Step) : Prop :=
  match step with
  | .pass _ _ log _ => ∀ inputs onFailure, ⟨.createStack inputs onFailure, .ok ""⟩ ∉ log
  | _ => True

theorem namesDeleted_merge {ref : String} {shown : RemoteStack} (h : m.look ref = some shown)
    (st : Status) (members : List Member) : (st.merge shown members).NamesDeleted := by
  have hne := (m.sameById ref shown h).1
  intro hid
  rw [Status.stackId_merge, if_neg hne] at hid
  exact absurd hid hne

theorem namesDeleted_of_reached (h : Reached l past s) (hnamed : ∀ step ∈ past, step.NamesStacks) :
    s.Holds l Status.NamesDeleted := by
  induction h with
  | start h => exact fun r hr => absurd hr (h r)
  | @step past s s' step h hs ih =>
    rw [List.forall_mem_cons] at hnamed
    have ih := ih hnamed.2
    cases step with
    | pass m p log result =>
      obtain ⟨hran, ha, hc⟩ := hs
      refine holds_of_pass (passLog_of_ran hran) hc ih (fun st hst => hst) ?_
      intro r w hr hst hw
      cases hw with
      | submitted => exact hst
      | created inputs onFailure id hmem =>
        intro hid
        have hid : id = "" := hid
        exact absurd (hid ▸ hmem) (hnamed.1 inputs onFailure)
      | observed shown members hs | confirmed shown members hs =>
        exact namesDeleted_merge (ha ⟨.getStack r.stackRef, .ok shown⟩ hs) _ _
    | tick m secs entries log summary =>
      obtain ⟨hran, ha, hc⟩ := hs
      exact holds_of_tick hran ha hc ih fun st ref shown members hlook _ =>
        namesDeleted_merge hlook st members
    | request r => exact holds_of_request hs.1 hs.2 ih
    | birth =>
      intro r hr
      obtain ⟨hl, hst⟩ := hs.2 r hr
      refine ⟨hl, fun _ => ?_⟩
      rw [hst]
      decide
    | elsewhere log => exact ih.of_get hs

/-! ## Resources that lead to their stack -/

/-- The step leaves alone what leads to the stack: at the provisioning API the stack stands under the
name, no other stack is followed for the resource, and no user names another one. -/
def Step.Spares (l : Locator) (name id : String) (step : Step) : Prop :=
  match step with
  | .pass m _ log _ => m.Shows name id ∧ ∀ e ∈ log, m.Knows e
  | .tick m _ entries _ _ => m.Shows name id ∧ ∀ entry ∈ entries, entry.2 = l → entry.1 = id
  | .request r => r.stackName = name
  | .birth => False
  | .elsewhere _ => True

/-- A look-up for the resource leads to the stack with the id, which has the name. -/
structure Findable (l : Locator) (name id : String) (r : Resource) : Prop where
  own : r.locator = l
  named : r.stackName = name
  leads : r.status.LeadsTo id

theorem Findable.look (h : Findable l name id r) (hm : m.Shows name id) :
    ∃ c, m.look r.stackRef = some c ∧ m.look c.id = some c ∧ c.id = id ∧ c.isDeleted = false ∧
      c.isControlled = true := by
  obtain ⟨c, hlook, rfl, hdel, hown⟩ := hm
  have hid := (m.sameById name c hlook).2
  refine ⟨c, ?_, hid, rfl, hdel, hown⟩
  rw [Resource.stackRef]
  split
  · rw [h.named, hlook]
  · rename_i hne
    rw [h.leads.ref.resolve_left hne, hid]

/-- What is observed of the stack leads to it. -/
theorem leadsTo_merge {ref : String} (hlook : m.look ref = some c) (hid : c.id = id)
    (hdel : c.isDeleted = false) (st : Status) (members : List Member) :
    (st.merge c members).LeadsTo id := by
  constructor
  · rw [Status.stackId_merge, if_neg (m.sameById ref c hlook).1]
    exact .inr hid
  · have hs : c.status ≠ Lifecycle.deleteComplete := by simpa [RemoteStack.isDeleted] using hdel
    exact hs

theorem stackName_eq {r' : Resource} (hl : r.locator = r'.locator) (hs : r.spec = r'.spec) :
    r.stackName = r'.stackName := by
  obtain ⟨hns, hname⟩ : r.metadata.ns = r'.metadata.ns ∧ r.metadata.name = r'.metadata.name := by
    simpa [Resource.locator] using hl
  rw [Resource.stackName, Resource.stackName, hs, hns, hname]

/-- Once it has read the resource, a pass calls for its stack alone and does not end finalized. -/
theorem isFor_of_resourceLog (hr : Findable l name id r) (h : ResourceLog p r log result)
    (ha : ∀ e ∈ log, m.Answers e) (hk : ∀ e ∈ log, m.Knows e) (hm : m.Shows name id) :
    (∀ e ∈ log, e.1.IsFor id) ∧ result ≠ .ok .finalized := by
  obtain ⟨c, hlook, hid, rfl, hdel, hown⟩ := hr.look hm
  cases h with
  | idle hm hf => simp
  | entering hm hf answer => cases answer <;> simp [Call.IsFor, Except.map]
  | finalizing hm hf h =>
    have hlog := standingLog_of_finalizeLog h ha hlook hr.leads.undeleted hdel hown
    exact ⟨isFor_of_standingLog hlog, by cases hlog <;> simp⟩
  | settling hm hf h =>
    have hlog := tendingLog_of_settleLog h ha hlook hdel hown
    refine ⟨isFor_of_tendingLog hlog hk hid, ?_⟩
    rintro rfl
    exact absurd (outcome_of_settleLog h) (by decide)

theorem isFor_of_pass (hs : s.Carries l (Findable l name id))
    (h : (Step.pass m p log result).Takes l s s') (hsp : (Step.pass m p log result).Spares l name id) :
    (∀ e ∈ log, e.1.IsFor id) ∧ result ≠ .ok .finalized := by
  obtain ⟨hran, ha, hc⟩ := h
  cases passLog_of_ran hran with
  | gone e he | unread e he => simp [Call.IsFor]
  | read r h =>
    rw [List.forall_mem_cons] at ha
    obtain ⟨hfor, hne⟩ := isFor_of_resourceLog (hs r (get_of_chain hc)).2 h ha.2
      (List.forall_mem_cons.mp hsp.2).2 hsp.1
    exact ⟨List.forall_mem_cons.mpr ⟨trivial, hfor⟩, hne⟩

/-- A declaration that keeps the stack name keeps the stack within reach. -/
theorem Findable.revise {w : Resource} (h : Findable l name id r) (hl : w.locator = l)
    (hname : w.stackName = name) : Findable l name id (revise r w) := by
  have hown : (Store.revise r w).locator = l := h.own
  refine ⟨hown, ?_, h.leads⟩
  rw [← hname]
  exact stackName_eq (hown.trans hl.symm) rfl

theorem findable_of_tick {secs : Nat} {entries : List (String × Locator)} {total : TickSummary}
    (hs : s.Carries l (Findable l name id)) (h : (Step.tick m secs entries log total).Takes l s s')
    (hsp : (Step.tick m secs entries log total).Spares l name id) :
    s'.Carries l (Findable l name id) := by
  obtain ⟨hran, ha, hc⟩ := h
  obtain ⟨⟨c, hname, hcid, hdel, -⟩, hentries⟩ := hsp
  refine carries_of_tick hran hc hs fun entry he hl r r₀ shown members hshown hr _ => ?_
  have hlook : m.look entry.1 = some shown := ha ⟨.getStack entry.1, .ok shown⟩ hshown
  have hself : m.look id = some c := hcid ▸ (m.sameById name c hname).2
  rw [hentries entry he hl, hself] at hlook
  cases hlook
  exact ⟨hr.own, hr.named, leadsTo_merge hname hcid hdel _ _⟩

theorem findable_of_pass (hs : s.Carries l (Findable l name id))
    (h : (Step.pass m p log result).Takes l s s') (hsp : (Step.pass m p log result).Spares l name id) :
    s'.Carries l (Findable l name id) := by
  have hfor := (isFor_of_pass hs h hsp).1
  obtain ⟨hran, ha, hc⟩ := h
  refine carries_of_pass (passLog_of_ran hran) hc hs ?_ fun r r₀ w hw hr hr₀ => ?_
  · exact fun r r₀ finalizers _ hl hr hr₀ => hr.revise hl hr₀.named
  · refine ⟨hr.own, hr.named, ?_⟩
    cases hw with
    | submitted => exact ⟨hr₀.leads.ref, hr₀.leads.undeleted⟩
    | created inputs onFailure id' hmem => exact (hfor _ hmem).elim
    | observed shown members hshown | confirmed shown members hshown =>
      obtain ⟨c, hlook, -, hcid, hdel, -⟩ := hr₀.look hsp.1
      cases eq_of_answers hlook (ha _ hshown)
      exact leadsTo_merge hlook hcid hdel _ members

theorem findable_of_step {step : Step} (hs : s.Carries l (Findable l name id))
    (h : step.Takes l s s') (hsp : step.Spares l name id) : s'.Carries l (Findable l name id) := by
  cases step with
  | pass m p log result => exact findable_of_pass hs h hsp
  | tick m secs entries log total => exact findable_of_tick hs h hsp
  | request w => exact carries_of_request h.1 h.2 hs fun r hr => hr.revise h.1 hsp
  | birth => exact hsp.elim
  | elsewhere log =>
    have hget : s'.get l = s.get l := h
    exact fun r hr => hs r (hget ▸ hr)

theorem findable_of_chain {steps : List Step} (hs : s.Carries l (Findable l name id))
    (h : Chain (Step.Takes l) s steps s') (hsp : ∀ step ∈ steps, step.Spares l name id) :
    s'.Carries l (Findable l name id) := by
  induction steps generalizing s with
  | nil =>
    cases h
    exact hs
  | cons step steps ih =>
    obtain ⟨s₁, hstep, h⟩ := h
    rw [List.forall_mem_cons] at hsp
    exact ih (findable_of_step hs hstep hsp.1) h hsp.2

theorem get_of_requests {requests : List Resource} (hs : s.Holds l (· = r.status))
    (h : Chain (Step.Takes l) s (requests.map .request) s') : s'.Holds l (· = r.status) := by
  induction requests generalizing s with
  | nil =>
    cases h
    exact hs
  | cons w requests ih =>
    obtain ⟨s₁, ⟨hl, hu⟩, h⟩ := h
    exact ih (holds_of_request hl hu hs) h

/-! ## After a create call that was lost -/

/-- A pass over a resource that leads to its standing stack hands the stack over, updates it, or finds
it up to date. -/
theorem outcome_of_findable (hr : Findable l name id r)
    (hpass : (Step.pass m p log result).Takes l s s')
    (hspare : (Step.pass m p log result).Spares l name id) (hget : s.get l = .ok r)
    (hsub : Submittable p r) (hsucc : ∀ e ∈ log, e.Succeeds) :
    ∃ o ∈ [Outcome.handedOff, .updated, .upToDate], result = .ok o := by
  obtain ⟨rest, rfl, hlog, -⟩ := resourceLog_of_takes hpass hget hsucc
  obtain ⟨-, ha, -⟩ := hpass
  obtain ⟨hm, hk⟩ := hspare
  rw [List.forall_mem_cons] at ha hk hsucc
  obtain ⟨c, hlook, hcid, -, hdel, hown⟩ := hr.look hm
  cases hlog with
  | idle hm hf | finalizing hm hf h => cases hsub.unmarked.symm.trans hm
  | entering hm hf answer => cases hsub.held.symm.trans hf
  | settling hm hf h =>
    exact ok_of_tendingLog (tendingLog_of_settleLog h ha.2 hlook hdel hown) hk.2 hcid hsucc.2
      hsub.template hsub.wet

/-- A pass over a resource whose recorded stack is gone creates a stack, or finishes the resource. -/
theorem outcome_of_isGone (hpass : (Step.pass m p log result).Takes l s s') (hget : s.get l = .ok r)
    (hgone : m.IsGone r.stackRef) (hsucc : ∀ e ∈ log, e.Succeeds) :
    (Submittable p r → result = .ok .created ∧ ∃ inputs onFailure id,
        ⟨.createStack inputs onFailure, .ok id⟩ ∈ log ∧ inputs.stack = r.stackName) ∧
      (r.isMarked = true → r.hasStackFinalizer = true → result = .ok .finalized) := by
  obtain ⟨rest, rfl, hlog, -⟩ := resourceLog_of_takes hpass hget hsucc
  obtain ⟨-, ha, -⟩ := hpass
  rw [List.forall_mem_cons] at ha hsucc
  constructor
  · intro hsub
    cases hlog with
    | idle hm hf | finalizing hm hf h => cases hsub.unmarked.symm.trans hm
    | entering hm hf answer => cases hsub.held.symm.trans hf
    | settling hm hf h =>
      obtain ⟨hres, inputs, onFailure, id, hmem, hname⟩ :=
        created_of_settleLog h ha.2 hsucc.2 hgone hsub.template hsub.wet
      exact ⟨hres, inputs, onFailure, id, List.mem_cons_of_mem _ hmem, hname⟩
  · intro hmarked hheld
    cases hlog with
    | idle hm hf => cases hheld.symm.trans hf
    | finalizing hm hf h => exact (released_of_finalizeLog h ha.2 hsucc.2 (.inr hgone)).1
    | settling hm hf h | entering hm hf answer => cases hmarked.symm.trans hm

/-- A stack whose creation was not recorded is found if no id is recorded of another one. Whatever
passes, ticks and users do from then on while the stack stands, every pass goes by that stack: none
creates another one, none ends finalized, and one that is answered hands the stack over, updates it, or
finds it up to date. With the id of an earlier stack recorded, which is gone, the next pass creates
another stack of the name or, once the deletion of the resource was requested, ends finalized. -/
theorem found_unless_another_recorded {s₁ : Store} (h : Reached l past s)
    (hnamed : ∀ step ∈ past, step.NamesStacks) (hlost : LosesCreate l s inputs id s₁) :
    ∃ r, s.get l = .ok r ∧ s₁.get l = .ok r ∧ r.stackName = inputs.stack ∧
      (r.status.stackId = "" → ∀ steps s₂ m p log result s₃,
        Chain (Step.Takes l) s₁ steps s₂ → (∀ step ∈ steps, step.Spares l inputs.stack id) →
        (Step.pass m p log result).Takes l s₂ s₃ →
        (Step.pass m p log result).Spares l inputs.stack id →
          (∀ c ∈ log.calls, c.IsFor id) ∧ result ≠ .ok .finalized ∧
          ∀ r₂, s₂.get l = .ok r₂ → Submittable p r₂ → (∀ e ∈ log, e.Succeeds) →
            ∃ o ∈ [Outcome.handedOff, .updated, .upToDate], result = .ok o) ∧
      (r.status.stackId ≠ "" → ∀ (requests : List Resource) s₂ r₂ m p log result s₃,
        Chain (Step.Takes l) s₁ (requests.map .request) s₂ → s₂.get l = .ok r₂ →
        m.IsGone r.status.stackId → (Step.pass m p log result).Takes l s₂ s₃ →
        (∀ e ∈ log, e.Succeeds) →
          (Submittable p r₂ → result = .ok .created ∧ ∃ inputs₂ onFailure id₂,
            ⟨.createStack inputs₂ onFailure, .ok id₂⟩ ∈ log ∧ inputs₂.stack = r₂.stackName) ∧
          (r₂.isMarked = true → r₂.hasStackFinalizer = true → result = .ok .finalized)) := by
  have hheld := namesDeleted_of_reached h hnamed
  obtain ⟨r, hget, hget₁, hname⟩ := unchanged_of_losesCreate hheld.owns hlost
  obtain ⟨hl, hdeleted⟩ := hheld r hget
  refine ⟨r, hget, hget₁, hname, ?_, ?_⟩
  · intro hid steps s₂ m p log result s₃ hsteps hspares hpass hspare
    have hs₁ : s₁.Carries l (Findable l inputs.stack id) := by
      intro r' hr'
      cases hget₁.symm.trans hr'
      exact ⟨hl, hl, hname, .inl hid, hdeleted hid⟩
    have hs₂ := findable_of_chain hs₁ hsteps hspares
    obtain ⟨hfor, hne⟩ := isFor_of_pass hs₂ hpass hspare
    exact ⟨List.forall_mem_map.mpr hfor, hne, fun r₂ hr₂ =>
      outcome_of_findable (hs₂ r₂ hr₂).2 hpass hspare hr₂⟩
  · intro hid requests s₂ r₂ m p log result s₃ hrequests hr₂ hgone hpass hsucc
    have hs₁ : s₁.Holds l (· = r.status) := by
      intro r' hr'
      cases hget₁.symm.trans hr'
      exact ⟨hl, rfl⟩
    have hstatus : r₂.status = r.status := (get_of_requests hs₁ hrequests r₂ hr₂).2
    have href : r₂.stackRef = r.status.stackId := by rw [Resource.stackRef, hstatus, if_neg hid]
    exact outcome_of_isGone hpass hr₂ (href ▸ hgone) hsucc

def risingStack : RemoteStack := { secondStack with status := "CREATE_IN_PROGRESS" }

theorem stackName_newResource : newResource.stackName = "default-web" := by decide +kernel

def timedOutLog : Log :=
  [⟨.getResource webLocator, .ok newResource⟩,
    ⟨.getStack newResource.stackRef, .error (.stackNotFound newResource.stackRef)⟩,
    ⟨.createStack (plainPolicy.inputs newResource (.body "t") newResource.stackName)
      newResource.spec.onFailure, .error (.timedOut "create stack" 30)⟩]

theorem losesCreate_timedOutLog (id : String) :
    LosesCreate webLocator (webStore (Document.text newResource))
      (plainPolicy.inputs newResource (.body "t") newResource.stackName) id
      (webStore (Document.text newResource)) := by
  refine ⟨onlyStack deletedStack (by decide), plainPolicy, timedOutLog, .timedOut "create stack" 30,
    newResource.spec.onFailure, .error (.timedOut "create stack" 30), ⟨?_, ?_, ?_⟩,
    by simp [timedOutLog], by simp⟩
  · have hcreate := CreateLog.refused (p := plainPolicy) (r := newResource) (.body "t") (by decide) rfl
      (.timedOut "create stack" 30)
    exact (PassLog.read newResource
      (.settling rfl (by decide) (.absent (.stackNotFound newResource.stackRef) rfl hcreate))).ran
  · have hnone : (onlyStack deletedStack (by decide)).look newResource.stackRef = none := by decide
    simp [timedOutLog, Remote.Answers, hnone]
  · exact ⟨_, moves_read_webStore (by decide), _, rfl, _, rfl, rfl⟩

def findingLog : Log :=
  [⟨.getResource webLocator, .ok newResource⟩, ⟨.getStack newResource.stackRef, .ok risingStack⟩,
    ⟨.submit (newResource.followRequest "s2"), ()⟩]

theorem takes_findingLog :
    (Step.pass (namedStack risingStack (by decide)) plainPolicy findingLog (.ok .handedOff)).Takes
      webLocator (webStore (Document.text newResource)) (webStore (Document.text newResource)) := by
  refine ⟨?_, ?_, ?_⟩
  · exact (PassLog.read newResource (.settling rfl (by decide)
      (.atWork risingStack (by decide) (by decide) (by decide)))).ran
  · have href : newResource.stackRef = "default-web" := stackName_newResource
    simp [findingLog, Remote.Answers, namedStack, href, risingStack, secondStack]
  · exact ⟨_, moves_read_webStore (by decide), _, rfl, _, rfl, rfl⟩

theorem spares_findingLog : (Step.pass (namedStack risingStack (by decide)) plainPolicy findingLog
    (.ok .handedOff)).Spares webLocator "default-web" "s2" :=
  ⟨⟨risingStack, rfl, rfl, by decide, by decide⟩, by simp [findingLog, Remote.Knows]⟩

theorem found_after_timeout :
    Reached webLocator [.birth] (webStore (Document.text newResource)) ∧
      LosesCreate webLocator (webStore (Document.text newResource))
        (plainPolicy.inputs newResource (.body "t") newResource.stackName) "s2"
        (webStore (Document.text newResource)) ∧
      (∀ c ∈ findingLog.calls, c.IsFor "s2") ∧
      ∃ o ∈ [Outcome.handedOff, .updated, .upToDate], (.ok .handedOff : Except Error Outcome) = .ok o := by
  obtain ⟨r, hr, -, hname, hfound, -⟩ := found_unless_another_recorded reached_birth
    (by simp [Step.NamesStacks]) (losesCreate_timedOutLog "s2")
  have hget : (webStore (Document.text newResource)).get webLocator = .ok newResource :=
    get_webStore (by decide)
  cases hget.symm.trans hr
  obtain ⟨hfor, -, hout⟩ := hfound rfl [] _ _ _ _ _ _ rfl (by simp) takes_findingLog
    (by rw [← hname, stackName_newResource]; exact spares_findingLog)
  refine ⟨reached_birth, losesCreate_timedOutLog "s2", hfor, ?_⟩
  exact hout newResource hget ⟨rfl, by decide, by unfold Spec.HasOneTemplate; decide, rfl⟩
    (by simp [findingLog, Event.Succeeds])

/-- A remote side that shows the second stack under its name and its id, and the first one as deleted
under its id. -/
def bothStacks : Remote where
  look ref :=
    if ref = "s1" then some deletedStack
    else if ref = "s2" ∨ ref = "default-web" then some secondStack else none
  sameById ref s hs := by
    split at hs
    · cases hs
      exact ⟨by decide, rfl⟩
    · split at hs
      · cases hs
        exact ⟨by decide, rfl⟩
      · cases hs

/-- The id of the second stack is not stored. -/
def unstoredLog : Log :=
  [⟨.getResource webLocator, .ok resourceWithoutStack⟩,
    ⟨.getStack resourceWithoutStack.stackRef, .ok deletedStack⟩,
    ⟨.createStack (plainPolicy.inputs resourceWithoutStack (.body "t") resourceWithoutStack.stackName)
      resourceWithoutStack.spec.onFailure, .ok "s2"⟩,
    ⟨.updateStatus (createdAs plainPolicy resourceWithoutStack "s2"), .error (.storeIo "disk full")⟩]

theorem losesCreate_unstoredLog :
    LosesCreate webLocator (webStore (Document.text resourceWithoutStack))
      (plainPolicy.inputs resourceWithoutStack (.body "t") resourceWithoutStack.stackName) "s2"
      (webStore (Document.text resourceWithoutStack)) := by
  refine ⟨onlyStack deletedStack (by decide), plainPolicy, unstoredLog, .storeIo "disk full",
    resourceWithoutStack.spec.onFailure, .ok "s2", ⟨?_, ?_, ?_⟩, by simp [unstoredLog],
    fun given h => (Except.ok.inj h).symm⟩
  · have hcreate := CreateLog.accepted (p := plainPolicy) (r := resourceWithoutStack) (.body "t")
      (by decide) rfl "s2" (.unrecorded (.storeIo "disk full") rfl)
    exact (PassLog.read resourceWithoutStack
      (.settling rfl (by decide) (.foreign deletedStack (by decide) hcreate))).ran
  · have href : resourceWithoutStack.stackRef = "s1" := by decide
    simp [unstoredLog, Remote.Answers, onlyStack, href, deletedStack]
  · refine ⟨_, moves_read_webStore (by decide), _, rfl, _, rfl, _, ?_, rfl⟩
    have hl : (createdAs plainPolicy resourceWithoutStack "s2").locator = webLocator := rfl
    simp only [Moves, hl, if_true]
    exact .inr ⟨⟨_, rfl, rfl⟩, rfl⟩

/-- After the id of the second stack was not stored, the next pass finds the first stack deleted and
creates a third one. -/
theorem created_again :
    ¬ ∀ (l : Locator) (past : List Step) (s s₁ s₂ : Store) (inputs : StackInputs) (id : String)
        (m : Remote) (p : Policy) (log : Log) (result : Except Error Outcome),
        Reached l past s → LosesCreate l s inputs id s₁ → m.Shows inputs.stack id →
        (Step.pass m p log result).Takes l s₁ s₂ →
        ∀ inputs₂ onFailure, .createStack inputs₂ onFailure ∈ log.calls →
          inputs₂.stack ≠ inputs.stack := by
  intro h
  have href : resourceWithoutStack.stackRef = "s1" := by decide
  have hname : resourceWithoutStack.stackName = "default-web" := by decide +kernel
  have hfirst := Reached.step reached_birth (takes_creatingLog (m := onlyStack deletedStack (by decide))
    (.error (.stackNotFound newResource.stackRef)) "s1" (by decide) rfl rfl (by decide)
    (by decide) (.inl ⟨_, rfl, rfl⟩) (fun _ => by decide))
  have hshows : bothStacks.Shows
      (plainPolicy.inputs resourceWithoutStack (.body "t") resourceWithoutStack.stackName).stack
      "s2" := by
    rw [hname]
    exact ⟨secondStack, rfl, rfl, by decide, by decide⟩
  have hthird := takes_creatingLog (m := bothStacks) (r := resourceWithoutStack)
    (.ok deletedStack) "s3" (by decide) rfl rfl (by decide) (by decide)
    (.inr ⟨_, rfl, .inl (by decide)⟩) (by rw [href]; rfl)
  exact h _ _ _ _ _ _ _ _ _ _ _ (.step hfirst takes_observingLog) losesCreate_unstoredLog hshows
    hthird _ _ (.tail _ (.tail _ (.head _))) rfl

end Course
end StackKeeper
