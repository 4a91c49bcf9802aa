import StackKeeper.Proofs.Course
import StackKeeper.Proofs.Observation
import StackKeeper.Proofs.PassEnding
import StackKeeper.Store.Request
/-!
# Finalizing and the stack that is left

A pass over a marked resource ends finalized once its stack is gone. It looks the stack up, unless
the recorded status says that it was deleted. What is recorded can be about another stack than the
one whose id is recorded: a pass that finds the stack deleted creates another one, records the new
id, and leaves the status as it is until the next observation.

Results:
* `deletion_seen_or_created_over`: where the recorded status of a deleted stack comes from.
* `gone_or_recreated_of_finalized`: what a pass that ends finalized leaves behind.
-/
namespace StackKeeper.Course
open Store Pass Follow Refresh

variable {l : Locator} {past : List Step} {s s' : Store} {m : Remote} {p : Policy} {log : Log}
  {id : String}

/-- What the provisioning API shows at a step of the operator. -/
def Step.remote? : Step → Option Remote
  | .pass m _ _ _ => some m
  | .tick m _ _ _ _ => some m
  | _ => none

/-- The stack with the id was shown as deleted at some step. -/
def SeenDeleted (past : List Step) (id : String) : Prop :=
  ∃ step ∈ past, ∃ m shown, step.remote? = some m ∧ m.look id = some shown ∧
    shown.isDeleted = true

/-- The stack with the id was created in a pass that had read the status of a deleted stack. -/
def CreatedOver (l : Locator) (past : List Step) (id : String) : Prop :=
  ∃ m p log result r inputs onFailure, Step.pass m p log result ∈ past ∧
    ⟨.getResource l, .ok r⟩ ∈ log ∧ r.status.stackStatus = Lifecycle.deleteComplete ∧
    ⟨.createStack inputs onFailure, .ok id⟩ ∈ log

/-- A recorded deletion is that of the stack whose id is recorded, or the stack was created over it. -/
def DeletionKnown (l : Locator) (past : List Step) (st : Status) : Prop :=
  st.stackStatus = Lifecycle.deleteComplete →
    SeenDeleted past st.stackId ∨ CreatedOver l past st.stackId

theorem DeletionKnown.later {st : Status} (h : DeletionKnown l past st) (step : Step) :
    DeletionKnown l (step :: past) st := by
  intro hst
  rcases h hst with ⟨d, hd, hs⟩ | ⟨m, p, log, result, r, inputs, onFailure, hd, hs⟩
  · exact .inl ⟨d, List.mem_cons_of_mem _ hd, hs⟩
  · exact .inr ⟨m, p, log, result, r, inputs, onFailure, List.mem_cons_of_mem _ hd, hs⟩

/-- What is merged at a step is shown at it, by its id. -/
theorem deletionKnown_merge {step : Step} {st : Status} {ref : String} {shown : RemoteStack}
    {members : List Member} (hstep : step.remote? = some m) (hlook : m.look ref = some shown) :
    DeletionKnown l (step :: past) (st.merge shown members) := by
  intro hst
  obtain ⟨hne, hid⟩ := m.sameById ref shown hlook
  have hdel : shown.isDeleted = true := by
    simp only [RemoteStack.isDeleted, beq_iff_eq]
    exact hst
  rw [Status.stackId_merge, if_neg hne]
  exact .inl ⟨step, List.mem_cons_self, m, shown, hstep, hid, hdel⟩

theorem deletionKnown_of_written {r w : Resource} {result : Except Error Outcome}
    (hr : ⟨.getResource l, .ok r⟩ ∈ log) (hst : DeletionKnown l past r.status)
    (ha : ∀ e ∈ log, m.Answers e) (hw : Written p r log w) :
    DeletionKnown l (Step.pass m p log result :: past) w.status := by
  cases hw with
  | submitted => exact hst.later _
  | created inputs onFailure id hc =>
    intro hdel
    exact .inr ⟨m, p, log, result, r, inputs, onFailure, List.mem_cons_self, hr, hdel, hc⟩
  | observed shown members hs =>
    exact deletionKnown_merge rfl (ha ⟨.getStack r.stackRef, .ok shown⟩ hs)
  | confirmed shown members hs =>
    exact deletionKnown_merge rfl (ha ⟨.getStack r.stackRef, .ok shown⟩ hs)

theorem deletionKnown_step {step : Step} (h : s.Holds l (DeletionKnown l past))
    (hs : step.Takes l s s') : s'.Holds l (DeletionKnown l (step :: past)) := by
  cases step with
  | pass m p log result =>
    obtain ⟨hran, ha, hc⟩ := hs
    refine holds_of_pass (passLog_of_ran hran) hc h (fun st hst => hst.later _) ?_
    intro r w hr hst hw
    exact deletionKnown_of_written hr hst ha hw
  | tick m secs entries log summary =>
    obtain ⟨hran, ha, hc⟩ := hs
    have hlater : s.Holds l (DeletionKnown l (Step.tick m secs entries log summary :: past)) :=
      fun r hr => ⟨(h r hr).1, (h r hr).2.later _⟩
    refine holds_of_tick hran ha hc hlater ?_
    intro st ref shown members hlook _
    exact deletionKnown_merge rfl hlook
  | request r =>
    obtain ⟨hl, hu⟩ := hs
    exact holds_of_request hl hu fun r hr => ⟨(h r hr).1, (h r hr).2.later _⟩
  | birth =>
    intro r hr
    obtain ⟨hl, hst⟩ := hs.2 r hr
    refine ⟨hl, fun hdel => ?_⟩
    rw [hst] at hdel
    exact absurd hdel (by decide)
  | elsewhere log =>
    exact Holds.of_get (fun r hr => ⟨(h r hr).1, (h r hr).2.later _⟩) hs

theorem deletion_seen_or_created_over (h : Reached l past s) :
    s.Holds l (DeletionKnown l past) := by
  induction h with
  | start h => exact fun r hr => absurd hr (h r)
  | step h hs ih => exact deletionKnown_step ih hs

/-! ## Passes that end finalized -/

theorem isGone_of_foundGone {r : Resource} (h : FoundGone r log) (ha : ∀ e ∈ log, m.Answers e) :
    m.IsGone r.stackRef := by
  intro shown hlook
  rcases h with ⟨e, he, hn⟩ | ⟨shown', hs, hd⟩
  · have hnone : m.look r.stackRef = none := ha ⟨.getStack r.stackRef, .error e⟩ he hn
    cases hlook.symm.trans hnone
  · have hsome : m.look r.stackRef = some shown' := ha ⟨.getStack r.stackRef, .ok shown'⟩ hs
    cases hlook.symm.trans hsome
    exact hd

/-- When a pass ends finalized, the stack of its resource is gone, unless a deletion is recorded that
is not that of the stack any more: the stack was deleted once and has come back under its id, or it
was created by a pass that had read a recorded deletion. -/
theorem gone_or_recreated_of_finalized (h : Reached l past s)
    (hp : (Step.pass m p log (.ok .finalized)).Takes l s s') :
    ∃ r, s.get l = .ok r ∧ (m.IsGone r.stackRef ∨
      r.status.stackStatus = Lifecycle.deleteComplete ∧
        (SeenDeleted past r.status.stackId ∨ CreatedOver l past r.status.stackId)) := by
  obtain ⟨hran, ha, hc⟩ := hp
  obtain ⟨r, rest, rfl, hfound⟩ := foundGone_of_passLog (passLog_of_ran hran)
  have hget : s.get l = .ok r := get_of_chain hc
  refine ⟨r, hget, ?_⟩
  rcases hfound with hdel | hgone
  · exact .inr ⟨hdel, (deletion_seen_or_created_over h r hget).2 hdel⟩
  · exact .inl (isGone_of_foundGone hgone ha)

/-! ## A stack that is left standing -/

def deletedStack : RemoteStack :=
  ⟨"s1", "default-web", "DELETE_COMPLETE", none, none, TextMap.empty, Policy.ownershipTags "u", none⟩

def secondStack : RemoteStack :=
  ⟨"s2", "default-web", "CREATE_COMPLETE", none, none, TextMap.empty, Policy.ownershipTags "u", none⟩

def resourceWithFirst : Resource := createdAs plainPolicy newResource "s1"

/-- The resource after the deletion of its first stack was observed. -/
def resourceWithoutStack : Resource := merged resourceWithFirst deletedStack []

def resourceWithSecond : Resource := createdAs plainPolicy resourceWithoutStack "s2"

def leavingResource : Resource :=
  resourceWithSecond.marked ⟨2026, 1, 1, 0, 0, 0, 0, by decide, by decide⟩

def observingLog : Log :=
  [⟨.getResource webLocator, .ok resourceWithFirst⟩, ⟨.getStack "s1", .ok deletedStack⟩,
    ⟨.getMembers "s1", .ok []⟩, ⟨.updateStatus resourceWithoutStack, .ok ()⟩, ⟨.unfollow "s1", ()⟩]

theorem takes_observingLog :
    (Step.tick (onlyStack deletedStack (by decide)) 30 [("s1", webLocator)] observingLog
      ⟨1, 1, 0⟩).Takes webLocator (webStore (Document.text resourceWithFirst))
        (webStore (Document.text resourceWithoutStack)) := by
  refine ⟨?_, ?_, ?_⟩
  · have hrefresh := RefreshLog.written (r := resourceWithFirst) (s := deletedStack) []
      (by decide)
    have hlook : LookLog "s1" webLocator observingLog (.ok (.stopped .terminal)) :=
      .settled resourceWithFirst deletedStack (by decide) hrefresh
    exact ran_lookAtAll_cons.mpr ⟨_, _, [], hlook, ⟨rfl, rfl⟩, rfl⟩
  · simp [observingLog, Remote.Answers, onlyStack, deletedStack]
  · exact ⟨_, moves_read_webStore (by decide), _, rfl, _, rfl, _,
      moves_write_webStore (by decide) rfl rfl rfl, _, rfl, rfl⟩

theorem takes_request :
    (Step.request leavingResource).Takes webLocator
      (webStore (Document.text resourceWithSecond)) (webStore (Document.text leavingResource)) := by
  refine ⟨rfl, ?_⟩
  have hrel : isReleased (revise resourceWithSecond leavingResource) = false := by decide
  have hupdate : (webStore (Document.text resourceWithSecond)).update leavingResource =
      (.ok (), webStore (Document.text leavingResource)) :=
    update_webStore (by decide) rfl rfl rfl hrel
  exact congrArg Prod.snd hupdate

def leavingLog : Log :=
  [⟨.getResource webLocator, .ok leavingResource⟩,
    ⟨.updateResource leavingResource.removeStackFinalizers, .ok ()⟩]

theorem takes_leavingLog : ∃ s',
    (Step.pass (onlyStack secondStack (by decide)) plainPolicy leavingLog (.ok .finalized)).Takes
      webLocator (webStore (Document.text leavingResource)) s' := by
  have hget : (webStore (Document.text leavingResource)).get webLocator = .ok leavingResource :=
    get_webStore (by decide)
  have hrel : isReleased (revise leavingResource leavingResource.removeStackFinalizers) = true := by
    decide
  rcases update_of_get (r := leavingResource.removeStackFinalizers) hget rfl rfl rfl with
    ⟨-, s', hs', -⟩ | ⟨hrel', -⟩
  · refine ⟨s', ?_, ?_, ?_⟩
    · have hfinal := FinalizeLog.recorded (p := plainPolicy) (r := leavingResource) rfl
        (.released (.ok ()) (.inl rfl))
      exact (PassLog.read leavingResource (.finalizing rfl (by decide) hfinal)).ran
    · simp [leavingLog, Remote.Answers]
    · have hl : leavingResource.removeStackFinalizers.locator = webLocator := rfl
      refine ⟨_, moves_read_webStore (by decide), s', ?_, rfl⟩
      simp only [Moves, hl, if_true]
      exact .inl hs'
  · rw [hrel] at hrel'
    cases hrel'

/-- The steps up to the request for deletion, latest first. -/
def orphaningSteps : List Step :=
  [.request leavingResource,
    .pass (onlyStack deletedStack (by decide)) plainPolicy
      (creatingLog resourceWithoutStack (.ok deletedStack) "s2") (.ok .created),
    .tick (onlyStack deletedStack (by decide)) 30 [("s1", webLocator)] observingLog ⟨1, 1, 0⟩,
    .pass (onlyStack deletedStack (by decide)) plainPolicy
      (creatingLog newResource (.error (.stackNotFound newResource.stackRef)) "s1") (.ok .created),
    .birth]

theorem reached_orphaningSteps :
    Reached webLocator orphaningSteps (webStore (Document.text leavingResource)) := by
  have hshown : resourceWithoutStack.stackRef = "s1" := by decide
  have hfirst := Reached.step reached_birth (takes_creatingLog (m := onlyStack deletedStack (by decide))
    (.error (.stackNotFound newResource.stackRef)) "s1" (by decide) rfl rfl (by decide)
    (by decide) (.inl ⟨_, rfl, rfl⟩) (fun _ => by decide))
  have hseen := Reached.step hfirst takes_observingLog
  have hsecond := Reached.step hseen (takes_creatingLog (m := onlyStack deletedStack (by decide))
    (.ok deletedStack) "s2" (by decide) rfl rfl (by decide) (by decide)
    (.inr ⟨_, rfl, .inl (by decide)⟩) (by rw [hshown]; rfl))
  exact .step hsecond takes_request

theorem finalized_after_recreation :
    Reached webLocator orphaningSteps (webStore (Document.text leavingResource)) ∧
      ∃ r, (webStore (Document.text leavingResource)).get webLocator = .ok r ∧
        ((onlyStack secondStack (by decide)).IsGone r.stackRef ∨
          r.status.stackStatus = Lifecycle.deleteComplete ∧
            (SeenDeleted orphaningSteps r.status.stackId ∨
              CreatedOver webLocator orphaningSteps r.status.stackId)) := by
  obtain ⟨s', hs'⟩ := takes_leavingLog
  exact ⟨reached_orphaningSteps, gone_or_recreated_of_finalized reached_orphaningSteps hs'⟩

/-- The pass that ends finalized leaves the second stack standing. -/
theorem finalized_beside_standing_stack :
    ¬ ∀ (l : Locator) (past : List Step) (s s' : Store) (m : Remote) (p : Policy) (log : Log),
        Reached l past s → (Step.pass m p log (.ok .finalized)).Takes l s s' →
        ∃ r, s.get l = .ok r ∧ m.IsGone r.stackRef := by
  intro h
  obtain ⟨s', hs'⟩ := takes_leavingLog
  obtain ⟨r, hr, hgone⟩ := h _ _ _ _ _ _ _ reached_orphaningSteps hs'
  rw [get_webStore (by decide)] at hr
  cases hr
  have hstands : (onlyStack secondStack (by decide)).look leavingResource.stackRef =
      some secondStack := by
    have href : leavingResource.stackRef = "s2" := by decide +kernel
    rw [href]
    rfl
  exact absurd (hgone secondStack hstands) (by decide +kernel)

end StackKeeper.Course
