import StackKeeper.Proofs.Orphans
import StackKeeper.Proofs.Standing
import StackKeeper.Proofs.Upkeep
/-!
# Removing a marked resource

A marked resource goes through three phases: a pass asks for the stack to be deleted, passes and ticks
wait while that is under way, and the next pass after the stack is gone removes the finalizers. What
passes and ticks go by is the recorded status, into which a tick may merge what it sees of the stack at
any time; each phase has its own invariant for it (`Leaving`, `Left`).

Results:
* `deleting_of_pass`: the first pass asks for the deletion.
* `leaving_of_step`: nothing is called for and the finalizers stay while it is under way.
* `finalized_of_pass`: the pass after the stack is gone.
* `deleted_once_and_released`: the three phases together.
-/
namespace StackKeeper

/-- The stack is shown under the reference, as ours and as being deleted. -/
def Remote.Removes (m : Remote) (ref : String) (b : RemoteStack) : Prop :=
  ∃ b', m.look ref = some b' ∧ b'.id = b.id ∧ b'.isControlled = true ∧
    b'.status = Lifecycle.deleteInProgress

/-- The finalizers that are not the operator's, in order. -/
def Resource.foreignFinalizers (r : Resource) : List String :=
  r.metadata.finalizers.filter fun f => !isStackFinalizer f

namespace Course
open Store Pass Follow Refresh

variable {l : Locator} {s s' : Store} {m : Remote} {p : Policy} {log : Log} {r r' : Resource}
  {b : RemoteStack} {result : Except Error Outcome} {step : Step} {steps : List Step}

/-- The calls for changes of remote stacks that a pass or a tick makes. -/
def Step.mutations : Step → List Call
  | .pass _ _ log _ | .tick _ _ _ log _ => log.mutations
  | _ => []

/-- The deletion of the resource was requested, and its stack stands, is ours, and is not being deleted
yet. -/
structure Removable (l : Locator) (r : Resource) (b : RemoteStack) (m : Remote) : Prop where
  own : r.locator = l
  marked : r.isMarked = true
  held : r.hasStackFinalizer = true
  unrecorded : r.status.stackStatus ≠ Lifecycle.deleteComplete
  found : m.look r.stackRef = some b
  owned : b.isControlled = true
  standing : b.isDeleted = false
  resting : b.status ≠ Lifecycle.deleteInProgress

/-! ## The request for the deletion -/

theorem deleting_of_pass (hr : Removable l r b m) (hget : s.get l = .ok r) (hwet : p.dryRun = false)
    (h : (Step.pass m p log result).Takes l s s') (hs : ∀ e ∈ log, e.Succeeds) :
    result = .ok .deleting ∧ log.mutations = [.deleteStack b.id] ∧ s'.get l = .ok r := by
  obtain ⟨rest, rfl, hlog, hc⟩ := resourceLog_of_takes h hget hs
  obtain ⟨-, ha, -⟩ := h
  rw [List.forall_mem_cons] at ha hs
  have hown : s.Owns l := fun r' hr' => by
    cases hget.symm.trans hr'
    exact hr.own
  cases hlog with
  | idle hm hf => cases hr.held.symm.trans hf
  | settling hm hf h | entering hm hf answer => cases hr.marked.symm.trans hm
  | finalizing hm hf h =>
    cases standingLog_of_finalizeLog h ha.2 hr.found hr.unrecorded hr.standing hr.owned with
    | unseen e he => simp [he] at hs
    | dryRun hd => cases hwet.symm.trans hd
    | lost hd e he => simp [he] at hs
    | atWork hd hst => exact absurd hst hr.resting
    | refused hd hst e => simp at hs
    | accepted hd hst =>
      exact ⟨rfl, rfl, get_of_unwritten hown hc hget (by simp [Event.WritesNothing])⟩

/-! ## While the deletion is under way -/

/-- A pass or a tick while the stack is being deleted; no other stack is followed for the resource. -/
def Step.DuringRemoval (l : Locator) (ref : String) (b : RemoteStack) : Step → Prop
  | .pass m _ _ _ => m.Removes ref b
  | .tick m _ entries _ _ => m.Removes ref b ∧ ∀ entry ∈ entries, entry.2 = l → entry.1 = b.id
  | .elsewhere _ => True
  | _ => False

/-- The resource as it was, but for a status that leads to the stack and records no deletion. -/
structure Leaving (r : Resource) (b : RemoteStack) (r' : Resource) : Prop where
  same : r' = r.withStatus r'.status
  ref : r'.status.stackId = r.status.stackId ∨ r'.status.stackId = b.id
  unrecorded : r'.status.stackStatus ≠ Lifecycle.deleteComplete

theorem stackRef_withStatus {st : Status} (hid : b.id ≠ "")
    (h : st.stackId = r.status.stackId ∨ st.stackId = b.id) :
    (r.withStatus st).stackRef = r.stackRef ∨ (r.withStatus st).stackRef = b.id := by
  have hst : (r.withStatus st).status.stackId = st.stackId := rfl
  rw [Resource.stackRef, hst]
  rcases h with h | h
  · exact .inl (by rw [h]; rfl)
  · exact .inr (by rw [h, if_neg hid])

/-- A stack that is being deleted is found through the resource. -/
theorem Leaving.look (h : Leaving r b r') (hm : m.Removes r.stackRef b) : m.Removes r'.stackRef b := by
  obtain ⟨b', hlook, hid, howned, hst⟩ := hm
  obtain ⟨hne, hself⟩ := m.sameById _ _ hlook
  refine ⟨b', ?_, hid, howned, hst⟩
  rcases stackRef_withStatus (r := r) (hid ▸ hne) h.ref with href | href
  · rw [h.same, href, hlook]
  · rw [h.same, href, ← hid, hself]

theorem leaving_merge {b' : RemoteStack} (hr : r' = r.withStatus r'.status) (hid : b'.id = b.id)
    (hne : b'.id ≠ "") (hst : b'.status = Lifecycle.deleteInProgress) (st : Status)
    (members : List Member) : Leaving r b (r'.withStatus (st.merge b' members)) := by
  refine ⟨by rw [hr]; rfl, .inr ?_, ?_⟩
  · show (st.merge b' members).stackId = b.id
    rw [Status.stackId_merge, if_neg hne, hid]
  · show b'.status ≠ Lifecycle.deleteComplete
    rw [hst]
    decide

/-- A pass that finds the stack being deleted waits. -/
theorem waiting_of_resourceLog (hmarked : r.isMarked = true) (hheld : r.hasStackFinalizer = true)
    (hr : Leaving r b r') (h : ResourceLog p r' log result) (ha : ∀ e ∈ log, m.Answers e)
    (hm : m.Removes r.stackRef b) :
    log.mutations = [] ∧ ∀ e ∈ log, e.WritesNothing := by
  obtain ⟨b', hlook, -, howned, hst⟩ := hr.look hm
  have hmarked' : r'.isMarked = true := by rw [hr.same]; exact hmarked
  have hheld' : r'.hasStackFinalizer = true := by rw [hr.same]; exact hheld
  have hstands : b'.isDeleted = false := by
    rw [RemoteStack.isDeleted, hst]
    decide
  cases h with
  | idle hm hf => cases hheld'.symm.trans hf
  | settling hm hf h | entering hm hf answer => cases hmarked'.symm.trans hm
  | finalizing hm hf h =>
    cases standingLog_of_finalizeLog h ha hlook hr.unrecorded hstands howned with
    | unseen e he | dryRun hd | lost hd e he | atWork hd hs =>
      exact ⟨rfl, by simp [Event.WritesNothing]⟩
    | refused hd hs e | accepted hd hs => exact absurd hst hs

/-- A resource is stored under the locator, which is its own, and is as given. -/
def Keeping (l : Locator) (R : Resource → Prop) (s : Store) : Prop :=
  ∃ r, s.get l = .ok r ∧ r.locator = l ∧ R r

theorem Keeping.carries {R : Resource → Prop} (h : Keeping l R s) : s.Carries l R := by
  obtain ⟨r, hr, hown, hR⟩ := h
  intro r' hr'
  cases hr.symm.trans hr'
  exact ⟨hown, hR⟩

/-- A tick keeps what merging the stacks that are followed for the resource keeps. -/
theorem Keeping.tick {R : Resource → Prop} {secs : Nat} {entries : List (String × Locator)}
    {total : TickSummary} (hs : Keeping l R s)
    (h : (Step.tick m secs entries log total).Takes l s s')
    (hmerge : ∀ entry ∈ entries, entry.2 = l → ∀ r r₀ shown members,
      m.look entry.1 = some shown → R r → R r₀ → R (r.withStatus (r₀.status.merge shown members))) :
    Keeping l R s' := by
  obtain ⟨hran, ha, hc⟩ := h
  obtain ⟨r, hr, -, -⟩ := id hs
  obtain ⟨r', hr'⟩ := remains_of_chain hs.carries.owns hc hr fun w => undeclared_of_tick hran
  have hshows : ∀ entry ∈ entries, entry.2 = l → ∀ r r₀ shown members,
      ⟨.getStack entry.1, .ok shown⟩ ∈ log → R r → R r₀ →
      R (r.withStatus (r₀.status.merge shown members)) :=
    fun entry he hl r r₀ shown members hshown =>
      hmerge entry he hl r r₀ shown members (ha ⟨.getStack entry.1, .ok shown⟩ hshown)
  obtain ⟨hown, hR⟩ := carries_of_tick hran hc hs.carries hshows r' hr'
  exact ⟨r', hr', hown, hR⟩

theorem Keeping.elsewhere {R : Resource → Prop} (hs : Keeping l R s) (h : s'.get l = s.get l) :
    Keeping l R s' := by
  obtain ⟨r, hr, hown, hR⟩ := hs
  exact ⟨r, h.trans hr, hown, hR⟩

theorem leaving_of_step (hr : Removable l r b m) (hs : Keeping l (Leaving r b) s)
    (h : step.Takes l s s') (hstep : step.DuringRemoval l r.stackRef b) :
    Keeping l (Leaving r b) s' ∧ step.mutations = [] := by
  cases step with
  | request w => exact hstep.elim
  | birth => exact hstep.elim
  | elsewhere log => exact ⟨hs.elsewhere h, rfl⟩
  | tick m' secs entries log summary =>
    obtain ⟨⟨b', hlook, hid, -, hst⟩, hentries⟩ := hstep
    obtain ⟨hne, hself⟩ := m'.sameById _ _ hlook
    refine ⟨hs.tick h fun entry he hl r₁ r₀ shown members hshown hr₁ _ => ?_,
      mutations_lookAtAll h.1⟩
    rw [hentries entry he hl, ← hid, hself] at hshown
    cases hshown
    exact leaving_merge hr₁.same hid hne hst _ _
  | pass m' p log result =>
    obtain ⟨hran, ha, hc⟩ := h
    obtain ⟨r', hr', hl, hleaving⟩ := id hs
    obtain ⟨hmut, hwrite⟩ : log.mutations = [] ∧ ∀ e ∈ log, e.WritesNothing := by
      cases passLog_of_ran hran with
      | gone e he | unread e he => exact ⟨rfl, by simp [Event.WritesNothing]⟩
      | read r₁ h =>
        rw [List.forall_mem_cons] at ha
        obtain ⟨hmut, hwrite⟩ := waiting_of_resourceLog hr.marked hr.held
          (hs.carries r₁ (get_of_chain hc)).2 h ha.2 hstep
        exact ⟨hmut, List.forall_mem_cons.mpr ⟨by simp [Event.WritesNothing], hwrite⟩⟩
    exact ⟨⟨r', get_of_unwritten hs.carries.owns hc hr' hwrite, hl, hleaving⟩, hmut⟩

/-! ## Once the stack is gone -/

/-- A tick once the stack is gone; no other stack is followed for the resource. -/
def Step.AfterRemoval (l : Locator) (b : RemoteStack) : Step → Prop
  | .tick m _ entries _ _ => m.IsGone b.id ∧ ∀ entry ∈ entries, entry.2 = l → entry.1 = b.id
  | .elsewhere _ => True
  | _ => False

/-- The resource as it was, but for a status that records the deletion or leads to the stack. -/
structure Left (r : Resource) (b : RemoteStack) (r' : Resource) : Prop where
  same : r' = r.withStatus r'.status
  known : r'.status.stackStatus = Lifecycle.deleteComplete ∨
    r'.status.stackId = r.status.stackId ∨ r'.status.stackId = b.id

theorem Leaving.left (h : Leaving r b r') : Left r b r' := ⟨h.same, .inr h.ref⟩

theorem left_of_step (hs : Keeping l (Left r b) s) (h : step.Takes l s s')
    (hstep : step.AfterRemoval l b) :
    Keeping l (Left r b) s' ∧ step.mutations = [] := by
  cases step with
  | pass m' p log result => exact hstep.elim
  | request w => exact hstep.elim
  | birth => exact hstep.elim
  | elsewhere log => exact ⟨hs.elsewhere h, rfl⟩
  | tick m' secs entries log summary =>
    obtain ⟨hgone, hentries⟩ := hstep
    refine ⟨hs.tick h fun entry he hl r₁ r₀ shown members hshown hr₁ _ => ?_,
      mutations_lookAtAll h.1⟩
    rw [hentries entry he hl] at hshown
    have hdel : shown.status = Lifecycle.deleteComplete := by
      simpa [RemoteStack.isDeleted] using hgone shown hshown
    exact ⟨by rw [hr₁.same]; rfl, .inl hdel⟩

theorem revise_removeStackFinalizers (r : Resource) :
    revise r r.removeStackFinalizers = r.withFinalizers r.foreignFinalizers := by
  simp [revise, Resource.removeStackFinalizers, Resource.withFinalizers, Resource.foreignFinalizers]

theorem isReleased_withFinalizers (hmarked : r.isMarked = true) (finalizers : List String) :
    isReleased (r.withFinalizers finalizers) = true ↔ finalizers = [] := by
  have hmarked' : (r.withFinalizers finalizers).isMarked = true := hmarked
  rw [isReleased, hmarked', Bool.true_and, List.isEmpty_iff]
  rfl

/-- Releasing a stored resource removes the operator's finalizers, and the resource with the last
one. -/
theorem get_of_release {answer : Except Error Unit} (hget : s.get l = .ok r) (hl : r.locator = l)
    (hmarked : r.isMarked = true) (ha : Forgiven answer)
    (h : Moves l s ⟨.updateResource r.removeStackFinalizers, answer⟩ s') :
    s'.get l = if r.foreignFinalizers = [] then .error (.resourceNotFound l.text)
      else .ok (r.withFinalizers r.foreignFinalizers) := by
  have hl' : r.removeStackFinalizers.locator = l := hl
  simp only [Moves, hl', if_true] at h
  rcases h with h | ⟨⟨e, rfl, he⟩, -⟩
  · have hok : answer = .ok () := by
      rcases ha with rfl | ⟨e, rfl, he⟩
      · rfl
      · rcases update_of_get hget hl hl' rfl with
          ⟨-, s₁, hs₁, -⟩ | ⟨-, ⟨s₁, hs₁, -⟩ | ⟨reason, hs₁⟩⟩ <;> cases hs₁.symm.trans h
        cases he
    subst hok
    rw [(get_of_update_ok hget hl hl' h).2, revise_removeStackFinalizers]
    simp only [isReleased_withFinalizers hmarked]
  · rcases ha with ha | ⟨e', ha, he'⟩
    · cases ha
    · cases ha
      cases he.symm.trans he'

theorem finalized_of_pass (hr : Removable l r b m) (hs : Keeping l (Left r b) s) {m' : Remote}
    (h : (Step.pass m' p log result).Takes l s s') (href : m'.IsGone r.stackRef)
    (hid : m'.IsGone b.id) (hsucc : ∀ e ∈ log, e.Succeeds) :
    result = .ok .finalized ∧ log.mutations = [] ∧
      ∃ st, s.get l = .ok (r.withStatus st) ∧
        s'.get l = if r.foreignFinalizers = [] then .error (.resourceNotFound l.text)
          else .ok ((r.withStatus st).withFinalizers r.foreignFinalizers) := by
  obtain ⟨r', hr', hown, hsame, hknown⟩ := hs
  generalize hst : r'.status = st at hsame hknown
  subst hsame
  obtain ⟨rest, rfl, hlog, hc⟩ := resourceLog_of_takes h hr' hsucc
  obtain ⟨-, ha, -⟩ := h
  rw [List.forall_mem_cons] at ha hsucc
  have hmarked : (r.withStatus st).isMarked = true := hr.marked
  have hheld : (r.withStatus st).hasStackFinalizer = true := hr.held
  have hgone : st.stackStatus = Lifecycle.deleteComplete ∨
      m'.IsGone (r.withStatus st).stackRef := by
    refine hknown.imp_right fun hknown => ?_
    rcases stackRef_withStatus (m.sameById _ _ hr.found).1 hknown with hx | hx
    · exact hx ▸ href
    · exact hx ▸ hid
  cases hlog with
  | idle hm hf => cases hheld.symm.trans hf
  | settling hm hf h | entering hm hf answer => cases hmarked.symm.trans hm
  | finalizing hm hf h =>
    obtain ⟨hres, looks, answer, hf, hlooks, rfl⟩ :=
      released_of_finalizeLog h ha.2 hsucc.2 hgone
    have hlast : Moves l s ⟨.updateResource (r.withStatus st).removeStackFinalizers, answer⟩ s' := by
      rcases hlooks with rfl | ⟨x, rfl⟩
      · obtain ⟨s₁, h₁, rfl⟩ := hc
        exact h₁
      · obtain ⟨_, rfl, s₁, h₁, rfl⟩ := hc
        exact h₁
    refine ⟨hres, ?_, st, hr', get_of_release hr' hown hmarked hf hlast⟩
    rcases hlooks with rfl | ⟨x, rfl⟩ <;> rfl

/-! ## The whole removal -/

/-- Steps that keep an invariant and call for no changes of remote stacks keep it all along. -/
theorem quiet_of_chain {I : Store → Prop} {A : Step → Prop}
    (hstep : ∀ s step s', I s → step.Takes l s s' → A step → I s' ∧ step.mutations = [])
    (hs : I s) (h : Chain (Step.Takes l) s steps s') (hsteps : ∀ step ∈ steps, A step) :
    I s' ∧ steps.flatMap Step.mutations = [] := by
  induction steps generalizing s with
  | nil =>
    cases h
    exact ⟨hs, rfl⟩
  | cons step steps ih =>
    obtain ⟨s₁, hfirst, h⟩ := h
    rw [List.forall_mem_cons] at hsteps
    obtain ⟨hs₁, hmut⟩ := hstep s step s₁ hs hfirst hsteps.1
    obtain ⟨hs', hmuts⟩ := ih hs₁ h hsteps.2
    exact ⟨hs', by rw [List.flatMap_cons, hmut, hmuts, List.nil_append]⟩

/-- A marked resource whose stack stands is removed with exactly one delete call. The first pass makes
that call and ends deleting. However many passes and ticks there are while the stack is being deleted,
they make no such call and keep the resource with its finalizers. Once the stack is gone, the next pass
ends finalized, with ticks before it or without: the foreign finalizers stay in order, the two of the
operator are gone, and so is the document exactly if no foreign one is left. -/
theorem deleted_once_and_released {s₁ : Store} (hr : Removable l r b m) (hget : s.get l = .ok r)
    (hwet : p.dryRun = false) (hfirst : (Step.pass m p log result).Takes l s s₁)
    (hsucc : ∀ e ∈ log, e.Succeeds) :
    result = .ok .deleting ∧ log.mutations = [.deleteStack b.id] ∧ s₁.get l = .ok r ∧
      ∀ busy s₂, Chain (Step.Takes l) s₁ busy s₂ →
        (∀ step ∈ busy, step.DuringRemoval l r.stackRef b) →
        busy.flatMap Step.mutations = [] ∧ (∃ st, s₂.get l = .ok (r.withStatus st)) ∧
        ∀ ticks s₃ m' p' log' result' s₄, Chain (Step.Takes l) s₂ ticks s₃ →
          (∀ step ∈ ticks, step.AfterRemoval l b) →
          (Step.pass m' p' log' result').Takes l s₃ s₄ → m'.IsGone r.stackRef → m'.IsGone b.id →
          (∀ e ∈ log', e.Succeeds) →
          result' = .ok .finalized ∧ ticks.flatMap Step.mutations ++ log'.mutations = [] ∧
            ∃ st, s₄.get l = if r.foreignFinalizers = [] then .error (.resourceNotFound l.text)
              else .ok ((r.withStatus st).withFinalizers r.foreignFinalizers) := by
  obtain ⟨hres, hmut, hget₁⟩ := deleting_of_pass hr hget hwet hfirst hsucc
  refine ⟨hres, hmut, hget₁, fun busy s₂ hbusy hduring => ?_⟩
  have hleaving : Keeping l (Leaving r b) s₁ := ⟨r, hget₁, hr.own, rfl, .inl rfl, hr.unrecorded⟩
  obtain ⟨hs₂, hquiet⟩ := quiet_of_chain (fun _ _ _ => leaving_of_step hr) hleaving hbusy hduring
  obtain ⟨r₂, hr₂, hown₂, hleaving₂⟩ := id hs₂
  refine ⟨hquiet, ⟨r₂.status, by rw [hr₂, ← hleaving₂.same]⟩, ?_⟩
  intro ticks s₃ m' p' log' result' s₄ hticks hafter hlast href hid hsucc'
  have hleft : Keeping l (Left r b) s₂ := ⟨r₂, hr₂, hown₂, hleaving₂.left⟩
  obtain ⟨hs₃, hquiet'⟩ := quiet_of_chain (fun _ _ _ => left_of_step) hleft hticks hafter
  obtain ⟨hres', hmut', st, -, hget₄⟩ := finalized_of_pass hr hs₃ hlast href hid hsucc'
  exact ⟨hres', by rw [hquiet', hmut', List.nil_append], st, hget₄⟩

/-- A marked resource that holds both finalizers of the operator between two foreign ones. -/
def condemnedResource : Resource :=
  (newResource.withFinalizers ["backup/hold", legacyFinalizer, stackFinalizer, "audit/hold"]).marked
    ⟨2026, 3, 1, 12, 0, 0, 0, rfl, rfl⟩

def removingStack : RemoteStack := { secondStack with status := Lifecycle.deleteInProgress }

def removedStack : RemoteStack := { secondStack with status := Lifecycle.deleteComplete }

def waitingResource : Resource := merged condemnedResource removingStack []

/-- The resource with the deletion of its stack observed. -/
def bereftResource : Resource := merged waitingResource removedStack []

theorem stackRef_condemnedResource : condemnedResource.stackRef = "default-web" := by
  decide +kernel

theorem stackRef_waitingResource : waitingResource.stackRef = "s2" := by decide +kernel

theorem removable_condemnedResource :
    Removable webLocator condemnedResource secondStack (namedStack secondStack (by decide)) where
  own := rfl
  marked := rfl
  held := by decide
  unrecorded := by decide
  found := by rw [stackRef_condemnedResource]; rfl
  owned := by decide
  standing := by decide
  resting := by decide

def deletingLog : Log :=
  [⟨.getResource webLocator, .ok condemnedResource⟩,
    ⟨.getStack condemnedResource.stackRef, .ok secondStack⟩,
    ⟨.getStack condemnedResource.stackRef, .ok secondStack⟩, ⟨.deleteStack "s2", .ok ()⟩,
    ⟨.submit (condemnedResource.followRequest "s2"), ()⟩]

theorem takes_deletingLog :
    (Step.pass (namedStack secondStack (by decide)) plainPolicy deletingLog (.ok .deleting)).Takes
      webLocator (webStore (Document.text condemnedResource))
      (webStore (Document.text condemnedResource)) := by
  refine ⟨?_, ?_, ?_⟩
  · have hdelete := DeleteLog.accepted (p := plainPolicy) (r := condemnedResource) rfl secondStack
      (by decide) (by decide)
    exact (PassLog.read condemnedResource
      (.finalizing rfl (by decide) (.standing (by decide) secondStack (by decide) hdelete))).ran
  · simp [deletingLog, Remote.Answers, stackRef_condemnedResource, namedStack, secondStack]
  · exact ⟨_, moves_read_webStore (by decide), _, rfl, _, rfl, _, rfl, _, rfl, rfl⟩

/-- The calls of a look that records what it sees of the stack. -/
def seeingLog (r : Resource) (shown : RemoteStack) : Log :=
  [⟨.getResource webLocator, .ok r⟩, ⟨.getStack "s2", .ok shown⟩, ⟨.getMembers shown.id, .ok []⟩,
    ⟨.updateStatus (merged r shown []), .ok ()⟩]

theorem chain_seeingLog {shown : RemoteStack} (hg : r.metadata.generation ≤ maxGeneration)
    (hl : r.locator = webLocator) :
    Chain (Moves webLocator) (webStore (Document.text r)) (seeingLog r shown)
      (webStore (Document.text (merged r shown []))) :=
  ⟨_, moves_read_webStore hg, _, rfl, _, rfl, _, moves_write_webStore hg hl rfl rfl, rfl⟩

theorem takes_waitingTick :
    (Step.tick (namedStack removingStack (by decide)) 30 [("s2", webLocator)]
      (seeingLog condemnedResource removingStack) ⟨1, 0, 0⟩).Takes webLocator
      (webStore (Document.text condemnedResource)) (webStore (Document.text waitingResource)) := by
  refine ⟨?_, ?_, chain_seeingLog (by decide) rfl⟩
  · have hlook : LookLog "s2" webLocator (seeingLog condemnedResource removingStack)
        (.ok .inProgress) :=
      .atWork condemnedResource removingStack (by decide) (.written [] (by decide))
    exact ran_lookAtAll_cons.mpr ⟨_, _, [], hlook, ⟨rfl, rfl⟩, rfl⟩
  · simp [seeingLog, Remote.Answers, namedStack, removingStack, secondStack]

def waitingLog : Log :=
  [⟨.getResource webLocator, .ok waitingResource⟩,
    ⟨.getStack waitingResource.stackRef, .ok removingStack⟩,
    ⟨.getStack waitingResource.stackRef, .ok removingStack⟩,
    ⟨.submit (waitingResource.followRequest "s2"), ()⟩]

theorem takes_waitingLog :
    (Step.pass (namedStack removingStack (by decide)) plainPolicy waitingLog (.ok .handedOff)).Takes
      webLocator (webStore (Document.text waitingResource))
      (webStore (Document.text waitingResource)) := by
  refine ⟨?_, ?_, ?_⟩
  · have hdelete := DeleteLog.atWork (p := plainPolicy) (r := waitingResource) rfl removingStack
      (by decide) rfl
    exact (PassLog.read waitingResource
      (.finalizing rfl (by decide) (.standing (by decide) removingStack (by decide) hdelete))).ran
  · simp [waitingLog, Remote.Answers, stackRef_waitingResource, namedStack, removingStack,
      secondStack]
  · exact ⟨_, moves_read_webStore (by decide), _, rfl, _, rfl, _, rfl, rfl⟩

theorem takes_bereavingTick :
    (Step.tick (onlyStack removedStack (by decide)) 30 [("s2", webLocator)]
      (seeingLog waitingResource removedStack ++ [⟨.unfollow "s2", ()⟩]) ⟨1, 1, 0⟩).Takes webLocator
      (webStore (Document.text waitingResource)) (webStore (Document.text bereftResource)) := by
  refine ⟨?_, ?_, ?_⟩
  · have hlook : LookLog "s2" webLocator
        (seeingLog waitingResource removedStack ++ [⟨.unfollow "s2", ()⟩])
        (.ok (.stopped .terminal)) :=
      .settled waitingResource removedStack (by decide) (.written [] (by decide))
    exact ran_lookAtAll_cons.mpr ⟨_, _, [], hlook, ⟨rfl, rfl⟩, rfl⟩
  · simp [seeingLog, Remote.Answers, onlyStack, removedStack, secondStack]
  · exact chain_append.mpr ⟨_, chain_seeingLog (by decide) rfl, _, rfl, rfl⟩

def releasingLog : Log :=
  [⟨.getResource webLocator, .ok bereftResource⟩,
    ⟨.updateResource bereftResource.removeStackFinalizers, .ok ()⟩]

def remainingResource : Resource := revise bereftResource bereftResource.removeStackFinalizers

theorem takes_releasingLog :
    (Step.pass (onlyStack removedStack (by decide)) plainPolicy releasingLog (.ok .finalized)).Takes
      webLocator (webStore (Document.text bereftResource))
      (webStore (Document.text remainingResource)) := by
  have hrel : isReleased (revise bereftResource bereftResource.removeStackFinalizers) = false := by
    decide
  have hupdate : (webStore (Document.text bereftResource)).update
      bereftResource.removeStackFinalizers = (.ok (), webStore (Document.text remainingResource)) :=
    update_webStore (by decide) rfl rfl rfl hrel
  refine ⟨?_, ?_, _, moves_read_webStore (by decide), _, ?_, rfl⟩
  · have hfinal := FinalizeLog.recorded (p := plainPolicy) (r := bereftResource) rfl
      (.released (.ok ()) (.inl rfl))
    exact (PassLog.read bereftResource (.finalizing rfl (by decide) hfinal)).ran
  · simp [releasingLog, Remote.Answers]
  · have hl : bereftResource.removeStackFinalizers.locator = webLocator := rfl
    simp only [Moves, hl, if_true]
    exact .inl hupdate

/-- A tick and a pass wait for the deletion, another tick sees the end of it, and the foreign
finalizers are what is left. -/
theorem released_with_foreign_finalizers :
    Removable webLocator condemnedResource secondStack (namedStack secondStack (by decide)) ∧
      ∃ st, (webStore (Document.text remainingResource)).get webLocator =
        .ok ((condemnedResource.withStatus st).withFinalizers ["backup/hold", "audit/hold"]) := by
  have hget : (webStore (Document.text condemnedResource)).get webLocator = .ok condemnedResource :=
    get_webStore (by decide)
  obtain ⟨-, -, -, hrest⟩ := deleted_once_and_released removable_condemnedResource hget rfl
    takes_deletingLog (by simp [deletingLog, Event.Succeeds])
  have hremoves : (namedStack removingStack (by decide)).Removes condemnedResource.stackRef
      secondStack := by
    rw [stackRef_condemnedResource]
    exact ⟨removingStack, rfl, rfl, by decide, rfl⟩
  have hsecond : secondStack.id = "s2" := rfl
  obtain ⟨-, -, hrest⟩ := hrest
    [.tick (namedStack removingStack (by decide)) 30 [("s2", webLocator)]
        (seeingLog condemnedResource removingStack) ⟨1, 0, 0⟩,
      .pass (namedStack removingStack (by decide)) plainPolicy waitingLog (.ok .handedOff)] _
    ⟨_, takes_waitingTick, _, takes_waitingLog, rfl⟩
    (by simp [Step.DuringRemoval, hremoves, hsecond])
  have hname : (onlyStack removedStack (by decide)).IsGone condemnedResource.stackRef := by
    rw [stackRef_condemnedResource]
    intro shown hshown
    cases hshown
  have hid : (onlyStack removedStack (by decide)).IsGone "s2" := by
    intro shown hshown
    cases hshown
    decide
  obtain ⟨-, -, st, hst⟩ := hrest
    [.tick (onlyStack removedStack (by decide)) 30 [("s2", webLocator)]
      (seeingLog waitingResource removedStack ++ [⟨.unfollow "s2", ()⟩]) ⟨1, 1, 0⟩] _ _ _ _ _ _
    ⟨_, takes_bereavingTick, rfl⟩ (by simp [Step.AfterRemoval, hid, hsecond])
    takes_releasingLog hname hid (by simp [releasingLog, Event.Succeeds])
  exact ⟨removable_condemnedResource, st, hst⟩

end Course
end StackKeeper
