import StackKeeper.Proofs.Observation
import StackKeeper.Proofs.MutationGuard
import StackKeeper.Proofs.PassEnding
import StackKeeper.Proofs.Serving
import StackKeeper.Proofs.StoreAccess
/-!
# A second pass over an up-to-date resource

A pass that ends up to date leaves its observation and the hash of its inputs in the status. Whether
the next pass has something to do, with nothing changed at the API, is then a matter of the stack
alone: it is left in peace if it runs its inputs successfully and under its tags. Any other
settled stack is updated in every pass, for as long as the API finds nothing to update, and every
such pass writes the status it has read.

Results:
* `store_of_upToDate`: what a pass that ends up to date leaves in the store.
* `second_pass_idle_iff`: when the next pass makes no mutating call and no write.
-/
namespace StackKeeper.Pass
open Job Log Refresh

variable {p : Policy} {l : Locator} {api : Api} {r : Resource} {s : RemoteStack} {st st' : Store}
  {log : Log}

/-- The resource after an observation was merged and its inputs were recorded. -/
def observedAs (p : Policy) (r : Resource) (s : RemoteStack) (members : List Member) : Resource :=
  merged (submittedAs p r) s members

/-- A pass found the settled stack of a resource, and both are as they should be for an update. -/
structure Settled (p : Policy) (api : Api) (r : Resource) (t : Template) (s : RemoteStack)
    (members : List Member) : Prop where
  unmarked : r.isMarked = false
  held : r.hasFinalizer stackFinalizer = true
  template : r.spec.templateSource? = some t
  found : api.getStack r.stackRef = .ok s
  standing : s.isDeleted = false
  owned : s.isControlled = true
  terminal : Lifecycle.isTerminal s.status = true
  listed : api.getMembers s.id = .ok members
  /-- The stack is current, or the API finds nothing to update. -/
  idle : isCurrent p r s = true ∨ (p.dryRun = false ∧
    ∃ e, api.updateStack (p.inputs r t s.id) = .error e ∧ e.isNoUpdates = true)

/-- A write of the status of a resource that is stored can fail only in the file system. -/
theorem store_of_updateStatus (r' : Resource) {answer : Except Error Unit}
    (hget : st.get l = .ok r) (hown : r.locator = l) (hmeta : r'.metadata = r.metadata)
    (ha : Forgiven answer) (hs : st.updateStatus r' = (answer, st')) :
    answer = .ok () ∧ st'.get l = .ok (r.withStatus r'.status) := by
  have hl : r'.locator = l := by rw [← hown, Resource.locator, hmeta, Resource.locator]
  have huid : r.metadata.uid = r'.metadata.uid := by rw [hmeta]
  rcases Store.updateStatus_of_get hget hown hl huid with ⟨m, hm, hget'⟩ | ⟨reason, he⟩
  · rw [hm, Prod.mk.injEq] at hs
    obtain ⟨rfl, rfl⟩ := hs
    exact ⟨rfl, hget'⟩
  · rw [he, Prod.mk.injEq] at hs
    obtain ⟨rfl, rfl⟩ := hs
    rcases ha with ha | ⟨e, ha, hnot⟩
    · cases ha
    · cases ha
      cases hnot

/-- What a refresh leaves in the store, given that it did not fail. -/
theorem store_of_refreshLog {r' : Resource} {x : Resource × Bool}
    (h : RefreshLog r' s log (.ok x)) (hget : st.get l = .ok r) (hown : r.locator = l)
    (hmeta : r'.metadata = r.metadata) (hs : Chain Store.Serves st log st')
    (ha : ∀ e ∈ log, api.Serves e) :
    ∃ members, api.getMembers s.id = .ok members ∧
      ((x = (r', false) ∧ st' = st ∧ r'.status.isNews s members = false) ∨
        (x = (merged r' s members, true) ∧
          st'.get l = .ok (r.withStatus (r'.status.merge s members)))) := by
  cases h with
  | noNews members hn =>
    obtain ⟨_, rfl, rfl⟩ := hs
    exact ⟨members, (ha _ List.mem_cons_self).symm, .inl ⟨rfl, rfl, hn⟩⟩
  | written members hn =>
    obtain ⟨_, rfl, _, hw, rfl⟩ := hs
    obtain ⟨-, hget'⟩ := store_of_updateStatus (merged r' s members) hget hown hmeta (.inl rfl) hw
    exact ⟨members, (ha _ List.mem_cons_self).symm, .inr ⟨rfl, hget'⟩⟩
  | gone members hn e he =>
    obtain ⟨_, rfl, _, hw, rfl⟩ := hs
    obtain ⟨hx, -⟩ := store_of_updateStatus (merged r' s members) hget hown hmeta
      (.inr ⟨e, rfl, he⟩) hw
    cases hx

theorem submittedAs_of_appliedHash (h : r.status.appliedHash = Fingerprint.ofResource p r) :
    submittedAs p r = r := by
  rw [submittedAs, Resource.withAppliedHash, ← h]

theorem submittedAs_of_isCurrent (h : isCurrent p r s = true) : submittedAs p r = r := by
  simp only [isCurrent, Bool.and_eq_true, beq_iff_eq] at h
  exact submittedAs_of_appliedHash h.1.1

/-- A pass that ends up to date found the stack settled, with nothing to update, and leaves what it
observed and the hash of its inputs in the status. -/
theorem store_of_upToDate (hown : ∀ r, st.get l = .ok r → r.locator = l)
    (h : Ran (reconcile p l) log (.ok .upToDate)) (hs : Chain Store.Serves st log st')
    (ha : ∀ e ∈ log, api.Serves e) :
    ∃ r t s members, st.get l = .ok r ∧ Settled p api r t s members ∧
      st'.get l = .ok (observedAs p r s members) := by
  obtain ⟨r, s, rest, rfl, hm, hf, hdel, howned, hterm, hu⟩ :=
    upToDate_of_passLog (ran_reconcile_iff.mp h)
  obtain ⟨_, ⟨hget, rfl⟩, _, rfl, hs⟩ := hs
  have hget := hget.symm
  have hfound : api.getStack r.stackRef = .ok s :=
    (ha ⟨.getStack r.stackRef, .ok s⟩ (by simp)).symm
  have ha : ∀ e ∈ rest, api.Serves e := fun e he => ha e (by simp [he])
  obtain ⟨t, ht, ⟨hc, x, hrefresh⟩ | ⟨hc, hd, e, tail, he, rfl, hconfirm⟩⟩ :=
    upToDate_of_updateLog hu rfl
  · obtain ⟨members, hlist, hx⟩ := store_of_refreshLog hrefresh hget (hown r hget) rfl hs ha
    refine ⟨r, t, s, members, hget, ⟨hm, hf, ht, hfound, hdel, howned, hterm, hlist, .inl hc⟩, ?_⟩
    rw [observedAs, submittedAs_of_isCurrent hc]
    rcases hx with ⟨-, rfl, hn⟩ | ⟨-, hget'⟩
    · rw [merged, Status.merge_of_not_isNews hn]
      exact hget
    · exact hget'
  · obtain ⟨_, rfl, hs⟩ := hs
    have hupdate : api.updateStack (p.inputs r t s.id) = .error e :=
      (ha ⟨.updateStack (p.inputs r t s.id), .error e⟩ (by simp)).symm
    have ha : ∀ e ∈ tail, api.Serves e := fun e he => ha e (by simp [he])
    have hidle : isCurrent p r s = true ∨ (p.dryRun = false ∧
        ∃ e, api.updateStack (p.inputs r t s.id) = .error e ∧ e.isNoUpdates = true) :=
      .inr ⟨hd, e, hupdate, he⟩
    cases hconfirm with
    | written log r' hrefresh =>
      obtain ⟨members, hlist, ⟨hx, -⟩ | ⟨-, hget'⟩⟩ :=
        store_of_refreshLog hrefresh hget (hown r hget) rfl hs ha
      · cases hx
      · exact ⟨r, t, s, members, hget, ⟨hm, hf, ht, hfound, hdel, howned, hterm, hlist, hidle⟩, hget'⟩
    | rewritten log r' hrefresh answer hforgiven =>
      obtain ⟨m, hs, _, hw, rfl⟩ := chain_append.mp hs
      obtain ⟨members, hlist, ⟨hx, rfl, hn⟩ | ⟨hx, -⟩⟩ :=
        store_of_refreshLog hrefresh hget (hown r hget) rfl hs fun e he => ha e (by simp [he])
      · cases hx
        obtain ⟨-, hget'⟩ := store_of_updateStatus (submittedAs p r) hget (hown r hget) rfl
          hforgiven hw
        refine ⟨r, t, s, members, hget,
          ⟨hm, hf, ht, hfound, hdel, howned, hterm, hlist, hidle⟩, ?_⟩
        rw [observedAs, merged, Status.merge_of_not_isNews hn]
        exact hget'
      · cases hx

/-! ## The next pass -/

theorem stackRef_observedAs {members : List Member} (hfound : api.getStack r.stackRef = .ok s) :
    api.getStack (observedAs p r s members).stackRef = .ok s := by
  have hid : (observedAs p r s members).status.stackId =
      if s.id = "" then r.status.stackId else s.id := Status.stackId_merge _ _ _
  by_cases he : s.id = ""
  · rw [if_pos he] at hid
    have href : (observedAs p r s members).stackRef = r.stackRef := by
      rw [Resource.stackRef, hid]
      rfl
    rw [href, hfound]
  · rw [if_neg he] at hid
    have href : (observedAs p r s members).stackRef = s.id := by
      rw [Resource.stackRef, hid, if_neg he]
    rw [href, api.sameById _ _ hfound he]

theorem isCurrent_observedAs {members : List Member} :
    isCurrent p (observedAs p r s members) s = true ↔
      Lifecycle.isSuccessful s.status = true ∧ s.tags = p.effectiveTags r := by
  have hhash : (observedAs p r s members).status.appliedHash =
      Fingerprint.ofResource p (observedAs p r s members) := rfl
  have htags : p.effectiveTags (observedAs p r s members) = p.effectiveTags r := rfl
  rw [isCurrent, hhash, htags, beq_self_eq_true, Bool.true_and, Bool.and_eq_true, beq_iff_eq]

theorem calls_of_refreshLog {members : List Member} {x : Except Error (Resource × Bool)}
    (h : RefreshLog r s log x) (hlist : api.getMembers s.id = .ok members)
    (hn : r.status.isNews s members = false) (ha : ∀ e ∈ log, api.Serves e) :
    log.calls = [.getMembers s.id] ∧ x = .ok (r, false) := by
  have hanswer : ∀ answer, api.Serves ⟨.getMembers s.id, answer⟩ → answer = .ok members :=
    fun answer h => h.trans hlist
  cases h with
  | unlisted e => cases hanswer _ (ha ⟨.getMembers s.id, .error e⟩ (by simp))
  | noNews members' hn' => exact ⟨rfl, rfl⟩
  | written members' hn' =>
    cases hanswer _ (ha ⟨.getMembers s.id, .ok members'⟩ (by simp))
    rw [hn] at hn'
    cases hn'
  | gone members' hn' e he =>
    cases hanswer _ (ha ⟨.getMembers s.id, .ok members'⟩ (by simp))
    rw [hn] at hn'
    cases hn'
  | unwritten members' hn' e he =>
    cases hanswer _ (ha ⟨.getMembers s.id, .ok members'⟩ (by simp))
    rw [hn] at hn'
    cases hn'

theorem calls_of_confirmLog {members : List Member} {result : Except Error Outcome}
    (h : ConfirmLog p r s log result) (hlist : api.getMembers s.id = .ok members)
    (hn : r.status.isNews s members = false)
    (hhash : r.status.appliedHash = Fingerprint.ofResource p r) (ha : ∀ e ∈ log, api.Serves e) :
    log.calls = [.getMembers s.id, .updateStatus r] := by
  have hsub : submittedAs p r = r := submittedAs_of_appliedHash hhash
  cases h with
  | unlisted e log h =>
    rw [hsub] at h
    cases (calls_of_refreshLog h hlist hn ha).2
  | written log r' h =>
    rw [hsub] at h
    cases (calls_of_refreshLog h hlist hn ha).2
  | rewritten log r' h answer hforgiven =>
    rw [hsub] at h
    obtain ⟨hcalls, hx⟩ := calls_of_refreshLog h hlist hn fun e he => ha e (by simp [he])
    cases hx
    rw [calls_append, hcalls]
    rfl
  | unwritten log r' h e he =>
    rw [hsub] at h
    obtain ⟨hcalls, hx⟩ := calls_of_refreshLog h hlist hn fun e he => ha e (by simp [he])
    cases hx
    rw [calls_append, hcalls]
    rfl

/-- The calls of updating a stack for which the API finds nothing to update, when the observation
brings no news and the hash is recorded. -/
theorem calls_of_updateLog {t : Template} {members : List Member} {result : Except Error Outcome}
    (h : UpdateLog p r s log result) (ht : r.spec.templateSource? = some t)
    (hlist : api.getMembers s.id = .ok members) (hn : r.status.isNews s members = false)
    (hhash : r.status.appliedHash = Fingerprint.ofResource p r)
    (hidle : isCurrent p r s = true ∨ (p.dryRun = false ∧
      ∃ e, api.updateStack (p.inputs r t s.id) = .error e ∧ e.isNoUpdates = true))
    (ha : ∀ e ∈ log, api.Serves e) :
    (isCurrent p r s = true ∧ log.calls = [.getMembers s.id]) ∨
      (isCurrent p r s = false ∧ log.calls =
        [.updateStack (p.inputs r t s.id), .getMembers s.id, .updateStatus r]) := by
  cases hc : isCurrent p r s with
  | true =>
    left
    cases h with
    | noTemplate ht' => simp [ht] at ht'
    | current t' ht' hc' h => exact ⟨rfl, (calls_of_refreshLog h hlist hn ha).1⟩
    | dryRun t' ht' hc' hd => simp [hc] at hc'
    | accepted t' ht' hc' hd h => simp [hc] at hc'
    | confirmed t' ht' hc' hd e he h => simp [hc] at hc'
    | recreated t' ht' hc' hd e he h => simp [hc] at hc'
    | refused t' ht' hc' hd e hn' he => simp [hc] at hc'
  | false =>
    right
    obtain ⟨hd, e, hu, he⟩ := hidle.resolve_left (by simp [hc])
    have hanswer : ∀ answer, api.Serves ⟨.updateStack (p.inputs r t s.id), answer⟩ →
        answer = .error e := fun answer h => h.trans hu
    cases h with
    | noTemplate ht' => simp [ht] at ht'
    | current t' ht' hc' h => simp [hc] at hc'
    | dryRun t' ht' hc' hd' => simp [hd] at hd'
    | accepted t' ht' hc' hd' h =>
      obtain rfl : t' = t := Option.some.inj (ht'.symm.trans ht)
      cases hanswer _ (ha ⟨.updateStack (p.inputs r t' s.id), .ok ()⟩ (by simp))
    | confirmed t' ht' hc' hd' e' he' h =>
      obtain rfl : t' = t := Option.some.inj (ht'.symm.trans ht)
      refine ⟨rfl, ?_⟩
      rw [calls_cons, calls_of_confirmLog h hlist hn hhash fun e he => ha e (by simp [he])]
    | recreated t' ht' hc' hd' e' he' h =>
      obtain rfl : t' = t := Option.some.inj (ht'.symm.trans ht)
      cases hanswer _ (ha ⟨.updateStack (p.inputs r t' s.id), .error e'⟩ (by simp))
      rw [Error.isStackNotFound_of_isNoUpdates he] at he'
      cases he'
    | refused t' ht' hc' hd' e' hn' he' =>
      obtain rfl : t' = t := Option.some.inj (ht'.symm.trans ht)
      cases hanswer _ (ha ⟨.updateStack (p.inputs r t' s.id), .error e'⟩ (by simp))
      rw [he] at hn'
      cases hn'

/-- The calls of the pass after one that ended up to date. -/
theorem calls_of_second_pass {t : Template} {members : List Member} {result : Except Error Outcome}
    (hset : Settled p api r t s members) (hget : st.get l = .ok (observedAs p r s members))
    (h : Ran (reconcile p l) log result) (hs : Chain Store.Serves st log st')
    (ha : ∀ e ∈ log, api.Serves e) :
    (isCurrent p (observedAs p r s members) s = true ∧ log.calls =
        [.getResource l, .getStack (observedAs p r s members).stackRef, .getMembers s.id]) ∨
      (isCurrent p (observedAs p r s members) s = false ∧ log.calls =
        [.getResource l, .getStack (observedAs p r s members).stackRef,
          .updateStack (p.inputs r t s.id), .getMembers s.id,
          .updateStatus (observedAs p r s members)]) := by
  have hanswer : ∀ answer, api.Serves ⟨.getStack (observedAs p r s members).stackRef, answer⟩ →
      answer = .ok s := fun answer h => h.trans (stackRef_observedAs hset.found)
  have hm : (observedAs p r s members).isMarked = false := hset.unmarked
  have hf : (observedAs p r s members).hasFinalizer stackFinalizer = true := hset.held
  have hidle : isCurrent p (observedAs p r s members) s = true ∨ (p.dryRun = false ∧
      ∃ e, api.updateStack (p.inputs r t s.id) = .error e ∧ e.isNoUpdates = true) := by
    refine hset.idle.imp_left fun hc => isCurrent_observedAs.mpr ?_
    simp only [isCurrent, Bool.and_eq_true, beq_iff_eq] at hc
    exact ⟨hc.1.2, hc.2⟩
  cases ran_reconcile_iff.mp h with
  | gone e he =>
    obtain ⟨_, ⟨hg, -⟩, -⟩ := hs
    cases hg.trans hget
  | unread e he =>
    obtain ⟨_, ⟨hg, -⟩, -⟩ := hs
    cases hg.trans hget
  | read r' h =>
    obtain ⟨_, ⟨hg, -⟩, -⟩ := hs
    cases hg.trans hget
    cases h with
    | idle hm' hf' => simp [hm] at hm'
    | finalizing hm' hf' h => simp [hm] at hm'
    | entering hm' hf' answer => simp [hf] at hf'
    | settling hm' hf' h =>
      cases h with
      | unseen e he =>
        cases hanswer _ (ha ⟨.getStack (observedAs p r s members).stackRef, .error e⟩ (by simp))
      | absent e he h =>
        cases hanswer _ (ha ⟨.getStack (observedAs p r s members).stackRef, .error e⟩ (by simp))
      | foreign s' hs' h =>
        cases hanswer _ (ha ⟨.getStack (observedAs p r s members).stackRef, .ok s'⟩ (by simp))
        simp [hset.standing, hset.owned] at hs'
      | atWork s' hs' hc' ht' =>
        cases hanswer _ (ha ⟨.getStack (observedAs p r s members).stackRef, .ok s'⟩ (by simp))
        simp [hset.terminal] at ht'
      | settled s' hs' hc' ht' h =>
        cases hanswer _ (ha ⟨.getStack (observedAs p r s members).stackRef, .ok s'⟩ (by simp))
        rcases calls_of_updateLog h hset.template hset.listed (Status.isNews_merge _ _ _) rfl hidle
          (fun e he => ha e (by simp [he])) with ⟨hc, hcalls⟩ | ⟨hc, hcalls⟩
        · exact .inl ⟨hc, by rw [calls_cons, calls_cons, hcalls]⟩
        · exact .inr ⟨hc, by rw [calls_cons, calls_cons, hcalls]; rfl⟩

/-- When a pass ended up to date, and nothing changes at the API, the next pass makes no mutating
call and no write exactly if the stack is in a successful status and under the effective tags. -/
theorem second_pass_idle_iff {st₁ st₂ st₃ : Store} {log₁ log₂ : Log}
    {result : Except Error Outcome} (hown : ∀ r, st₁.get l = .ok r → r.locator = l)
    (h₁ : Ran (reconcile p l) log₁ (.ok .upToDate)) (hs₁ : Chain Store.Serves st₁ log₁ st₂)
    (ha₁ : ∀ e ∈ log₁, api.Serves e) (h₂ : Ran (reconcile p l) log₂ result)
    (hs₂ : Chain Store.Serves st₂ log₂ st₃) (ha₂ : ∀ e ∈ log₂, api.Serves e) :
    (∀ c ∈ log₂.calls, c.isMutation = false ∧ c.isStoreWrite = false) ↔
      ∃ r s, st₁.get l = .ok r ∧ api.getStack r.stackRef = .ok s ∧
        Lifecycle.isSuccessful s.status = true ∧ s.tags = p.effectiveTags r := by
  obtain ⟨r, t, s, members, hget, hset, hget₂⟩ := store_of_upToDate hown h₁ hs₁ ha₁
  constructor
  · intro hquiet
    rcases calls_of_second_pass hset hget₂ h₂ hs₂ ha₂ with ⟨hc, -⟩ | ⟨-, hcalls⟩
    · exact ⟨r, s, hget, hset.found, isCurrent_observedAs.mp hc⟩
    · have hu := hquiet (.updateStack (p.inputs r t s.id)) (by rw [hcalls]; simp)
      cases hu.1
  · rintro ⟨r', s', hget', hfound', hgood⟩
    cases hget.symm.trans hget'
    cases hset.found.symm.trans hfound'
    rcases calls_of_second_pass hset hget₂ h₂ hs₂ ha₂ with ⟨-, hcalls⟩ | ⟨hc, -⟩
    · rw [hcalls]
      simp [Call.isMutation, Call.isStoreWrite]
    · rw [isCurrent_observedAs.mpr hgood] at hc
      cases hc

/-! ## A stack left in peace, and one that is not -/

/-- An API with one stack that has nothing to update. -/
def calmApi (s : RemoteStack) : Api where
  getStack ref := if ref = s.id ∨ ref = s.name then .ok s else .error (.stackNotFound ref)
  getMembers _ := .ok []
  updateStack inputs := .error (.noUpdates inputs.stack)
  sameById ref s' h _ := by
    split at h
    · cases h
      simp
    · cases h

def completeStack : RemoteStack :=
  ⟨"s1", "default-web", "UPDATE_COMPLETE", none, none, TextMap.empty,
    plainPolicy.effectiveTags heldResource, none⟩

def observedWeb (s : RemoteStack) : Resource := observedAs plainPolicy heldResource s []

theorem hasFinalizer_observedWeb (s : RemoteStack) :
    (observedWeb s).hasFinalizer stackFinalizer = true :=
  show heldResource.hasFinalizer stackFinalizer = true by decide

theorem templateSource?_observedWeb (s : RemoteStack) :
    (observedWeb s).spec.templateSource? = some (.body "t") :=
  show heldResource.spec.templateSource? = some (.body "t") by decide

/-- A pass over a resource whose stack is current and was observed before. -/
def peacefulLog : Log :=
  [⟨.getResource Store.webLocator, .ok (observedWeb completeStack)⟩,
    ⟨.getStack "s1", .ok completeStack⟩, ⟨.getMembers "s1", .ok []⟩]

theorem ran_peacefulLog :
    Ran (reconcile plainPolicy Store.webLocator) peacefulLog (.ok .upToDate) := by
  have hcur : isCurrent plainPolicy (observedWeb completeStack) completeStack = true :=
    isCurrent_observedAs.mpr ⟨by decide, rfl⟩
  have hrefresh : RefreshLog (observedWeb completeStack) completeStack
      [⟨.getMembers "s1", .ok []⟩] (.ok (observedWeb completeStack, false)) :=
    .noNews [] (Status.isNews_merge _ _ _)
  have hupdate := UpdateLog.current _ (templateSource?_observedWeb completeStack) hcur hrefresh
  have hsettle := SettleLog.settled completeStack (by decide) (by decide)
    (by decide) hupdate
  exact (PassLog.read _ (.settling rfl (hasFinalizer_observedWeb completeStack) hsettle)).ran

theorem chain_peacefulLog :
    Chain Store.Serves (Store.webStore (Document.text (observedWeb completeStack))) peacefulLog
      (Store.webStore (Document.text (observedWeb completeStack))) := by
  have hget := Store.get_webStore (r := observedWeb completeStack) (by decide)
  exact ⟨_, ⟨hget.symm, rfl⟩, _, rfl, _, rfl, rfl⟩

theorem serves_peacefulLog : ∀ e ∈ peacefulLog, (calmApi completeStack).Serves e := by
  simp [peacefulLog, Api.Serves, calmApi, completeStack]

theorem peaceful_second_pass :
    Chain Store.Serves (Store.webStore (Document.text (observedWeb completeStack))) peacefulLog
        (Store.webStore (Document.text (observedWeb completeStack))) ∧
      ∀ c ∈ peacefulLog.calls, c.isMutation = false ∧ c.isStoreWrite = false := by
  have hget := Store.get_webStore (r := observedWeb completeStack) (by decide)
  refine ⟨chain_peacefulLog, (second_pass_idle_iff ?_ ran_peacefulLog chain_peacefulLog
    serves_peacefulLog ran_peacefulLog chain_peacefulLog serves_peacefulLog).mpr ?_⟩
  · intro r hr
    cases hget.symm.trans hr
    rfl
  · have href : (observedWeb completeStack).stackRef = "s1" := by decide +kernel
    exact ⟨observedWeb completeStack, completeStack, hget, by rw [href]; rfl, by decide +kernel, rfl⟩

/-- A pass over a resource whose stack was rolled back, with the status it finds in the store. -/
def busyLog (r : Resource) : Log :=
  [⟨.getResource Store.webLocator, .ok r⟩, ⟨.getStack "s1", .ok rolledBackStack⟩,
    ⟨.updateStack (plainPolicy.inputs heldResource (.body "t") "s1"), .error (.noUpdates "s1")⟩,
    ⟨.getMembers "s1", .ok []⟩, ⟨.updateStatus (observedWeb rolledBackStack), .ok ()⟩]

theorem ran_busyLog :
    Ran (reconcile plainPolicy Store.webLocator) (busyLog heldResource) (.ok .upToDate) := by
  have ht : heldResource.spec.templateSource? = some (.body "t") := by decide
  have hcur : isCurrent plainPolicy heldResource rolledBackStack = false :=
    isCurrent_eq_false_iff.mpr fun h => absurd h.2.1 (by decide)
  have hrefresh := RefreshLog.written (r := submittedAs plainPolicy heldResource)
    (s := rolledBackStack) [] (by decide)
  have hupdate := UpdateLog.confirmed (.body "t") ht hcur rfl (.noUpdates "s1") rfl
    (.written _ _ hrefresh)
  have hsettle := SettleLog.settled rolledBackStack (by decide) (by decide)
    (by decide) hupdate
  exact (PassLog.read heldResource (.settling rfl (by decide) hsettle)).ran

/-- The pass ends as the one before it, and writes the status it has read. -/
theorem ran_busyLog_observedWeb :
    Ran (reconcile plainPolicy Store.webLocator) (busyLog (observedWeb rolledBackStack))
      (.ok .upToDate) := by
  have hcur : isCurrent plainPolicy (observedWeb rolledBackStack) rolledBackStack = false :=
    isCurrent_eq_false_iff.mpr fun h => absurd h.2.1 (by decide)
  have hsub : submittedAs plainPolicy (observedWeb rolledBackStack) = observedWeb rolledBackStack :=
    submittedAs_of_appliedHash rfl
  have hrefresh : RefreshLog (submittedAs plainPolicy (observedWeb rolledBackStack)) rolledBackStack
      [⟨.getMembers "s1", .ok []⟩] (.ok (observedWeb rolledBackStack, false)) := by
    rw [hsub]
    exact .noNews [] (Status.isNews_merge _ _ _)
  have hupdate := UpdateLog.confirmed _ (templateSource?_observedWeb rolledBackStack) hcur rfl
    (.noUpdates "s1") rfl (.rewritten _ _ hrefresh (.ok ()) (.inl rfl))
  have hsettle := SettleLog.settled rolledBackStack (by decide) (by decide)
    (by decide) hupdate
  exact (PassLog.read _ (.settling rfl (hasFinalizer_observedWeb rolledBackStack) hsettle)).ran

theorem chain_busyLog {r : Resource} (hg : r.metadata.generation ≤ maxGeneration)
    (hown : r.locator = Store.webLocator) (hmeta : (observedWeb rolledBackStack).metadata = r.metadata)
    (hspec : (observedWeb rolledBackStack).spec = r.spec) :
    Chain Store.Serves (Store.webStore (Document.text r)) (busyLog r)
      (Store.webStore (Document.text (observedWeb rolledBackStack))) := by
  have hget := Store.get_webStore hg
  have hwrite := Store.updateStatus_webStore hg hown hmeta
  have hall : r.withStatus (observedWeb rolledBackStack).status = observedWeb rolledBackStack := by
    rw [Resource.withStatus, ← hmeta, ← hspec]
  rw [hall] at hwrite
  exact ⟨_, ⟨hget.symm, rfl⟩, _, rfl, _, rfl, _, rfl, _, hwrite, rfl⟩

theorem serves_busyLog (r : Resource) : ∀ e ∈ busyLog r, (calmApi rolledBackStack).Serves e := by
  simp [busyLog, Api.Serves, calmApi, rolledBackStack, Policy.inputs]

/-- A stack that was rolled back is updated again in the second pass, and the status, which has not
changed, is written again. -/
theorem busy_second_pass :
    ¬ ∀ (p : Policy) (l : Locator) (api : Api) (st₁ st₂ st₃ : Store) (log₁ log₂ : Log)
        (result : Except Error Outcome), (∀ r, st₁.get l = .ok r → r.locator = l) →
        Ran (reconcile p l) log₁ (.ok .upToDate) → Chain Store.Serves st₁ log₁ st₂ →
        (∀ e ∈ log₁, api.Serves e) → Ran (reconcile p l) log₂ result →
        Chain Store.Serves st₂ log₂ st₃ → (∀ e ∈ log₂, api.Serves e) →
        ∀ c ∈ log₂.calls, c.isMutation = false ∧ c.isStoreWrite = false := by
  intro h
  have hget := Store.get_webStore (r := heldResource) (by decide)
  have hquiet := h plainPolicy Store.webLocator (calmApi rolledBackStack) _ _ _ _ _ _
    (fun r hr => by cases hget.symm.trans hr; rfl) ran_busyLog
    (chain_busyLog (by decide) rfl rfl rfl) (serves_busyLog _) ran_busyLog_observedWeb
    (chain_busyLog (by decide) rfl rfl rfl) (serves_busyLog _)
    (.updateStatus (observedWeb rolledBackStack)) (by simp [busyLog])
  cases hquiet.2

end StackKeeper.Pass
