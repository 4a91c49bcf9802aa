import StackKeeper.Proofs.MutationGuard
import StackKeeper.Proofs.PassWrites
import StackKeeper.Proofs.Serving
import StackKeeper.Proofs.StoreAccess
import StackKeeper.Proofs.TickLog
/-!
# The course of a resource

What happens to the resource under one locator, step after step: passes over it, ticks of the
follower, requests of users, and whatever else goes on without touching it. Between the steps the
stacks at the provisioning API move freely. Within a step its look-ups are answered as things stand,
or fail; a read or a write of the store may fail too, and then leaves the resource as it is.

Results:
* `Store.stored_after_log`: a status that is stored after a log was stored before it or written in it.
* `carries_of_pass`, `carries_of_tick`: what a pass or a tick keeps of the stored resource.
* `carries_of_other_pass`: a pass over another resource keeps all of it.
* `holds_of_pass`: what a pass keeps of a status.
* `holds_of_tick`: a tick keeps what merging the shown stacks keeps.
* `carries_of_request`, `holds_of_request`: a request of a user changes at most what it declares.
-/
namespace StackKeeper

/-- What the provisioning API shows at a moment. A stack that is shown has an id, under which it is
shown too. -/
structure Remote where
  look : String → Option RemoteStack
  sameById : ∀ ref s, look ref = some s → s.id ≠ "" ∧ look s.id = some s

namespace Remote

/-- The event is a look-up that is answered as things stand, or fails, or it is no look-up. -/
def Answers (m : Remote) (e : Event) : Prop :=
  match e with
  | ⟨.getStack ref, .ok s⟩ => m.look ref = some s
  | ⟨.getStack ref, .error e⟩ => e.isStackNotFound = true → m.look ref = none
  | _ => True

/-- The reference leads to no stack, or to one that was deleted. -/
def IsGone (m : Remote) (ref : String) : Prop := ∀ s, m.look ref = some s → s.isDeleted = true

end Remote

/-- The event is no write that was accepted. -/
def Event.WritesNothing (e : Event) : Prop :=
  ∀ w, e ≠ ⟨.updateResource w, .ok ()⟩ ∧ e ≠ ⟨.updateStatus w, .ok ()⟩

namespace Store

variable {l : Locator} {s s' : Store} {r : Resource} {log : Log}

/-- The call failed, and the resource under the locator is what it was. -/
def Fails {α : Type} (l : Locator) (s : Store) (answer : Except Error α) (s' : Store) : Prop :=
  (∃ e, answer = .error e ∧ e.isNotFound = false) ∧ s'.get l = s.get l

/-- What an event may do to the resource under the locator. -/
def Moves (l : Locator) (s : Store) (e : Event) (s' : Store) : Prop :=
  match e with
  | ⟨.getResource l', answer⟩ =>
    if l' = l then (answer = s.get l ∧ s' = s) ∨ Fails l s answer s'
    else s' = s ∧ ∀ r, answer = .ok r → r.locator ≠ l
  | ⟨.updateResource r, answer⟩ =>
    if r.locator = l then s.update r = (answer, s') ∨ Fails l s answer s' else s'.get l = s.get l
  | ⟨.updateStatus r, answer⟩ =>
    if r.locator = l then s.updateStatus r = (answer, s') ∨ Fails l s answer s'
    else s'.get l = s.get l
  | _ => s' = s

/-- What is stored under the locator is its own, and its status is as given. -/
def Holds (l : Locator) (P : Status → Prop) (s : Store) : Prop :=
  ∀ r, s.get l = .ok r → r.locator = l ∧ P r.status

/-- What is stored under the locator is its own. -/
def Owns (l : Locator) (s : Store) : Prop := ∀ r, s.get l = .ok r → r.locator = l

/-- What is stored under the locator is its own, and is as given. -/
def Carries (l : Locator) (R : Resource → Prop) (s : Store) : Prop :=
  ∀ r, s.get l = .ok r → r.locator = l ∧ R r

theorem Carries.owns {R : Resource → Prop} (h : s.Carries l R) : s.Owns l := fun r hr => (h r hr).1

theorem Holds.owns {P : Status → Prop} (h : s.Holds l P) : s.Owns l := fun r hr => (h r hr).1

theorem Holds.of_get {P : Status → Prop} (h : s.Holds l P) (hget : s'.get l = s.get l) :
    s'.Holds l P := fun r hr => h r (hget ▸ hr)

/-- The event writes the status under the locator. -/
def Writes (l : Locator) (e : Event) (w : Resource) : Prop :=
  w.locator = l ∧ e = ⟨.updateStatus w, .ok ()⟩

/-- What an event makes of the resource under the locator, where one is stored afterwards. -/
inductive Change (l : Locator) (e : Event) (r : Resource) : Resource → Prop
  | kept (h : ∀ w, ¬ Writes l e w) : Change l e r r
  | declared (w : Resource) (hl : w.locator = l) (h : e = ⟨.updateResource w, .ok ()⟩) :
    Change l e r (revise r w)
  | observed (w : Resource) (h : Writes l e w) : Change l e r (r.withStatus w.status)

theorem change_of_event {e : Event} (hown : s.Owns l) (h : s.Moves l e s') {r' : Resource}
    (hr' : s'.get l = .ok r') : ∃ r, s.get l = .ok r ∧ Change l e r r' := by
  have same : s'.get l = s.get l → (∀ w, ¬ Writes l e w) →
      ∃ r, s.get l = .ok r ∧ Change l e r r' := fun hget hw => ⟨r', hget ▸ hr', .kept hw⟩
  obtain ⟨c, answer⟩ := e
  cases c with
  | getResource l' =>
    have hw : ∀ w, ¬ Writes l ⟨.getResource l', answer⟩ w := by simp [Writes]
    simp only [Moves] at h
    split at h
    · rcases h with ⟨-, rfl⟩ | ⟨-, hget⟩
      · exact same rfl hw
      · exact same hget hw
    · exact same (by rw [h.1]) hw
  | updateResource r =>
    have hw : ∀ w, ¬ Writes l ⟨.updateResource r, answer⟩ w := by simp [Writes]
    simp only [Moves] at h
    split at h
    · rename_i hl
      rcases h with h | ⟨-, hget⟩
      · rcases update_cases hl hown with ⟨e, he⟩ | ⟨stored, s₁, hget, -, hs, hs₁ | hs₁⟩
        · cases he.symm.trans h
          exact same rfl hw
        · cases hs.symm.trans h
          cases hs₁.symm.trans hr'
          exact ⟨stored, hget, .declared r hl rfl⟩
        · cases hs.symm.trans h
          cases hs₁.symm.trans hr'
      · exact same hget hw
    · exact same h hw
  | updateStatus r =>
    simp only [Moves] at h
    split at h
    · rename_i hl
      rcases h with h | ⟨⟨e, rfl, -⟩, hget⟩
      · rcases updateStatus_cases hl hown with ⟨e, he⟩ | ⟨stored, s₁, hget, -, hs, hs₁⟩
        · cases he.symm.trans h
          exact same rfl (by simp [Writes])
        · cases hs.symm.trans h
          cases hs₁.symm.trans hr'
          exact ⟨stored, hget, .observed r ⟨hl, rfl⟩⟩
      · exact same hget (by simp [Writes])
    · rename_i hl
      refine same h fun w hw => hl ?_
      obtain ⟨hw, he⟩ := hw
      cases he
      exact hw
  | listResources | getStack _ | getMembers _ | createStack _ _ | updateStack _ | deleteStack _
  | submit _ | unfollow _ =>
    simp only [Moves] at h
    exact same (by rw [h]) (by simp [Writes])

theorem stored_after_event {e : Event} (hown : s.Owns l) (h : s.Moves l e s') {r' : Resource}
    (hr' : s'.get l = .ok r') :
    r'.locator = l ∧
      ((∃ r, s.get l = .ok r ∧ r'.status = r.status ∧ ∀ w, ¬ Writes l e w) ∨
        ∃ w, Writes l e w ∧ r'.status = w.status) := by
  obtain ⟨r, hr, hchange⟩ := change_of_event hown h hr'
  have hl : r.locator = l := hown r hr
  cases hchange with
  | kept hw => exact ⟨hl, .inl ⟨_, hr, rfl, hw⟩⟩
  | declared w _ he =>
    refine ⟨hl, .inl ⟨r, hr, rfl, fun w' hw' => ?_⟩⟩
    cases he.symm.trans hw'.2
  | observed w hw => exact ⟨hl, .inr ⟨w, hw, rfl⟩⟩

/-- What holds of the stored resource after a log, if no event of the log puts an end to it. -/
theorem Carries.of_chain {R : Resource → Prop} (hs : s.Carries l R)
    (hlog : ∀ e ∈ log, ∀ r r', R r → Change l e r r' → R r') (h : Chain (Moves l) s log s') :
    s'.Carries l R := by
  induction log generalizing s with
  | nil =>
    cases h
    exact hs
  | cons e log ih =>
    rw [List.forall_mem_cons] at hlog
    obtain ⟨m, he, h⟩ := h
    refine ih (fun r' hr' => ?_) hlog.2 h
    obtain ⟨r, hr, hchange⟩ := change_of_event hs.owns he hr'
    have hl : r.locator = l := (hs r hr).1
    refine ⟨?_, hlog.1 r r' (hs r hr).2 hchange⟩
    cases hchange <;> exact hl

/-- Only a declaration that is accepted can remove the resource. -/
theorem remains_of_event {e : Event} (hown : s.Owns l) (h : s.Moves l e s') (hr : s.get l = .ok r)
    (he : ∀ w, e ≠ ⟨.updateResource w, .ok ()⟩) : ∃ r', s'.get l = .ok r' := by
  have same : s'.get l = s.get l → ∃ r', s'.get l = .ok r' := fun hget => ⟨r, hget.trans hr⟩
  obtain ⟨c, answer⟩ := e
  cases c with
  | getResource l' =>
    simp only [Moves] at h
    split at h
    · rcases h with ⟨-, rfl⟩ | ⟨-, hget⟩
      · exact same rfl
      · exact same hget
    · exact same (by rw [h.1])
  | updateResource w =>
    simp only [Moves] at h
    split at h
    · rename_i hl
      rcases h with h | ⟨-, hget⟩
      · rcases update_cases hl hown with ⟨e, hx⟩ | ⟨stored, s₁, -, -, hx, -⟩
        · cases hx.symm.trans h
          exact same rfl
        · cases hx.symm.trans h
          exact absurd rfl (he w)
      · exact same hget
    · exact same h
  | updateStatus w =>
    simp only [Moves] at h
    split at h
    · rename_i hl
      rcases h with h | ⟨-, hget⟩
      · rcases updateStatus_cases hl hown with ⟨e, hx⟩ | ⟨stored, s₁, -, -, hx, hs₁⟩
        · cases hx.symm.trans h
          exact same rfl
        · cases hx.symm.trans h
          exact ⟨_, hs₁⟩
      · exact same hget
    · exact same h
  | listResources | getStack _ | getMembers _ | createStack _ _ | updateStack _ | deleteStack _
  | submit _ | unfollow _ =>
    simp only [Moves] at h
    exact same (by rw [h])

theorem owns_after_event {e : Event} (hown : s.Owns l) (h : s.Moves l e s') : s'.Owns l :=
  fun _ hr' => (stored_after_event hown h hr').1

theorem remains_of_chain (hown : s.Owns l) (h : Chain (Moves l) s log s') (hr : s.get l = .ok r)
    (hlog : ∀ w, ⟨.updateResource w, .ok ()⟩ ∉ log) : ∃ r', s'.get l = .ok r' := by
  induction log generalizing s r with
  | nil =>
    cases h
    exact ⟨r, hr⟩
  | cons e log ih =>
    obtain ⟨m, he, h⟩ := h
    have hnot : ∀ w, e ≠ ⟨.updateResource w, .ok ()⟩ := fun w hw => hlog w (hw ▸ List.mem_cons_self)
    obtain ⟨r', hr'⟩ := remains_of_event hown he hr hnot
    exact ih (owns_after_event hown he) h hr' fun w hw => hlog w (List.mem_cons_of_mem _ hw)

/-- Where nothing is written, the resource stays as it is. -/
theorem get_of_unwritten (hown : s.Owns l) (h : Chain (Moves l) s log s') (hr : s.get l = .ok r)
    (hlog : ∀ e ∈ log, e.WritesNothing) : s'.get l = .ok r := by
  obtain ⟨r', hr'⟩ := remains_of_chain hown h hr fun w hmem => (hlog _ hmem w).1 rfl
  have hs : s.Carries l (· = r) := fun r' hr' => ⟨hown r' hr', Except.ok.inj (hr'.symm.trans hr)⟩
  have same : s'.Carries l (· = r) := by
    refine hs.of_chain (fun e he r₁ r₂ hr₁ hchange => ?_) h
    cases hchange with
    | kept => exact hr₁
    | declared w hl heq => exact absurd heq (hlog e he w).1
    | observed w heq => exact absurd heq.2 (hlog e he w).2
  rw [hr', (same r' hr').2]

/-- A status that is stored after a log was stored before it, with no write in between, or it was
written in it. -/
theorem stored_after_log (hown : s.Owns l) (h : Chain (Moves l) s log s') {r' : Resource}
    (hr' : s'.get l = .ok r') :
    r'.locator = l ∧
      ((∃ r, s.get l = .ok r ∧ r'.status = r.status ∧ ∀ e ∈ log, ∀ w, ¬ Writes l e w) ∨
        ∃ e ∈ log, ∃ w, Writes l e w ∧ r'.status = w.status) := by
  induction log generalizing s with
  | nil =>
    cases h
    exact ⟨hown r' hr', .inl ⟨r', hr', rfl, by simp⟩⟩
  | cons e log ih =>
    obtain ⟨m, he, h⟩ := h
    obtain ⟨hl, ⟨r, hr, hs, hw⟩ | ⟨d, hd, w, hw, hs⟩⟩ := ih (owns_after_event hown he) h
    · refine ⟨hl, ?_⟩
      obtain ⟨-, ⟨r₀, hr₀, hs₀, hw₀⟩ | ⟨w, hw₀, hs₀⟩⟩ := stored_after_event hown he hr
      · refine .inl ⟨r₀, hr₀, hs.trans hs₀, ?_⟩
        rw [List.forall_mem_cons]
        exact ⟨hw₀, hw⟩
      · exact .inr ⟨e, List.mem_cons_self, w, hw₀, hs.trans hs₀⟩
    · exact ⟨hl, .inr ⟨d, List.mem_cons_of_mem _ hd, w, hw, hs⟩⟩

/-- What was read at the start of a log was stored. -/
theorem get_of_chain {r : Resource} (h : Chain (Moves l) s (⟨.getResource l, .ok r⟩ :: log) s') :
    s.get l = .ok r := by
  obtain ⟨m, hm, -⟩ := h
  simp only [Moves, if_true] at hm
  rcases hm with ⟨hget, -⟩ | ⟨⟨e, he, -⟩, -⟩
  · exact hget.symm
  · cases he

/-- What was read elsewhere at the start of a log is another resource. -/
theorem locator_ne_of_chain {l' : Locator} {r : Resource} (hne : l' ≠ l)
    (h : Chain (Moves l) s (⟨.getResource l', .ok r⟩ :: log) s') : r.locator ≠ l := by
  obtain ⟨m, hm, -⟩ := h
  simp only [Moves, if_neg hne] at hm
  exact hm.2 r rfl

end Store

/-! ## Steps -/

namespace Course
open Store Pass Follow Refresh

inductive Step where
  /-- A pass over the resource. -/
  | pass (m : Remote) (p : Policy) (log : Log) (result : Except Error Outcome)
  /-- A tick of the follower over the entries it has. -/
  | tick (m : Remote) (secs : Nat) (entries : List (String × Locator)) (log : Log)
    (summary : TickSummary)
  /-- A user changes the spec or the metadata of the resource, or requests its deletion. -/
  | request (r : Resource)
  /-- A resource without a status comes to be stored. -/
  | birth
  /-- Something else goes on that leaves the resource alone. -/
  | elsewhere (log : Log)

/-- What a step does to the store, as far as the resource under the locator is concerned. -/
def Step.Takes (l : Locator) (s : Store) (step : Step) (s' : Store) : Prop :=
  match step with
  | .pass m p log result =>
    Job.Ran (reconcile p l) log result ∧ (∀ e ∈ log, m.Answers e) ∧ Chain (Moves l) s log s'
  | .tick m secs entries log summary =>
    Program.Ran (Follow.tick secs entries) log summary ∧ (∀ e ∈ log, m.Answers e) ∧
      Chain (Moves l) s log s'
  | .request r => r.locator = l ∧ (s.update r).2 = s'
  | .birth =>
    (∀ r, s.get l ≠ .ok r) ∧ ∀ r, s'.get l = .ok r → r.locator = l ∧ r.status = Status.empty
  | .elsewhere _ => s'.get l = s.get l

/-- The steps, latest first, lead from a store without the resource to this one. -/
inductive Reached (l : Locator) : List Step → Store → Prop
  | start {s : Store} (h : ∀ r, s.get l ≠ .ok r) : Reached l [] s
  | step {past : List Step} {s s' : Store} {step : Step} (h : Reached l past s)
    (hs : step.Takes l s s') : Reached l (step :: past) s'

variable {l l' : Locator} {s s' : Store} {m : Remote} {log : Log} {P Q : Status → Prop}

theorem holds_of_pass {p : Policy} {result : Except Error Outcome} (h : PassLog p l log result)
    (hc : Chain (Moves l) s log s') (hs : s.Holds l P) (hkeep : ∀ st, P st → Q st)
    (hwrite : ∀ r w, ⟨.getResource l, .ok r⟩ ∈ log → P r.status → Written p r log w → Q w.status) :
    s'.Holds l Q := by
  intro r' hr'
  obtain ⟨hl, ⟨r, hr, hst, -⟩ | ⟨e, he, w, ⟨-, rfl⟩, hst⟩⟩ := stored_after_log hs.owns hc hr'
  · exact ⟨hl, hst ▸ hkeep _ (hs r hr).2⟩
  · obtain ⟨r, rest, rfl, hw⟩ := writes_of_passLog h he
    exact ⟨hl, hst ▸ hwrite r w List.mem_cons_self (hs r (get_of_chain hc)).2 hw⟩

/-- A pass changes at most the finalizers, and the status by what it writes. -/
theorem carries_of_pass {R : Resource → Prop} {p : Policy} {result : Except Error Outcome}
    (h : PassLog p l log result) (hc : Chain (Moves l) s log s')
    (hs : s.Carries l R)
    (hdeclare : ∀ r r₀ finalizers, ⟨.updateResource (r₀.withFinalizers finalizers), .ok ()⟩ ∈ log →
      r₀.locator = l → R r → R r₀ → R (revise r (r₀.withFinalizers finalizers)))
    (hwrite : ∀ r r₀ w, Written p r₀ log w → R r → R r₀ → R (r.withStatus w.status)) :
    s'.Carries l R := by
  refine hs.of_chain (fun e he r r' hr hchange => ?_) hc
  cases hchange with
  | kept => exact hr
  | declared w hl heq =>
    subst heq
    rcases afterRead_of_passLog h he with ⟨error, he'⟩ | ⟨r₀, rest, rfl, he' | he'⟩
    · cases he'
    · cases he'
    · cases he' with
      | declares finalizers _ =>
        exact hdeclare r r₀ finalizers he hl hr (hs r₀ (get_of_chain hc)).2
  | observed w hw =>
    obtain ⟨-, rfl⟩ := hw
    obtain ⟨r₀, rest, rfl, hw⟩ := writes_of_passLog h he
    exact hwrite r r₀ w hw hr (hs r₀ (get_of_chain hc)).2

/-- A pass over another resource keeps the resource as it should be. -/
theorem carries_of_other_pass {R : Resource → Prop} {p : Policy} {result : Except Error Outcome}
    (h : PassLog p l' log result) (hne : l' ≠ l) (hc : Chain (Moves l) s log s')
    (hs : s.Carries l R) : s'.Carries l R := by
  refine hs.of_chain (fun e he r r' hr hchange => ?_) hc
  cases hchange with
  | kept => exact hr
  | declared w hl heq =>
    subst heq
    rcases afterRead_of_passLog h he with ⟨error, he'⟩ | ⟨r₀, rest, rfl, he' | he'⟩
    · cases he'
    · cases he'
    · cases he' with
      | declares finalizers _ =>
        have hl : r₀.locator = l := hl
        exact absurd hl (locator_ne_of_chain hne hc)
  | observed w hw =>
    obtain ⟨hl, rfl⟩ := hw
    obtain ⟨r₀, rest, rfl, hw⟩ := writes_of_passLog h he
    exact absurd (hw.locator_eq.symm.trans hl) (locator_ne_of_chain hne hc)

theorem writes_of_lookLog {id : String} {x : Except Error EntryOutcome} {w : Resource}
    {answer : Except Error Unit} (h : LookLog id l log x) (hw : ⟨.updateStatus w, answer⟩ ∈ log) :
    ∃ r st rest members, log = ⟨.getResource l, .ok r⟩ :: ⟨.getStack id, .ok st⟩ :: rest ∧
      w = merged r st members := by
  cases h with
  | unread e he => simp at hw
  | resourceGone e he => simp at hw
  | unseen r e he => simp at hw
  | stackGone r e he => simp at hw
  | unrefreshed r st e h =>
    obtain ⟨members, rfl⟩ := writes_of_refreshLog h (by simpa using hw)
    exact ⟨r, st, _, members, rfl, rfl⟩
  | settled r st ht h =>
    obtain ⟨members, rfl⟩ := writes_of_refreshLog h (by simpa using hw)
    exact ⟨r, st, _, members, rfl, rfl⟩
  | atWork r st ht h =>
    obtain ⟨members, rfl⟩ := writes_of_refreshLog h (by simpa using hw)
    exact ⟨r, st, _, members, rfl, rfl⟩

theorem undeclared_of_lookLog {id : String} {x : Except Error EntryOutcome} {w : Resource}
    (h : LookLog id l log x) : ⟨.updateResource w, .ok ()⟩ ∉ log := by
  have refresh : ∀ {r s log} {y : Except Error (Resource × Bool)}, RefreshLog r s log y →
      ⟨.updateResource w, .ok ()⟩ ∉ log := by
    intro r s log y h
    cases h <;> simp
  cases h with
  | unread e he | resourceGone e he | unseen r e he | stackGone r e he => simp
  | unrefreshed r s e h | settled r s ht h | atWork r s ht h => simp [refresh h]

/-- A look changes at most the status, by what it sees of its stack. -/
theorem carries_of_look {R : Resource → Prop} {id : String} {x : Except Error EntryOutcome}
    (h : LookLog id l' log x) (hc : Chain (Moves l) s log s') (hs : s.Carries l R)
    (hmerge : l' = l → ∀ r r₀ shown members, ⟨.getStack id, .ok shown⟩ ∈ log → R r → R r₀ →
      R (r.withStatus (r₀.status.merge shown members))) :
    s'.Carries l R := by
  refine hs.of_chain (fun e he r r' hr hchange => ?_) hc
  cases hchange with
  | kept => exact hr
  | declared w hl heq => exact absurd (heq ▸ he) (undeclared_of_lookLog h)
  | observed w hw =>
    obtain ⟨hwl, rfl⟩ := hw
    obtain ⟨r₀, shown, rest, members, rfl, rfl⟩ := writes_of_lookLog h he
    by_cases hll : l' = l
    · subst hll
      exact hmerge rfl r r₀ shown members (by simp) hr (hs r₀ (get_of_chain hc)).2
    · have hl : r₀.locator = l := hwl
      exact absurd hl (locator_ne_of_chain hll hc)

/-- The looks of a tick follow one another, and each keeps the resource as it should be. -/
theorem carries_of_tick {R : Resource → Prop} {secs : Nat} {sum total : TickSummary}
    {entries : List (String × Locator)} (h : Program.Ran (lookAtAll secs sum entries) log total)
    (hc : Chain (Moves l) s log s') (hs : s.Carries l R)
    (hmerge : ∀ entry ∈ entries, entry.2 = l → ∀ r r₀ shown members,
      ⟨.getStack entry.1, .ok shown⟩ ∈ log → R r → R r₀ →
      R (r.withStatus (r₀.status.merge shown members))) :
    s'.Carries l R := by
  induction entries generalizing sum log s with
  | nil =>
    obtain ⟨rfl, -⟩ := h
    cases hc
    exact hs
  | cons entry entries ih =>
    obtain ⟨x, first, rest, hlook, hrest, rfl⟩ := ran_lookAtAll_cons.mp h
    obtain ⟨s₁, hfirst, hc⟩ := chain_append.mp hc
    rw [List.forall_mem_cons] at hmerge
    have hs₁ := carries_of_look hlook hfirst hs fun hl r r₀ shown members hshown =>
      hmerge.1 hl r r₀ shown members (List.mem_append_left _ hshown)
    exact ih hrest hc hs₁ fun entry he hl r r₀ shown members hshown =>
      hmerge.2 entry he hl r r₀ shown members (List.mem_append_right _ hshown)

theorem undeclared_of_tick {secs : Nat} {sum total : TickSummary}
    {entries : List (String × Locator)} {w : Resource}
    (h : Program.Ran (lookAtAll secs sum entries) log total) :
    ⟨.updateResource w, .ok ()⟩ ∉ log := by
  induction entries generalizing sum log with
  | nil =>
    obtain ⟨rfl, -⟩ := h
    simp
  | cons entry entries ih =>
    obtain ⟨x, first, rest, hlook, hrest, rfl⟩ := ran_lookAtAll_cons.mp h
    simp [undeclared_of_lookLog hlook, ih hrest]

theorem holds_of_tick {secs : Nat} {entries : List (String × Locator)} {total : TickSummary}
    (h : Program.Ran (Follow.tick secs entries) log total) (ha : ∀ e ∈ log, m.Answers e)
    (hc : Chain (Moves l) s log s') (hs : s.Holds l P)
    (hmerge : ∀ st ref shown members, m.look ref = some shown → P st → P (st.merge shown members)) :
    s'.Holds l P :=
  carries_of_tick h hc hs fun entry _ _ _ r₀ shown members hshown _ hr₀ =>
    hmerge r₀.status entry.1 shown members (ha ⟨.getStack entry.1, .ok shown⟩ hshown) hr₀

/-- A request of a user changes at most what it declares. -/
theorem carries_of_request {R : Resource → Prop} {w : Resource} (hl : w.locator = l)
    (h : (s.update w).2 = s') (hs : s.Carries l R) (hdeclare : ∀ r, R r → R (revise r w)) :
    s'.Carries l R := by
  subst h
  intro r' hr'
  rcases update_cases hl hs.owns with ⟨e, hx⟩ | ⟨stored, s₁, hget, -, hx, hs₁ | hs₁⟩
  · rw [hx] at hr'
    exact hs r' hr'
  · rw [hx] at hr'
    cases hs₁.symm.trans hr'
    exact ⟨(hs stored hget).1, hdeclare stored (hs stored hget).2⟩
  · rw [hx] at hr'
    cases hs₁.symm.trans hr'

theorem holds_of_request {r : Resource} (hl : r.locator = l) (h : (s.update r).2 = s')
    (hs : s.Holds l P) : s'.Holds l P :=
  carries_of_request hl h hs fun _ hr => hr

/-! ## Steps over a store with one document -/

section
variable {r stored : Resource}

theorem moves_read_webStore (hg : r.metadata.generation ≤ maxGeneration) :
    Moves webLocator (webStore (Document.text r)) ⟨.getResource webLocator, .ok r⟩
      (webStore (Document.text r)) := by
  simp only [Moves, if_true]
  exact .inl ⟨(get_webStore hg).symm, trivial⟩

theorem moves_write_webStore (hg : stored.metadata.generation ≤ maxGeneration)
    (hl : stored.locator = webLocator) (hmeta : r.metadata = stored.metadata)
    (hspec : r.spec = stored.spec) :
    Moves webLocator (webStore (Document.text stored)) ⟨.updateStatus r, .ok ()⟩
      (webStore (Document.text r)) := by
  have hr : stored.withStatus r.status = r := by rw [Resource.withStatus, ← hmeta, ← hspec]
  have hl' : r.locator = webLocator := by rw [← hl, Resource.locator, hmeta, Resource.locator]
  simp only [Moves, hl', if_true]
  exact .inl (by rw [updateStatus_webStore hg hl hmeta, hr])

end

/-- A remote side with one stack at most. -/
def onlyStack (s : RemoteStack) (h : s.id ≠ "") : Remote where
  look ref := if ref = s.id then some s else none
  sameById ref s' hs := by
    split at hs
    · cases hs
      exact ⟨h, by simp⟩
    · cases hs

/-- A remote side with one stack, which is found by its name too. -/
def namedStack (s : RemoteStack) (h : s.id ≠ "") : Remote where
  look ref := if ref = s.id ∨ ref = s.name then some s else none
  sameById ref s' hs := by
    split at hs
    · cases hs
      exact ⟨h, by simp⟩
    · cases hs

/-- A resource of which nothing was observed. -/
def newResource : Resource := heldResource.withStatus Status.empty

theorem reached_birth : Reached webLocator [.birth] (webStore (Document.text newResource)) := by
  have hnone : ∀ r, Store.get ⟨["state"], FileTree.empty⟩ webLocator ≠ .ok r := by
    intro r hr
    have hmissing : Store.get ⟨["state"], FileTree.empty⟩ webLocator =
        .error (.resourceNotFound webLocator.text) := by
      rw [Store.get, documentPath_webLocator]
      rfl
    cases hmissing.symm.trans hr
  have hnew : ∀ r, (webStore (Document.text newResource)).get webLocator = .ok r →
      r.locator = webLocator ∧ r.status = Status.empty := by
    intro r hr
    rw [get_webStore (by decide)] at hr
    cases hr
    exact ⟨rfl, rfl⟩
  exact .step (.start hnone) ⟨hnone, hnew⟩

/-- A pass that creates a stack, with what it finds of the old one. -/
def creatingLog (r : Resource) (answer : Except Error RemoteStack) (id : String) : Log :=
  [⟨.getResource webLocator, .ok r⟩, ⟨.getStack r.stackRef, answer⟩,
    ⟨.createStack (plainPolicy.inputs r (.body "t") r.stackName) r.spec.onFailure, .ok id⟩,
    ⟨.updateStatus (createdAs plainPolicy r id), .ok ()⟩,
    ⟨.submit ((createdAs plainPolicy r id).followRequest id), ()⟩]

theorem takes_creatingLog {r : Resource} (answer : Except Error RemoteStack) (id : String)
    (hg : r.metadata.generation ≤ maxGeneration) (hl : r.locator = webLocator)
    (hm : r.isMarked = false) (hf : r.hasFinalizer stackFinalizer = true)
    (ht : r.spec.templateSource? = some (.body "t")) (hnone : FoundNone answer)
    (ha : m.Answers ⟨.getStack r.stackRef, answer⟩) :
    (Step.pass m plainPolicy (creatingLog r answer id) (.ok .created)).Takes webLocator
      (webStore (Document.text r)) (webStore (Document.text (createdAs plainPolicy r id))) := by
  refine ⟨?_, ?_, ?_⟩
  · have hcreate := CreateLog.accepted (.body "t") ht (rfl : plainPolicy.dryRun = false) id
      (.recorded (.ok ()) (.inl rfl))
    have hsettle : SettleLog plainPolicy r (creatingLog r answer id).tail (.ok .created) := by
      rcases hnone with ⟨e, rfl, he⟩ | ⟨shown, rfl, hs⟩
      · exact .absent e he hcreate
      · exact .foreign shown (by simpa using hs) hcreate
    exact (PassLog.read r (.settling hm hf hsettle)).ran
  · intro e he
    simp only [creatingLog, List.mem_cons, List.not_mem_nil, or_false] at he
    rcases he with rfl | rfl | rfl | rfl | rfl
    · trivial
    · exact ha
    · trivial
    · trivial
    · trivial
  · exact ⟨_, moves_read_webStore hg, _, rfl, _, rfl, _, moves_write_webStore hg hl rfl rfl, _, rfl,
      rfl⟩

end Course
end StackKeeper
