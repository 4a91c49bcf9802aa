import StackKeeper.Follow.Watch
import StackKeeper.Proofs.Serving
import StackKeeper.Proofs.StoreAccess
import StackKeeper.Proofs.TickLog
/-!
# A resource with its stack

The parties around one resource: the store, a provisioning API that grants what it is asked for and
brings every work to a good end, the queue between passes and follower, and what the follower keeps.
Each of them answers the calls that concern it. Between any two calls the stack may go on with its
work; once it is done it stays as it is until the next call that changes it.

Results:
* `Obliging.works_of_serves`: what becomes of a stack that a call does not change.
* `Scene.after_calm`: what becomes of all parties when nothing but the status is written.
-/
namespace StackKeeper

namespace RemoteStack

def IsDone (st : RemoteStack) : Prop := st.status = "CREATE_COMPLETE" ∨ st.status = "UPDATE_COMPLETE"

/-- Whether the stack is found under a reference: its id or its name. -/
def isNamed (st : RemoteStack) (ref : String) : Bool := ref == st.id || ref == st.name

theorem IsDone.isTerminal {st : RemoteStack} (h : st.IsDone) :
    Lifecycle.isTerminal st.status = true := by
  rcases h with h | h <;> rw [h] <;> decide

theorem IsDone.isSuccessful {st : RemoteStack} (h : st.IsDone) :
    Lifecycle.isSuccessful st.status = true := by
  rcases h with h | h <;> rw [h] <;> decide

theorem IsDone.isDeleted_eq {st : RemoteStack} (h : st.IsDone) : st.isDeleted = false := by
  rcases h with h | h <;> rw [isDeleted, h] <;> decide

end RemoteStack

/-! ## An obliging API -/

namespace Obliging

/-- A stack with the given id and tags, which can only end well. -/
structure Stands (id : String) (tags : TextMap) (st : RemoteStack) : Prop where
  id : st.id = id
  tags : st.tags = tags
  ends : Lifecycle.isTerminal st.status = true → st.IsDone

/-- The stack goes on with its work, if it is at work. -/
inductive Works : Option RemoteStack → Option RemoteStack → Prop
  | rests (n : Option RemoteStack) : Works n n
  | goes {st st' : RemoteStack} (busy : Lifecycle.isTerminal st.status = false)
    (h : Stands st.id st.tags st') (name : st'.name = st.name) : Works (some st) (some st')

/-- What the API answers to a call and what becomes of the stack. Creations and updates are
accepted, and the stack gets the submitted tags; nothing is said of deletions. -/
def Grants (n : Option RemoteStack) (e : Event) (n' : Option RemoteStack) : Prop :=
  match e with
  | ⟨.getStack ref, answer⟩ =>
    n' = n ∧ match n.filter (·.isNamed ref) with
      | some st => answer = .ok st
      | none => ∃ e : Error, e.isStackNotFound = true ∧ answer = .error e
  | ⟨.createStack inputs _, answer⟩ =>
    ∃ st : RemoteStack, st.id ≠ "" ∧ st.name = inputs.stack ∧ Stands st.id inputs.tags st ∧
      answer = .ok st.id ∧ n' = some st
  | ⟨.updateStack inputs, answer⟩ =>
    match n.filter (·.isNamed inputs.stack) with
    | some st => ∃ st' : RemoteStack, st'.name = st.name ∧ Stands st.id inputs.tags st' ∧
        answer = .ok () ∧ n' = some st'
    | none => ∃ e : Error, e.isStackNotFound = true ∧ answer = .error e ∧ n' = n
  | ⟨.deleteStack _, _⟩ => True
  | _ => n' = n

/-- The stack may go on with its work before each call. -/
def Serves (n : Option RemoteStack) (e : Event) (n' : Option RemoteStack) : Prop :=
  ∃ m, Works n m ∧ Grants m e n'

variable {n m n' : Option RemoteStack} {st : RemoteStack} {id : String} {tags : TextMap} {e : Event}

theorem Works.trans (h : Works n m) (h' : Works m n') : Works n n' := by
  cases h with
  | rests => exact h'
  | goes busy hst name =>
    cases h' with
    | rests => exact .goes busy hst name
    | goes _ hst' name' =>
      exact .goes busy ⟨hst'.id.trans hst.id, hst'.tags.trans hst.tags, hst'.ends⟩
        (name'.trans name)

theorem Works.eq_none (h : Works none n) : n = none := by
  cases h
  rfl

theorem Works.eq_of_isDone (h : Works (some st) n) (hdone : st.IsDone) : n = some st := by
  cases h with
  | rests => rfl
  | goes busy =>
    rw [hdone.isTerminal] at busy
    cases busy

theorem Works.stands (h : Works (some st) n) (hst : Stands id tags st) :
    ∃ st', n = some st' ∧ Stands id tags st' := by
  cases h with
  | rests => exact ⟨st, rfl, hst⟩
  | goes _ hst' => exact ⟨_, rfl, hst'.id.trans hst.id, hst'.tags.trans hst.tags, hst'.ends⟩

/-- A call that changes no stack leaves it to its work. -/
theorem works_of_serves (h : Serves n e n') (hq : e.1.isMutation = false) : Works n n' := by
  obtain ⟨m, hworks, hgrants⟩ := h
  obtain ⟨c, answer⟩ := e
  suffices hn : n' = m from hn ▸ hworks
  cases c with
  | createStack _ _ | updateStack _ | deleteStack _ => cases hq
  | getStack _ => exact hgrants.1
  | getResource _ | updateResource _ | updateStatus _ | listResources | getMembers _ | submit _
  | unfollow _ => exact hgrants

/-- The stack that a look-up answers is the one that stands. -/
theorem eq_of_serves_getStack {ref : String} (h : Serves n ⟨.getStack ref, .ok st⟩ n') :
    n' = some st := by
  obtain ⟨m, -, rfl, hanswer⟩ := h
  cases hm : n'.filter (·.isNamed ref) with
  | some st' =>
    rw [hm] at hanswer
    cases hanswer
    exact (Option.filter_eq_some_iff.mp hm).1
  | none =>
    rw [hm] at hanswer
    obtain ⟨e, -, he⟩ := hanswer
    cases he

/-- A stack is found by its id. -/
theorem serves_getStack {answer : Except Error RemoteStack}
    (h : Serves (some st) ⟨.getStack id, answer⟩ n') (hst : Stands id tags st) :
    ∃ st', answer = .ok st' := by
  obtain ⟨m, hworks, rfl, hanswer⟩ := h
  obtain ⟨st', rfl, hst'⟩ := hworks.stands hst
  have hnamed : st'.isNamed id = true := by simp [RemoteStack.isNamed, hst'.id]
  rw [Option.filter_some, if_pos hnamed] at hanswer
  exact ⟨st', hanswer⟩

/-- Where no stack is, none is found. -/
theorem serves_getStack_none {ref : String} {answer : Except Error RemoteStack}
    (h : Serves none ⟨.getStack ref, answer⟩ n') :
    ∃ e : Error, e.isStackNotFound = true ∧ answer = .error e := by
  obtain ⟨m, hworks, rfl, hanswer⟩ := h
  obtain rfl := hworks.eq_none
  exact hanswer

/-- An update is accepted. -/
theorem serves_updateStack {inputs : StackInputs} {answer : Except Error Unit}
    (h : Serves (some st) ⟨.updateStack inputs, answer⟩ n') (hst : Stands inputs.stack tags st) :
    answer = .ok () ∧ ∃ st', n' = some st' ∧ Stands inputs.stack inputs.tags st' := by
  obtain ⟨m, hworks, hgrants⟩ := h
  obtain ⟨st₁, rfl, hst₁⟩ := hworks.stands hst
  have hnamed : st₁.isNamed inputs.stack = true := by simp [RemoteStack.isNamed, hst₁.id]
  simp only [Grants, Option.filter_some, if_pos hnamed] at hgrants
  obtain ⟨st', -, hst', hanswer, rfl⟩ := hgrants
  exact ⟨hanswer, st', rfl, hst₁.id ▸ hst'⟩

/-- A creation is accepted. -/
theorem serves_createStack {inputs : StackInputs} {onFailure : Option String}
    {answer : Except Error String} (h : Serves n ⟨.createStack inputs onFailure, answer⟩ n') :
    ∃ st, answer = .ok st.id ∧ st.id ≠ "" ∧ n' = some st ∧ Stands st.id inputs.tags st := by
  obtain ⟨m, -, st, hid, -, hst, hanswer, rfl⟩ := h
  exact ⟨st, hanswer, hid, rfl, hst⟩

end Obliging

/-! ## What is stored -/

namespace Store

variable {l : Locator} {r w : Resource} {s s' : Store}

/-- The resource is stored under its own locator, and its document can be replaced. -/
structure Has (l : Locator) (r : Resource) (s : Store) : Prop where
  get : s.get l = .ok r
  own : r.locator = l
  replaceable : s.IsReplaceable l

/-- A write of the status is accepted. -/
theorem Has.updateStatus {answer : Except Error Unit} (h : s.Has l r)
    (hs : s.updateStatus w = (answer, s')) (hl : w.locator = l)
    (huid : w.metadata.uid = r.metadata.uid) :
    answer = .ok () ∧ s'.Has l (r.withStatus w.status) := by
  obtain ⟨s₁, hs₁, hget, hrep⟩ :=
    updateStatus_of_isReplaceable h.replaceable h.get h.own hl huid.symm
  cases hs₁.symm.trans hs
  exact ⟨rfl, hget, h.own, hrep⟩

/-- A write of spec and metadata is accepted. -/
theorem Has.update (h : s.Has l r) (hl : w.locator = l) (huid : w.metadata.uid = r.metadata.uid)
    (hrel : isReleased (revise r w) = false) :
    ∃ s', s.update w = (.ok (), s') ∧ s'.Has l (revise r w) := by
  obtain ⟨s', hs', hget, hrep⟩ :=
    update_of_isReplaceable h.replaceable h.get h.own hl huid.symm hrel
  exact ⟨s', hs', hget, h.own, hrep⟩

end Store

/-! ## The scene -/

/-- The parties around a resource. -/
structure Scene where
  store : Store
  stack : Option RemoteStack
  hub : Handoff
  watch : Watch

def Handoff.after (h : Handoff) : Event → Handoff
  | ⟨.submit q, _⟩ => h.submit q
  | _ => h

def Watch.after (w : Watch) : Event → Watch
  | ⟨.unfollow id, _⟩ => w.stop id
  | _ => w

theorem Handoff.mem_submit {h : Handoff} {q q' : FollowRequest} (hq : q' ∈ (h.submit q).toList) :
    q' ∈ h.toList ∨ q' = q := by
  unfold submit at hq
  split at hq
  · split at hq
    · simpa [toList, or_assoc] using hq
    · simp only [toList, List.mem_append, List.mem_singleton] at hq ⊢
      rcases hq with (hq | hq) | hq
      · exact .inl (.inl hq)
      · exact .inr hq
      · exact .inl (.inr hq)
  · exact .inl hq

theorem Watch.mem_stop {w : Watch} {id : String} {e : String × Locator}
    (he : e ∈ (w.stop id).registry.entries) : e ∈ w.registry.entries := by
  unfold stop at he
  split at he
  · exact (List.mem_filter.mp he).1
  · exact he

theorem Watch.mem_accept {w : Watch} {q : FollowRequest} {e : String × Locator}
    (he : e ∈ (w.accept q).registry.entries) :
    e ∈ w.registry.entries ∨ e = (q.stackId, q.resource) := by
  unfold accept at he
  split at he
  · simp only [Registry.insertNew] at he
    split at he
    · exact .inl he
    · simpa using he
  · exact .inl he

namespace Scene

variable {s s' : Scene} {log : Log} {l : Locator} {r : Resource} {P : Status → Prop} {e : Event}

/-- Each party answers the calls that concern it. -/
def Serves (s : Scene) (e : Event) (s' : Scene) : Prop :=
  s.store.Serves e s'.store ∧ Obliging.Serves s.stack e s'.stack ∧ s'.hub = s.hub.after e ∧
    s'.watch = s.watch.after e

/-- Nothing is handed over and nothing is followed but for the resource. -/
structure Attends (l : Locator) (s : Scene) : Prop where
  requests : ∀ q ∈ s.hub.toList, q.resource = l
  entries : ∀ e ∈ s.watch.registry.entries, e.2 = l

/-- The event changes nothing but the status of the resource, and that as it should be; nothing is
handed over but for the resource. -/
def Calm (l : Locator) (r : Resource) (P : Status → Prop) (e : Event) : Prop :=
  match e with
  | ⟨.updateStatus w, _⟩ => w.locator = l ∧ w.metadata.uid = r.metadata.uid ∧ P w.status
  | ⟨.submit q, _⟩ => q.resource = l
  | ⟨.updateResource _, _⟩ | ⟨.createStack _ _, _⟩ | ⟨.updateStack _, _⟩
  | ⟨.deleteStack _, _⟩ => False
  | _ => True

theorem Calm.isMutation (h : Calm l r P e) : e.1.isMutation = false := by
  obtain ⟨c, answer⟩ := e
  cases c with
  | createStack _ _ | updateStack _ | deleteStack _ => exact h.elim
  | getResource _ | updateResource _ | updateStatus _ | listResources | getStack _ | getMembers _
  | submit _ | unfollow _ => rfl

theorem Attends.after (h : s.Attends l) (hs : s.Serves e s')
    (hq : ∀ q answer, e = ⟨.submit q, answer⟩ → q.resource = l) : s'.Attends l := by
  obtain ⟨-, -, hhub, hwatch⟩ := hs
  obtain ⟨c, answer⟩ := e
  constructor
  · intro q hmem
    rw [hhub] at hmem
    cases c with
    | submit q' =>
      rcases Handoff.mem_submit hmem with hmem | rfl
      · exact h.requests q hmem
      · exact hq q answer rfl
    | getResource _ | updateResource _ | updateStatus _ | listResources | getStack _ | getMembers _
    | createStack _ _ | updateStack _ | deleteStack _ | unfollow _ => exact h.requests q hmem
  · intro e hmem
    rw [hwatch] at hmem
    cases c with
    | unfollow id => exact h.entries e (Watch.mem_stop hmem)
    | getResource _ | updateResource _ | updateStatus _ | listResources | getStack _ | getMembers _
    | createStack _ _ | updateStack _ | deleteStack _ | submit _ => exact h.entries e hmem

/-- A calm event leaves a status as it should be. -/
theorem has_after_event (h : s.store.Has l r) (hP : P r.status) (he : Calm l r P e)
    (hs : s.Serves e s') : ∃ st, s'.store.Has l (r.withStatus st) ∧ P st := by
  obtain ⟨hstore, -⟩ := hs
  obtain ⟨c, answer⟩ := e
  cases c with
  | getResource _ =>
    rw [hstore.2]
    exact ⟨r.status, h, hP⟩
  | updateStatus w =>
    obtain ⟨hl, huid, hPw⟩ := he
    exact ⟨w.status, (h.updateStatus hstore hl huid).2, hPw⟩
  | updateResource _ | createStack _ _ | updateStack _ | deleteStack _ => exact he.elim
  | listResources | getStack _ | getMembers _ | submit _ | unfollow _ =>
    have hsame : s'.store = s.store := hstore
    rw [hsame]
    exact ⟨r.status, h, hP⟩

/-- A calm log leaves a status as it should be and the stack to its work. -/
theorem after_calm (h : s.store.Has l r) (hP : P r.status) (ha : s.Attends l)
    (hlog : ∀ e ∈ log, Calm l r P e) (hc : Chain Serves s log s') :
    (∃ st, s'.store.Has l (r.withStatus st) ∧ P st) ∧ Obliging.Works s.stack s'.stack ∧
      s'.Attends l := by
  induction log generalizing s r with
  | nil =>
    cases hc
    exact ⟨⟨r.status, h, hP⟩, .rests _, ha⟩
  | cons e log ih =>
    rw [List.forall_mem_cons] at hlog
    obtain ⟨m, hm, hc⟩ := hc
    obtain ⟨st, hst, hPst⟩ := has_after_event h hP hlog.1 hm
    have hatt : m.Attends l := ha.after hm fun q answer he => by
      subst he
      exact hlog.1
    obtain ⟨⟨st', hst', hPst'⟩, hworks, hatt'⟩ := ih hst hPst hatt hlog.2 hc
    exact ⟨⟨st', hst', hPst'⟩,
      (Obliging.works_of_serves hm.2.1 hlog.1.isMutation).trans hworks, hatt'⟩

/-- A refresh is calm. -/
theorem calm_of_refreshLog {b : RemoteStack} {x : Except Error (Resource × Bool)}
    (h : Refresh.RefreshLog r b log x) (hl : r.locator = l)
    (hP : ∀ members, P (r.status.merge b members)) : ∀ e ∈ log, Calm l r P e := by
  cases h with
  | unlisted e => simp [Calm]
  | noNews members hn => simp [Calm]
  | written members hn => simpa [Calm] using ⟨hl, rfl, hP members⟩
  | gone members hn e he => simpa [Calm] using ⟨hl, rfl, hP members⟩
  | unwritten members hn e he => simpa [Calm] using ⟨hl, rfl, hP members⟩

/-! ## How a scene answers -/

theorem serves_read (h : s.store.get l = .ok r) : s.Serves ⟨.getResource l, .ok r⟩ s :=
  ⟨⟨h.symm, rfl⟩, ⟨_, .rests _, rfl⟩, rfl, rfl⟩

theorem serves_found {b : RemoteStack} {ref : String} (h : s.stack = some b)
    (href : b.isNamed ref = true) : s.Serves ⟨.getStack ref, .ok b⟩ s := by
  refine ⟨rfl, ⟨_, .rests _, rfl, ?_⟩, rfl, rfl⟩
  rw [h, Option.filter_some, if_pos href]

theorem serves_notFound {e : Error} {ref : String} (h : s.stack = none)
    (he : e.isStackNotFound = true) : s.Serves ⟨.getStack ref, .error e⟩ s := by
  refine ⟨rfl, ⟨_, .rests _, rfl, ?_⟩, rfl, rfl⟩
  rw [h]
  exact ⟨e, he, rfl⟩

theorem serves_members (id : String) (answer : Except Error (List Member)) :
    s.Serves ⟨.getMembers id, answer⟩ s := ⟨rfl, ⟨_, .rests _, rfl⟩, rfl, rfl⟩

theorem serves_created {b : RemoteStack} {inputs : StackInputs} (onFailure : Option String)
    (hid : b.id ≠ "") (hname : b.name = inputs.stack) (h : Obliging.Stands b.id inputs.tags b) :
    s.Serves ⟨.createStack inputs onFailure, .ok b.id⟩ { s with stack := some b } :=
  ⟨rfl, ⟨_, .rests _, b, hid, hname, h, rfl, rfl⟩, rfl, rfl⟩

theorem serves_updated {b c : RemoteStack} {inputs : StackInputs} (hb : s.stack = some b)
    (hnamed : b.isNamed inputs.stack = true) (hname : c.name = b.name)
    (h : Obliging.Stands b.id inputs.tags c) :
    s.Serves ⟨.updateStack inputs, .ok ()⟩ { s with stack := some c } := by
  refine ⟨rfl, ⟨_, .rests _, ?_⟩, rfl, rfl⟩
  simp only [Obliging.Grants, hb, Option.filter_some, if_pos hnamed]
  exact ⟨c, hname, h, trivial, rfl⟩

theorem serves_written {w : Resource} {store : Store}
    (h : s.store.updateStatus w = (.ok (), store)) :
    s.Serves ⟨.updateStatus w, .ok ()⟩ { s with store := store } :=
  ⟨h, ⟨_, .rests _, rfl⟩, rfl, rfl⟩

theorem serves_submitted (q : FollowRequest) :
    s.Serves ⟨.submit q, ()⟩ { s with hub := s.hub.submit q } :=
  ⟨rfl, ⟨_, .rests _, rfl⟩, rfl, rfl⟩

theorem serves_unfollowed (id : String) :
    s.Serves ⟨.unfollow id, ()⟩ { s with watch := s.watch.stop id } :=
  ⟨rfl, ⟨_, .rests _, rfl⟩, rfl, rfl⟩

end Scene
end StackKeeper
