import StackKeeper.Proofs.MutationGuard
import StackKeeper.Proofs.Observation
import StackKeeper.Proofs.Scene
import StackKeeper.Store.Request
/-!
# What a pass and a tick do around a resource

A resource begins without a stack (`Fresh`), and once its stack is created it keeps the id of it and
the hash of its inputs (`Live`). A pass or a tick leaves a scene of one kind in one of these two, and
says with it which calls that change remote stacks it made.

Results:
* `Fresh.pass`: a first pass adds the finalizer, and the next one creates the stack.
* `Live.pass`: a pass over a stack that is done updates it exactly if it is not current.
* `Fresh.tick`, `Live.tick`: a tick changes nothing that a pass goes by.
-/
namespace StackKeeper

/-! ## Mutating calls of a log -/

namespace Log

variable {log rest : Log}

def mutations (log : Log) : List Call := log.calls.filter Call.isMutation

@[simp] theorem mutations_nil : mutations [] = [] := rfl

@[simp] theorem mutations_append : (log ++ rest).mutations = log.mutations ++ rest.mutations := by
  rw [mutations, calls_append, List.filter_append, mutations, mutations]

@[simp] theorem mutations_cons {e : Event} :
    mutations (e :: log) = if e.1.isMutation then e.1 :: log.mutations else log.mutations := by
  simp only [mutations, calls_cons, List.filter_cons]

theorem mutations_eq_nil (h : ∀ c, ¬ log.Mutates c) : log.mutations = [] := by
  rw [mutations, List.filter_eq_nil_iff]
  exact fun c hc hm => h c ⟨hc, hm⟩

end Log

namespace Follow

variable {id : String} {l : Locator} {log : Log} {secs : Nat} {entries : List (String × Locator)}
  {sum total : TickSummary}

theorem mutations_lookLog {x : Except Error EntryOutcome} (h : LookLog id l log x) :
    log.mutations = [] := by
  cases h with
  | unread e he | resourceGone e he | unseen r e he | stackGone r e he => rfl
  | unrefreshed r s e h | atWork r s ht h =>
    simpa [Call.isMutation] using Log.mutations_eq_nil fun c => Pass.not_mutates_refreshLog h
  | settled r s ht h =>
    simpa [Call.isMutation] using Log.mutations_eq_nil fun c => Pass.not_mutates_refreshLog h

/-- A tick changes no remote stack. -/
theorem mutations_lookAtAll (h : Program.Ran (lookAtAll secs sum entries) log total) :
    log.mutations = [] := by
  induction entries generalizing sum log with
  | nil =>
    obtain ⟨rfl, -⟩ := h
    rfl
  | cons e entries ih =>
    obtain ⟨x, first, rest, hfirst, hrest, rfl⟩ := ran_lookAtAll_cons.mp h
    rw [Log.mutations_append, mutations_lookLog hfirst, ih hrest, List.append_nil]

end Follow

/-! ## Inputs and records -/

/-- The spec has a template and leaves the tag of the operator alone. -/
structure Spec.IsProper (s : Spec) : Prop where
  template : s.HasOneTemplate
  apart : s.tags.get? controllerKey = none

/-- The policy lets calls through and leaves the tag of the operator alone. -/
structure Policy.IsProper (p : Policy) : Prop where
  wet : p.dryRun = false
  apart : p.defaultTags.get? controllerKey = none

theorem Policy.IsProper.get?_controllerKey {p : Policy} {r : Resource} (hp : p.IsProper)
    (hr : r.spec.IsProper) : (p.effectiveTags r).get? controllerKey = some controllerValue := by
  have hmark : (ownershipTags r.metadata.uid).get? controllerKey = some controllerValue := by
    have hne : controllerKey ≠ ownerKey := by decide
    rw [ownershipTags, TextMap.ofList, TextMap.insertAll, List.foldl_cons, List.foldl_cons,
      List.foldl_nil, TextMap.get?_insert, if_neg hne, TextMap.get?_insert, if_pos rfl]
  rw [get?_effectiveTags, hr.apart, hp.apart, Option.none_or, Option.none_or, hmark]

/-- What was recorded of the stack is the same. -/
def Status.SameRecord (st st' : Status) : Prop :=
  st'.stackId = st.stackId ∧ st'.appliedHash = st.appliedHash

/-- An observation of the recorded stack keeps the record. -/
theorem Status.sameRecord_merge {st : Status} {b : RemoteStack} (h : b.id = st.stackId)
    (members : List Member) : st.SameRecord (st.merge b members) := by
  refine ⟨?_, rfl⟩
  rw [stackId_merge, h, ite_self]

/-- The resource later on, when nothing changed but what was observed of its stack. -/
def Resource.Keeps (r r' : Resource) : Prop := ∃ st, r' = r.withStatus st ∧ r.status.SameRecord st

namespace Resource

variable {r r' r'' : Resource}

theorem Keeps.refl (r : Resource) : r.Keeps r := ⟨r.status, rfl, rfl, rfl⟩

theorem Keeps.trans (h : r.Keeps r') (h' : r'.Keeps r'') : r.Keeps r'' := by
  obtain ⟨st, rfl, hid, hhash⟩ := h
  obtain ⟨st', rfl, hid', hhash'⟩ := h'
  exact ⟨st', rfl, hid'.trans hid, hhash'.trans hhash⟩

theorem Keeps.spec_eq (h : r.Keeps r') : r'.spec = r.spec := by
  obtain ⟨st, rfl, -⟩ := h
  rfl

end Resource

namespace Scene
open Follow Pass Obliging

variable {p : Policy} {l : Locator} {r r' : Resource} {t : Template} {tags : TextMap}
  {s s' m : Scene} {log : Log} {b : RemoteStack} {e : Event}

/-- The stack is there and done. -/
def IsDone (s : Scene) : Prop := ∃ b, s.stack = some b ∧ b.IsDone

theorem IsDone.of_works (h : s.IsDone) (hw : Works s.stack s'.stack) : s'.IsDone := by
  obtain ⟨b, hb, hdone⟩ := h
  rw [hb] at hw
  exact ⟨b, hw.eq_of_isDone hdone, hdone⟩

/-! ## A resource with its stack -/

/-- The resource is stored with the id of its stack, which stands with the given tags and is ours. -/
structure Live (l : Locator) (r : Resource) (tags : TextMap) (s : Scene) : Prop where
  stored : s.store.Has l r
  unmarked : r.isMarked = false
  held : r.hasFinalizer stackFinalizer = true
  known : r.status.stackId ≠ ""
  stack : ∃ b, s.stack = some b ∧ Stands r.status.stackId tags b
  owned : tags.get? controllerKey = some controllerValue
  attends : s.Attends l

/-- The inputs of the resource are the ones recorded, and the stack has their tags. -/
def Current (p : Policy) (r : Resource) (tags : TextMap) : Prop :=
  r.status.appliedHash = Fingerprint.ofResource p r ∧ tags = p.effectiveTags r

theorem current_iff_of_keeps (hk : r.Keeps r') : Current p r' tags ↔ Current p r tags := by
  obtain ⟨st, rfl, -, hhash⟩ := hk
  exact and_congr_left fun _ => ⟨hhash.symm.trans, hhash.trans⟩

theorem current_submittedAs (p : Policy) (r : Resource) :
    Current p (submittedAs p r) (p.effectiveTags r) := ⟨rfl, rfl⟩

theorem Live.standing (h : s.Live l r tags) (hs : Works s.stack m.stack) :
    ∃ b, m.stack = some b ∧ Stands r.status.stackId tags b := by
  obtain ⟨b, hb, hstands⟩ := h.stack
  rw [hb] at hs
  exact hs.stands hstands

/-- A calm log leaves the resource with its stack. -/
theorem Live.after_calm (h : s.Live l r tags)
    (hlog : ∀ e ∈ log, Calm l r r.status.SameRecord e) (hc : Chain Serves s log s') :
    ∃ r', r.Keeps r' ∧ s'.Live l r' tags ∧ Works s.stack s'.stack := by
  obtain ⟨⟨st, hst, hsame⟩, hworks, hatt⟩ :=
    Scene.after_calm h.stored ⟨rfl, rfl⟩ h.attends hlog hc
  refine ⟨r.withStatus st, ⟨st, rfl, hsame⟩, ⟨hst, h.unmarked, h.held, ?_, ?_, h.owned, hatt⟩,
    hworks⟩
  · exact hsame.1 ▸ h.known
  · exact hsame.1 ▸ h.standing hworks

/-- A call that neither writes nor hands over anything leaves the resource as it is. -/
theorem Live.after_question (h : s.Live l r tags) (hm : s.Serves e m) (hstore : m.store = s.store)
    (hq : ∀ P : Status → Prop, Calm l r P e) : m.Live l r tags ∧ Works s.stack m.stack := by
  have hworks := works_of_serves hm.2.1 (hq fun _ => True).isMutation
  refine ⟨⟨hstore ▸ h.stored, h.unmarked, h.held, h.known, h.standing hworks, h.owned, ?_⟩, hworks⟩
  refine h.attends.after hm fun q answer he => ?_
  subst he
  exact hq fun _ => True

/-- What is read is the stored resource. -/
theorem Live.read {answer : Except Error Resource} (h : s.Live l r tags)
    (hm : s.Serves ⟨.getResource l, answer⟩ m) :
    answer = .ok r ∧ m.Live l r tags ∧ Works s.stack m.stack :=
  ⟨hm.1.1.trans h.stored.get, h.after_question hm hm.1.2 fun _ => trivial⟩

/-- A look-up by the recorded id finds the stack. -/
theorem Live.found {answer : Except Error RemoteStack} (h : s.Live l r tags)
    (hm : s.Serves ⟨.getStack r.stackRef, answer⟩ m) : ∃ b, answer = .ok b := by
  obtain ⟨b, hb, hstands⟩ := h.stack
  have hserves := hm.2.1
  rw [hb, Resource.stackRef, if_neg h.known] at hserves
  exact serves_getStack hserves hstands

/-- After the resource was read and a stack was seen, they are the stored one and its own. -/
theorem Live.seen {ref : String} (h : s.Live l r tags)
    (hc : Chain Serves s (⟨.getResource l, .ok r'⟩ :: ⟨.getStack ref, .ok b⟩ :: log) s') :
    r' = r ∧ Stands r.status.stackId tags b ∧ Works s.stack (some b) ∧
      ∃ m, m.Live l r tags ∧ m.stack = some b ∧ Chain Serves m log s' := by
  obtain ⟨m₁, h₁, m₂, h₂, hc⟩ := hc
  obtain ⟨hr, hlive₁, hworks₁⟩ := h.read h₁
  obtain ⟨hlive₂, hworks₂⟩ := hlive₁.after_question h₂ h₂.1 fun _ => trivial
  have hb : m₂.stack = some b := eq_of_serves_getStack h₂.2.1
  obtain ⟨b', hb', hstands⟩ := hlive₂.stack
  cases hb.symm.trans hb'
  exact ⟨Except.ok.inj hr, hstands, hb ▸ hworks₁.trans hworks₂, m₂, hlive₂, hb, hc⟩

/-- A refresh from the stack leaves the resource with it. -/
theorem Live.refresh {x : Except Error (Resource × Bool)} (h : s.Live l r tags)
    (hb : Stands r.status.stackId tags b) (hlog : Refresh.RefreshLog r b log x) :
    ∀ e ∈ log, Calm l r r.status.SameRecord e :=
  calm_of_refreshLog hlog h.stored.own fun members => Status.sameRecord_merge hb.id members

/-- A look at a followed stack leaves the resource with its stack. -/
theorem Live.look {id : String} {x : Except Error EntryOutcome} (h : s.Live l r tags)
    (hlog : LookLog id l log x) (hc : Chain Serves s log s') :
    ∃ r', r.Keeps r' ∧ s'.Live l r' tags ∧ Works s.stack s'.stack := by
  refine h.after_calm ?_ hc
  cases hlog with
  | unread e he | resourceGone e he | unseen r e he | stackGone r e he => simp [Calm]
  | unrefreshed r₁ b e hr =>
    obtain ⟨rfl, hb, -⟩ := h.seen hc
    simpa [Calm] using h.refresh hb hr
  | settled r₁ b ht hr =>
    obtain ⟨rfl, hb, -⟩ := h.seen hc
    simpa [Calm, or_imp, forall_and] using h.refresh hb hr
  | atWork r₁ b ht hr =>
    obtain ⟨rfl, hb, -⟩ := h.seen hc
    simpa [Calm] using h.refresh hb hr

/-- A tick leaves the resource with its stack. -/
theorem Live.tick {secs : Nat} {entries : List (String × Locator)} {sum total : TickSummary}
    (h : s.Live l r tags) (hentries : ∀ e ∈ entries, e.2 = l)
    (hran : Program.Ran (lookAtAll secs sum entries) log total) (hc : Chain Serves s log s') :
    ∃ r', r.Keeps r' ∧ s'.Live l r' tags ∧ Works s.stack s'.stack := by
  induction entries generalizing sum log s r with
  | nil =>
    obtain ⟨rfl, -⟩ := hran
    cases hc
    exact ⟨r, .refl r, h, .rests _⟩
  | cons e entries ih =>
    obtain ⟨x, first, rest, hfirst, hrest, rfl⟩ := ran_lookAtAll_cons.mp hran
    rw [List.forall_mem_cons] at hentries
    obtain ⟨m, hcfirst, hcrest⟩ := chain_append.mp hc
    obtain ⟨r₁, hk₁, hlive₁, hworks₁⟩ := h.look (hentries.1 ▸ hfirst) hcfirst
    obtain ⟨r₂, hk₂, hlive₂, hworks₂⟩ := ih hlive₁ hentries.2 hrest hcrest
    exact ⟨r₂, hk₁.trans hk₂, hlive₂, hworks₁.trans hworks₂⟩

/-- Recording is accepted, and nothing else changes. -/
theorem after_record {w : Resource} {id : String} {o : Outcome} {result : Except Error Outcome}
    (h : s.store.Has l r) (ha : s.Attends l) (hw : w.metadata = r.metadata)
    (hlog : RecordLog w id o log result) (hc : Chain Serves s log s') :
    s'.store.Has l (r.withStatus w.status) ∧ Works s.stack s'.stack ∧ s'.Attends l := by
  have hl : w.locator = l := by rw [Resource.locator, hw, ← h.own, Resource.locator]
  cases hlog with
  | recorded answer ha' =>
    obtain ⟨m, hm, m', hm', rfl⟩ := hc
    refine ⟨?_, (works_of_serves hm.2.1 rfl).trans (works_of_serves hm'.2.1 rfl), ?_⟩
    · have hstore : s'.store = m.store := hm'.1
      rw [hstore]
      exact (h.updateStatus hm.1 hl (congrArg Metadata.uid hw)).2
    · refine (ha.after hm fun q answer he => by cases he).after hm' fun q answer he => ?_
      cases he
      exact hl
  | unrecorded e he =>
    obtain ⟨m, hm, -⟩ := hc
    cases (h.updateStatus hm.1 hl (congrArg Metadata.uid hw)).1

/-- The stack that was seen is neither gone nor another's. -/
theorem Live.ours (h : s.Live l r tags) (hb : Stands r.status.stackId tags b) :
    b.isDeleted = false ∧ b.isControlled = true := by
  constructor
  · cases hd : b.isDeleted with
    | false => rfl
    | true =>
      have hs : b.status = Lifecycle.deleteComplete := by simpa [RemoteStack.isDeleted] using hd
      have hterm : Lifecycle.isTerminal b.status = true := by rw [hs]; decide
      rw [(hb.ends hterm).isDeleted_eq] at hd
      cases hd
  · rw [RemoteStack.isControlled, hb.tags, h.owned]
    decide

theorem isCurrent_iff_current (hb : Stands r.status.stackId tags b)
    (ht : Lifecycle.isTerminal b.status = true) : isCurrent p r b = true ↔ Current p r tags := by
  simp [isCurrent, Current, (hb.ends ht).isSuccessful, hb.tags]

/-- An update of the stack is accepted. -/
theorem Live.update {answer : Except Error Unit} (h : s.Live l r tags)
    (hm : s.Serves ⟨.updateStack (p.inputs r t r.status.stackId), answer⟩ m) :
    answer = .ok () ∧ m.store.Has l r ∧ m.Attends l ∧
      ∃ b, m.stack = some b ∧ Stands r.status.stackId (p.effectiveTags r) b := by
  obtain ⟨b, hb, hstands⟩ := h.stack
  have hstore : m.store = s.store := hm.1
  have hstack := hm.2.1
  rw [hb] at hstack
  obtain ⟨hanswer, hb'⟩ := serves_updateStack hstack hstands
  exact ⟨hanswer, hstore ▸ h.stored, h.attends.after hm (fun q answer he => by cases he), hb'⟩

/-- What a pass does once it has seen that no work is under way: a current stack is observed, and one
that is not current is updated. -/
theorem Live.settle {result : Except Error Outcome} (hp : p.IsProper) (hr : r.spec.IsProper)
    (ht : r.spec.templateSource? = some t) (h : s.Live l r tags)
    (hb : Stands r.status.stackId tags b) (hterm : Lifecycle.isTerminal b.status = true)
    (hlog : UpdateLog p r b log result) (hc : Chain Serves s log s') :
    (log.mutations = [] ∧ Current p r tags ∧
        ∃ r', r.Keeps r' ∧ s'.Live l r' tags ∧ Works s.stack s'.stack) ∨
      (¬ Current p r tags ∧ log.mutations = [.updateStack (p.inputs r t r.status.stackId)] ∧
        ∃ r', (submittedAs p r).Keeps r' ∧ s'.Live l r' (p.effectiveTags r)) := by
  have hcur := isCurrent_iff_current (p := p) hb hterm
  cases hlog with
  | noTemplate ht' => cases ht.symm.trans ht'
  | dryRun t' ht' hnc hdry => cases hp.wet.symm.trans hdry
  | current t' ht' hc' href =>
    exact .inl ⟨Log.mutations_eq_nil fun c => not_mutates_refreshLog href, hcur.mp hc',
      h.after_calm (h.refresh hb href) hc⟩
  | confirmed t' ht' hnc hdry e he hrest | recreated t' ht' hnc hdry e he hrest
  | refused t' ht' hnc hdry e hn he =>
    obtain ⟨m, hm, -⟩ := hc
    rw [hb.id] at hm
    cases (h.update hm).1
  | accepted t' ht' hnc hdry hrec =>
    cases ht.symm.trans ht'
    obtain ⟨m, hm, hrest⟩ := hc
    rw [hb.id] at hm
    obtain ⟨-, hhas, hatt, b', hb', hstands⟩ := h.update hm
    obtain ⟨hhas', hworks, hatt'⟩ := after_record (w := submittedAs p r) hhas hatt rfl hrec hrest
    rw [hb'] at hworks
    refine .inr ⟨fun hc => ?_, ?_, submittedAs p r, .refl _, hhas', h.unmarked, h.held, h.known,
      hworks.stands hstands, hp.get?_controllerKey hr, hatt'⟩
    · rw [hcur.mpr hc] at hnc
      cases hnc
    · have hquiet := Log.mutations_eq_nil fun c => not_mutates_recordLog hrec
      simp [Call.isMutation, hquiet, hb.id]

/-- A pass either makes no call that changes the stack, or it updates a stack that is not current. If
the stack is done, it depends on whether it is current. -/
theorem Live.pass {result : Except Error Outcome} (hp : p.IsProper) (hr : r.spec.IsProper)
    (ht : r.spec.templateSource? = some t) (h : s.Live l r tags) (hlog : PassLog p l log result)
    (hc : Chain Serves s log s') :
    (log.mutations = [] ∧ (s.IsDone → Current p r tags) ∧
        ∃ r', r.Keeps r' ∧ s'.Live l r' tags ∧ Works s.stack s'.stack) ∨
      (¬ Current p r tags ∧ log.mutations = [.updateStack (p.inputs r t r.status.stackId)] ∧
        ∃ r', (submittedAs p r).Keeps r' ∧ s'.Live l r' (p.effectiveTags r)) := by
  cases hlog with
  | gone e he | unread e he =>
    obtain ⟨m, hm, -⟩ := hc
    cases (h.read hm).1
  | read r₁ hres =>
    obtain rfl : r₁ = r := by
      obtain ⟨m, hm, -⟩ := hc
      exact Except.ok.inj (h.read hm).1
    cases hres with
    | idle hm | finalizing hm => cases h.unmarked.symm.trans hm
    | entering hm hf => cases h.held.symm.trans hf
    | settling hm hf hset =>
      cases hset with
      | unseen e he | absent e he hcreate =>
        obtain ⟨m₁, h₁, m₂, h₂, -⟩ := hc
        obtain ⟨b, hb⟩ := (h.read h₁).2.1.found h₂
        cases hb
      | foreign b hb hcreate =>
        obtain ⟨-, hstands, -⟩ := h.seen hc
        simp [h.ours hstands] at hb
      | atWork b hd ho hbusy =>
        obtain ⟨-, hstands, hworks, -⟩ := h.seen hc
        refine .inl ⟨rfl, fun hdone => ?_, h.after_calm ?_ hc⟩
        · obtain ⟨b', hb', hdone'⟩ := hdone
          rw [hb'] at hworks
          cases hworks.eq_of_isDone hdone'
          rw [hdone'.isTerminal] at hbusy
          cases hbusy
        · simpa [Calm, Resource.followRequest] using h.stored.own
      | settled b hd ho hterm hupd =>
        obtain ⟨-, hstands, hworks, m, hlive, hb, hcm⟩ := h.seen hc
        simp only [Log.mutations_cons, Call.isMutation, Bool.false_eq_true, if_false]
        rcases hlive.settle hp hr ht hstands hterm hupd hcm with
          ⟨hmut, hcur, r', hk, hlive', hworks'⟩ | hupdated
        · exact .inl ⟨hmut, fun _ => hcur, r', hk, hlive', hworks.trans (hb ▸ hworks')⟩
        · exact .inr hupdated

/-! ## A resource without a stack -/

/-- The resource is stored, and neither it nor the API knows of a stack. -/
structure Fresh (l : Locator) (r : Resource) (s : Scene) : Prop where
  stored : s.store.Has l r
  unmarked : r.isMarked = false
  blank : r.status = Status.empty
  noStack : s.stack = none
  attends : s.Attends l

/-- Adding a finalizer to what is stored changes nothing else. -/
theorem revise_addFinalizer (r : Resource) (f : String) :
    ∃ fs, Store.revise r (r.addFinalizer f) = r.withFinalizers fs := by
  refine ⟨(r.addFinalizer f).metadata.finalizers, ?_⟩
  unfold Resource.addFinalizer
  split <;> simp [Store.revise, Resource.withFinalizers]

/-- A calm log that writes no other status leaves the resource without a stack. -/
theorem Fresh.after_calm (h : s.Fresh l r) (hlog : ∀ e ∈ log, Calm l r (· = r.status) e)
    (hc : Chain Serves s log s') : s'.Fresh l r := by
  obtain ⟨⟨st, hst, rfl⟩, hworks, hatt⟩ :=
    Scene.after_calm (P := (· = r.status)) h.stored rfl h.attends hlog hc
  rw [h.noStack] at hworks
  exact ⟨hst, h.unmarked, h.blank, hworks.eq_none, hatt⟩

/-- What is read is the stored resource. -/
theorem Fresh.read {answer : Except Error Resource} (h : s.Fresh l r)
    (hm : s.Serves ⟨.getResource l, answer⟩ m) : answer = .ok r ∧ m.Fresh l r := by
  have hc : Chain Serves s [⟨.getResource l, answer⟩] m := ⟨m, hm, rfl⟩
  exact ⟨hm.1.1.trans h.stored.get, h.after_calm (by simp [Calm]) hc⟩

/-- No stack is found. -/
theorem Fresh.lookUp {ref : String} {answer : Except Error RemoteStack} (h : s.Fresh l r)
    (hm : s.Serves ⟨.getStack ref, answer⟩ m) :
    (∃ e : Error, e.isStackNotFound = true ∧ answer = .error e) ∧ m.Fresh l r := by
  have hserves := hm.2.1
  rw [h.noStack] at hserves
  have hc : Chain Serves s [⟨.getStack ref, answer⟩] m := ⟨m, hm, rfl⟩
  exact ⟨serves_getStack_none hserves, h.after_calm (by simp [Calm]) hc⟩

/-- A creation is accepted and recorded. -/
theorem Fresh.create {result : Except Error Outcome} (hp : p.IsProper) (hr : r.spec.IsProper)
    (ht : r.spec.templateSource? = some t) (h : s.Fresh l r)
    (hf : r.hasFinalizer stackFinalizer = true) (hlog : CreateLog p r log result)
    (hc : Chain Serves s log s') :
    log.mutations = [creation p r t] ∧
      ∃ id, s'.Live l (createdAs p r id) (p.effectiveTags r) := by
  cases hlog with
  | noTemplate ht' => cases ht.symm.trans ht'
  | dryRun t' ht' hdry => cases hp.wet.symm.trans hdry
  | refused t' ht' hdry e =>
    obtain ⟨m, hm, -⟩ := hc
    obtain ⟨b, hb, -⟩ := serves_createStack hm.2.1
    cases hb
  | accepted t' ht' hdry id hrec =>
    cases ht.symm.trans ht'
    obtain ⟨m, hm, hrest⟩ := hc
    obtain ⟨b, hid, hne, hb, hstands⟩ := serves_createStack hm.2.1
    cases hid
    have hstore : m.store = s.store := hm.1
    have hhas : m.store.Has l r := hstore ▸ h.stored
    have hatt : m.Attends l := h.attends.after hm fun q answer he => by cases he
    obtain ⟨hhas', hworks, hatt'⟩ :=
      after_record (w := createdAs p r b.id) hhas hatt rfl hrec hrest
    rw [hb] at hworks
    refine ⟨?_, b.id, hhas', h.unmarked, hf, hne, hworks.stands hstands,
      hp.get?_controllerKey hr, hatt'⟩
    have hquiet := Log.mutations_eq_nil fun c => not_mutates_recordLog hrec
    simp [Call.isMutation, hquiet, creation]

/-- Adding the finalizer is accepted. -/
theorem Fresh.enter {answer : Except Error Unit} (h : s.Fresh l r)
    (hm : s.Serves ⟨.updateResource (r.addFinalizer stackFinalizer), answer⟩ s') :
    ∃ fs, s'.Fresh l (r.withFinalizers fs) := by
  obtain ⟨fs, hfs⟩ := revise_addFinalizer r stackFinalizer
  have hadd : (r.addFinalizer stackFinalizer).metadata.uid = r.metadata.uid ∧
      (r.addFinalizer stackFinalizer).locator = r.locator := by
    unfold Resource.addFinalizer
    split <;> exact ⟨rfl, rfl⟩
  have hrel : Store.isReleased (Store.revise r (r.addFinalizer stackFinalizer)) = false := by
    have hmark : (r.withFinalizers fs).isMarked = false := h.unmarked
    rw [hfs, Store.isReleased, hmark, Bool.false_and]
  obtain ⟨s₁, hs₁, hhas⟩ := h.stored.update (hadd.2.trans h.stored.own) hadd.1 hrel
  cases hs₁.symm.trans hm.1
  have hworks := works_of_serves hm.2.1 rfl
  rw [h.noStack] at hworks
  exact ⟨fs, hfs ▸ hhas, h.unmarked, h.blank, hworks.eq_none,
    h.attends.after hm fun q answer he => by cases he⟩

/-- A pass over a resource without a stack adds the finalizer, or it creates the stack. -/
theorem Fresh.pass {result : Except Error Outcome} (hp : p.IsProper) (hr : r.spec.IsProper)
    (ht : r.spec.templateSource? = some t) (h : s.Fresh l r) (hlog : PassLog p l log result)
    (hc : Chain Serves s log s') :
    (log.mutations = [] ∧ ∃ fs, s'.Fresh l (r.withFinalizers fs)) ∨
      log.mutations = [creation p r t] ∧
        ∃ id, s'.Live l (createdAs p r id) (p.effectiveTags r) := by
  cases hlog with
  | gone e he | unread e he =>
    obtain ⟨m, hm, -⟩ := hc
    cases (h.read hm).1
  | read r₁ hres =>
    obtain ⟨m, hm, hc⟩ := hc
    obtain ⟨heq, hfresh⟩ := h.read hm
    cases heq
    cases hres with
    | idle hm | finalizing hm => cases h.unmarked.symm.trans hm
    | entering hm hf answer =>
      obtain ⟨m', hm', rfl⟩ := hc
      exact .inl ⟨rfl, hfresh.enter hm'⟩
    | settling hm hf hset =>
      cases hset with
      | absent e he hcreate =>
        obtain ⟨m', hm', hc⟩ := hc
        obtain ⟨hmut, id, hlive⟩ := (hfresh.lookUp hm').2.create hp hr ht hf hcreate hc
        exact .inr ⟨by simpa [Call.isMutation] using hmut, id, hlive⟩
      | unseen e he =>
        obtain ⟨m', hm', -⟩ := hc
        obtain ⟨⟨e', he', hanswer⟩, -⟩ := hfresh.lookUp hm'
        cases hanswer
        cases he.symm.trans he'
      | foreign b hb hcreate | settled b hd ho hterm hupd | atWork b hd ho hbusy =>
        obtain ⟨m', hm', -⟩ := hc
        obtain ⟨⟨e', -, hanswer⟩, -⟩ := hfresh.lookUp hm'
        cases hanswer

/-- A look at a followed stack where there is none. -/
theorem Fresh.look {id : String} {x : Except Error EntryOutcome} (h : s.Fresh l r)
    (hlog : LookLog id l log x) (hc : Chain Serves s log s') : s'.Fresh l r := by
  refine h.after_calm ?_ hc
  cases hlog with
  | unread e he | resourceGone e he | unseen r e he | stackGone r e he => simp [Calm]
  | unrefreshed r₁ b e hr | settled r₁ b ht hr | atWork r₁ b ht hr =>
    obtain ⟨m, hm, m', hm', -⟩ := hc
    obtain ⟨⟨e', -, hanswer⟩, -⟩ := (h.read hm).2.lookUp hm'
    cases hanswer

/-- A tick where there is no stack. -/
theorem Fresh.tick {secs : Nat} {entries : List (String × Locator)} {sum total : TickSummary}
    (h : s.Fresh l r) (hentries : ∀ e ∈ entries, e.2 = l)
    (hran : Program.Ran (lookAtAll secs sum entries) log total) (hc : Chain Serves s log s') :
    s'.Fresh l r := by
  induction entries generalizing sum log s with
  | nil =>
    obtain ⟨rfl, -⟩ := hran
    cases hc
    exact h
  | cons e entries ih =>
    obtain ⟨x, first, rest, hfirst, hrest, rfl⟩ := ran_lookAtAll_cons.mp hran
    rw [List.forall_mem_cons] at hentries
    obtain ⟨m, hcfirst, hcrest⟩ := chain_append.mp hc
    exact ih (h.look (hentries.1 ▸ hfirst) hcfirst) hentries.2 hrest hcrest

end Scene
end StackKeeper
