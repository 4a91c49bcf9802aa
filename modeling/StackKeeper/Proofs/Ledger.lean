import StackKeeper.Proofs.FeedText
import StackKeeper.Proofs.MutationGuard
import StackKeeper.Proofs.PassWrites
import StackKeeper.Proofs.Serving
/-!
# What the provisioning API accepted and what was recorded

For each stack the ledger keeps the inputs that the API accepted last, also when its answer was lost
on the way. A pass records inputs by writing their hash after they were accepted.

Results:
* `Fingerprint.same_of_bytesOf_eq`: what is digested tells the inputs.
* `Ledger.entered_of_acceptsLast`: what a log shows to be accepted last stands in the ledger.
* `records_of_passLog`: a pass writes the hash that was stored, or that of the inputs it records.
-/
namespace StackKeeper

/-! ## Inputs -/

/-- The inputs are the same, but for the order of the two lists; an unset role is the empty one. -/
structure StackInputs.Same (i j : StackInputs) : Prop where
  template : i.template = j.template
  parameters : i.parameters = j.parameters
  tags : i.tags = j.tags
  capabilities : i.capabilities.Perm j.capabilities
  role : i.role.getD "" = j.role.getD ""
  notifications : i.notifications.Perm j.notifications

namespace StackInputs

variable {i j k : StackInputs}

theorem Same.symm (h : i.Same j) : j.Same i :=
  ⟨h.template.symm, h.parameters.symm, h.tags.symm, h.capabilities.symm, h.role.symm,
    h.notifications.symm⟩

theorem Same.trans (h : i.Same j) (h' : j.Same k) : i.Same k :=
  ⟨h.template.trans h'.template, h.parameters.trans h'.parameters, h.tags.trans h'.tags,
    h.capabilities.trans h'.capabilities, h.role.trans h'.role,
    h.notifications.trans h'.notifications⟩

end StackInputs

theorem Spec.given_eq (o : Option String) :
    Spec.given o = if o.getD "" = "" then none else some (o.getD "") := by
  cases o with
  | none => rfl
  | some s => by_cases h : s = "" <;> simp [Spec.given, Option.filter, h]

theorem Spec.templateSource?_congr {a b : Spec} (ht : a.template.getD "" = b.template.getD "")
    (hu : a.templateUrl.getD "" = b.templateUrl.getD "") :
    a.templateSource? = b.templateSource? := by
  rw [templateSource?, templateSource?, given_eq, given_eq, given_eq b.template,
    given_eq b.templateUrl, ht, hu]

namespace Fingerprint

/-- The bytes that are digested for a resource. -/
def bytesOf (p : Policy) (r : Resource) : List UInt8 :=
  feed r.spec (p.effectiveTags r) (p.effectiveCapabilities r)

/-- The texts of the inputs of a resource are short enough. -/
def ResourceFits (p : Policy) (r : Resource) : Prop :=
  AllFit r.spec (p.effectiveTags r) (p.effectiveCapabilities r)

/-- The hash depends on the spec and the uid alone. -/
theorem ofResource_congr {p : Policy} {r r' : Resource} (hs : r.spec = r'.spec)
    (hu : r.metadata.uid = r'.metadata.uid) : ofResource p r = ofResource p r' := by
  simp only [ofResource, Policy.effectiveTags, Policy.effectiveCapabilities, hs, hu]

/-- The hash does not tell an empty role from none. -/
theorem ofResource_of_role_empty {p : Policy} {r r' : Resource}
    (hs : r'.spec = { r.spec with role := some "" }) (hr : r.spec.role = none)
    (hu : r'.metadata.uid = r.metadata.uid) : ofResource p r' = ofResource p r := by
  simp only [ofResource, hash, feed, Policy.effectiveTags, Policy.effectiveCapabilities, hs, hr, hu,
    optionalField, Option.getD_none, Option.getD_some]

/-- Resources whose digested bytes are equal have the same inputs. -/
theorem same_of_bytesOf_eq {p p' : Policy} {r r' : Resource} {t t' : Template} {id id' : String}
    (hf : ResourceFits p r) (hf' : ResourceFits p' r') (ht : r.spec.templateSource? = some t)
    (ht' : r'.spec.templateSource? = some t') (h : bytesOf p r = bytesOf p' r') :
    (p.inputs r t id).Same (p'.inputs r' t' id') := by
  have hagree := agree_of_feed_eq hf hf' h
  rw [Spec.templateSource?_congr hagree.template hagree.templateUrl, ht'] at ht
  exact ⟨(Option.some.inj ht).symm, hagree.parameters, hagree.tags, hagree.capabilities, hagree.role,
    hagree.notifications⟩

end Fingerprint

/-! ## The ledger -/

/-- The inputs that were accepted last, by the id of the stack. -/
abbrev Ledger := String → Option StackInputs

namespace Ledger

/-- Enters inputs for the stack that they are addressed to. -/
def enter (g : Ledger) (i : StackInputs) : Ledger := fun id => if id = i.stack then some i else g id

/-- What an event does to the ledger. A call that failed may have taken effect all the same, unless
it was answered that there is nothing to update, which confirms the inputs. -/
def Notes (g : Ledger) (e : Event) (g' : Ledger) : Prop :=
  match e with
  | ⟨.createStack inputs _, .ok id⟩ => g' = g.enter { inputs with stack := id }
  | ⟨.createStack inputs _, .error _⟩ => g' = g ∨ ∃ id, g' = g.enter { inputs with stack := id }
  | ⟨.updateStack inputs, .ok ()⟩ => g' = g.enter inputs
  | ⟨.updateStack inputs, .error e⟩ =>
    if e.isNoUpdates then g' = g.enter inputs else g' = g ∨ g' = g.enter inputs
  | _ => g' = g

end Ledger

namespace Event

/-- The inputs that an answer shows to be accepted or confirmed. -/
def accepted? : Event → Option StackInputs
  | ⟨.createStack inputs _, .ok id⟩ => some { inputs with stack := id }
  | ⟨.updateStack inputs, .ok ()⟩ => some inputs
  | ⟨.updateStack inputs, .error e⟩ => if e.isNoUpdates then some inputs else none
  | _ => none

def isStatusWrite : Event → Bool
  | ⟨.updateStatus _, .ok ()⟩ => true
  | _ => false

end Event

namespace Log

/-- The inputs that a log shows to be accepted and that were recorded afterwards. -/
def recorded? : Log → Option StackInputs
  | [] => none
  | e :: rest =>
    match Event.accepted? e with
    | some i => if rest.any Event.isStatusWrite then some i else recorded? rest
    | none => recorded? rest

variable {log rest : Log} {e : Event}

theorem accepted?_eq_none (h : e.1.isMutation = false) : Event.accepted? e = none := by
  obtain ⟨c, answer⟩ := e
  cases c <;> first | rfl | cases h

theorem recorded?_eq_none (h : ∀ e ∈ log, Event.accepted? e = none) : log.recorded? = none := by
  induction log with
  | nil => rfl
  | cons e log ih =>
    rw [recorded?, h e List.mem_cons_self]
    exact ih fun d hd => h d (List.mem_cons_of_mem _ hd)

theorem any_isStatusWrite : log.any Event.isStatusWrite = true ↔
    ∃ w, (⟨.updateStatus w, .ok ()⟩ : Event) ∈ log := by
  rw [List.any_eq_true]
  constructor
  · rintro ⟨⟨c, answer⟩, he, hw⟩
    cases c with
    | updateStatus w =>
      cases answer with
      | ok u => exact ⟨w, he⟩
      | error e => cases hw
    | _ => cases hw
  · rintro ⟨w, hw⟩
    exact ⟨_, hw, rfl⟩

/-- The inputs are the last that the log shows to be accepted, and no stack is touched afterwards. -/
def AcceptsLast (log : Log) (i : StackInputs) : Prop :=
  ∃ before e after, log = before ++ e :: after ∧ Event.accepted? e = some i ∧
    ∀ c, ¬ Mutates after c

theorem AcceptsLast.cons {i : StackInputs} (h : log.AcceptsLast i) : AcceptsLast (e :: log) i := by
  obtain ⟨before, d, after, rfl, hd, hn⟩ := h
  exact ⟨e :: before, d, after, rfl, hd, hn⟩

/-- A log without calls that change stacks shows nothing to be accepted. -/
theorem accepted?_of_not_mutates (h : ∀ c, ¬ log.Mutates c) :
    ∀ e ∈ log, Event.accepted? e = none := by
  intro e he
  cases hm : e.1.isMutation with
  | true => exact absurd ⟨List.mem_map.mpr ⟨e, he, rfl⟩, hm⟩ (h e.1)
  | false => exact accepted?_eq_none hm

end Log

namespace Ledger

variable {g g' : Ledger} {e : Event} {i : StackInputs} {log : Log}

theorem enter_self (g : Ledger) (i : StackInputs) : g.enter i i.stack = some i := by simp [enter]

theorem notes_of_accepted (h : g.Notes e g') (ha : Event.accepted? e = some i) :
    g' = g.enter i := by
  obtain ⟨c, answer⟩ := e
  cases c with
  | createStack inputs onFailure =>
    cases answer with
    | ok id =>
      cases ha
      exact h
    | error e => cases ha
  | updateStack inputs =>
    cases answer with
    | ok u =>
      cases ha
      exact h
    | error e =>
      cases hn : e.isNoUpdates with
      | true =>
        simp only [Event.accepted?, hn, if_true, Option.some.injEq] at ha
        simp only [Notes, hn, if_true] at h
        rw [h, ha]
      | false => simp [Event.accepted?, hn] at ha
  | _ => cases ha

theorem notes_of_not_mutation (h : g.Notes e g') (he : e.1.isMutation = false) : g' = g := by
  obtain ⟨c, answer⟩ := e
  cases c with
  | createStack inputs onFailure => cases he
  | updateStack inputs => cases he
  | _ => exact h

theorem unchanged_of_not_mutates (h : Chain Notes g log g') (hn : ∀ c, ¬ log.Mutates c) :
    g' = g := by
  induction log generalizing g with
  | nil => exact h
  | cons e log ih =>
    obtain ⟨g₁, he, h⟩ := h
    have hfirst : e.1.isMutation = false := by
      cases hm : e.1.isMutation with
      | false => rfl
      | true => exact absurd (Log.mutates_cons.mpr (.inl ⟨hm, rfl⟩)) (hn e.1)
    rw [ih h fun c hc => hn c (Log.mutates_cons.mpr (.inr hc)), notes_of_not_mutation he hfirst]

/-- What a log shows to be accepted last stands in the ledger after it. -/
theorem entered_of_acceptsLast (h : Chain Notes g log g') (ha : log.AcceptsLast i) :
    g' i.stack = some i := by
  obtain ⟨before, e, after, rfl, he, hn⟩ := ha
  obtain ⟨g₁, -, g₂, hnote, hafter⟩ := chain_append.mp h
  rw [unchanged_of_not_mutates hafter hn, notes_of_accepted hnote he, enter_self]

end Ledger

/-! ## What a pass records -/

namespace Pass
open Refresh

variable {p : Policy} {l : Locator} {r : Resource} {s : RemoteStack} {log rest : Log}
  {result : Except Error Outcome}

/-- A log shows nothing to be recorded, and the hash is written as it was, or it shows the inputs of
the resource to be accepted last and recorded, and their hash is written. -/
def Records (p : Policy) (r : Resource) (log : Log) : Prop :=
  (log.recorded? = none ∧ ∀ w, ⟨.updateStatus w, .ok ()⟩ ∈ log →
      w.status.appliedHash = r.status.appliedHash) ∨
    ∃ t id, r.spec.templateSource? = some t ∧ log.recorded? = some (p.inputs r t id) ∧
      log.AcceptsLast (p.inputs r t id) ∧ (∃ w, ⟨.updateStatus w, .ok ()⟩ ∈ log) ∧
        ∀ w, ⟨.updateStatus w, .ok ()⟩ ∈ log →
          w.status.appliedHash = Fingerprint.ofResource p r

theorem records_of_not_mutates (hn : ∀ c, ¬ log.Mutates c)
    (hw : ∀ w, ⟨.updateStatus w, .ok ()⟩ ∈ log → w.status.appliedHash = r.status.appliedHash) :
    Records p r log := .inl ⟨Log.recorded?_eq_none (Log.accepted?_of_not_mutates hn), hw⟩

theorem mem_cons_of_not_write {e : Event} {w : Resource} (he : Event.isStatusWrite e = false) :
    (⟨.updateStatus w, .ok ()⟩ : Event) ∈ e :: rest ↔ ⟨.updateStatus w, .ok ()⟩ ∈ rest := by
  rw [List.mem_cons, or_iff_right]
  rintro rfl
  cases he

/-- An event that neither shows inputs to be accepted nor writes a status changes nothing. -/
theorem Records.cons {e : Event} (ha : Event.accepted? e = none)
    (hs : Event.isStatusWrite e = false) (h : Records p r rest) : Records p r (e :: rest) := by
  have hrec : Log.recorded? (e :: rest) = rest.recorded? := by simp [Log.recorded?, ha]
  unfold Records
  simp only [mem_cons_of_not_write hs, hrec]
  rcases h with h | ⟨t, id, ht, hr, hlast, hw⟩
  · exact .inl h
  · exact .inr ⟨t, id, ht, hr, hlast.cons, hw⟩

/-- Accepted inputs are recorded if a status is written afterwards. -/
theorem records_of_accepted {e : Event} {t : Template} {id : String}
    (ht : r.spec.templateSource? = some t) (ha : Event.accepted? e = some (p.inputs r t id))
    (hn : ∀ c, ¬ Log.Mutates rest c)
    (hw : ∀ w, ⟨.updateStatus w, .ok ()⟩ ∈ rest →
      w.status.appliedHash = Fingerprint.ofResource p r) : Records p r (e :: rest) := by
  have hs : Event.isStatusWrite e = false := by
    obtain ⟨c, answer⟩ := e
    cases c <;> first | rfl | cases ha
  unfold Records
  simp only [mem_cons_of_not_write hs]
  cases hany : rest.any Event.isStatusWrite with
  | true =>
    exact .inr ⟨t, id, ht, by simp [Log.recorded?, ha, hany], ⟨[], e, rest, rfl, ha, hn⟩,
      Log.any_isStatusWrite.mp hany, hw⟩
  | false =>
    have hnone : Log.recorded? rest = none :=
      Log.recorded?_eq_none (Log.accepted?_of_not_mutates hn)
    refine .inl ⟨by simp [Log.recorded?, ha, hany, hnone], fun w hm => ?_⟩
    rw [Log.any_isStatusWrite.mpr ⟨w, hm⟩] at hany
    cases hany

theorem records_of_refreshLog {x : Except Error (Resource × Bool)} (h : RefreshLog r s log x) :
    Records p r log := by
  refine records_of_not_mutates (fun _ => not_mutates_refreshLog h) fun w hw => ?_
  obtain ⟨members, rfl⟩ := writes_of_refreshLog h hw
  rfl

theorem records_of_releaseLog {o : Outcome} (h : ReleaseLog r o log result) : Records p r log :=
  records_of_not_mutates (fun _ => not_mutates_releaseLog h) fun _ hw =>
    absurd hw (not_mem_releaseLog h)

theorem records_of_createLog (h : CreateLog p r log result) : Records p r log := by
  cases h with
  | noTemplate ht => exact records_of_not_mutates (by simp) (by simp)
  | dryRun t ht hd => exact records_of_not_mutates (by simp) (by simp)
  | refused t ht hd e => exact .inl ⟨rfl, by simp⟩
  | accepted t ht hd id h =>
    refine records_of_accepted ht rfl (fun c => not_mutates_recordLog h) fun w hw => ?_
    rw [writes_of_recordLog h hw]
    rfl

theorem records_of_updateLog (h : UpdateLog p r s log result) : Records p r log := by
  cases h with
  | noTemplate ht => exact records_of_not_mutates (by simp) (by simp)
  | current t ht hc h => exact records_of_refreshLog h
  | dryRun t ht hc hd => exact records_of_not_mutates (by simp) (by simp)
  | accepted t ht hc hd h =>
    refine records_of_accepted ht rfl (fun c => not_mutates_recordLog h) fun w hw => ?_
    rw [writes_of_recordLog h hw]
    rfl
  | confirmed t ht hc hd e he h =>
    have ha : Event.accepted? ⟨.updateStack (p.inputs r t s.id), .error e⟩ =
        some (p.inputs r t s.id) := by simp [Event.accepted?, he]
    refine records_of_accepted ht ha (fun c => not_mutates_confirmLog h) fun w hw => ?_
    rcases writes_of_confirmLog h hw with rfl | ⟨members, rfl⟩ <;> rfl
  | recreated t ht hc hd e he h =>
    have hn := Error.isNoUpdates_of_isStackNotFound he
    exact (records_of_createLog h).cons (by simp [Event.accepted?, hn]) rfl
  | refused t ht hc hd e hn he => exact .inl ⟨by simp [Log.recorded?, Event.accepted?, hn], by simp⟩

theorem records_of_settleLog (h : SettleLog p r log result) : Records p r log := by
  cases h with
  | unseen e he => exact .inl ⟨rfl, by simp⟩
  | absent e he h => exact (records_of_createLog h).cons rfl rfl
  | foreign s hs h => exact (records_of_createLog h).cons rfl rfl
  | settled s hs hc ht h => exact (records_of_updateLog h).cons rfl rfl
  | atWork s hs hc ht => exact .inl ⟨rfl, by simp⟩

theorem records_of_deleteLog (h : DeleteLog p r log result) : Records p r log := by
  cases h with
  | dryRun hd => exact .inl ⟨rfl, by simp⟩
  | unseen hd e he => exact .inl ⟨rfl, by simp⟩
  | absent hd e he h => exact (records_of_releaseLog h).cons rfl rfl
  | foreign hd s hc h => exact (records_of_releaseLog h).cons rfl rfl
  | atWork hd s hc hs => exact .inl ⟨rfl, by simp⟩
  | refused hd s hc hs e => exact .inl ⟨rfl, by simp⟩
  | accepted hd s hc hs => exact .inl ⟨rfl, by simp⟩

theorem records_of_finalizeLog (h : FinalizeLog p r log result) : Records p r log := by
  cases h with
  | recorded hs h => exact records_of_releaseLog h
  | unseen hs e he => exact .inl ⟨rfl, by simp⟩
  | absent hs e he h => exact (records_of_releaseLog h).cons rfl rfl
  | deleted hs s hd h => exact (records_of_releaseLog h).cons rfl rfl
  | standing hs s hd h => exact (records_of_deleteLog h).cons rfl rfl

/-- A pass that reads no resource shows nothing to be recorded, and writes nothing. -/
theorem records_of_passLog (h : PassLog p l log result) :
    (log.recorded? = none ∧ ∀ w, ⟨.updateStatus w, .ok ()⟩ ∉ log) ∨
      ∃ r rest, log = ⟨.getResource l, .ok r⟩ :: rest ∧ Records p r log := by
  cases h with
  | gone e he => exact .inl ⟨rfl, by simp⟩
  | unread e he => exact .inl ⟨rfl, by simp⟩
  | read r h =>
    refine .inr ⟨r, _, rfl, ?_⟩
    cases h with
    | idle hm hf => exact .inl ⟨rfl, by simp⟩
    | finalizing hm hf h => exact (records_of_finalizeLog h).cons rfl rfl
    | settling hm hf h => exact (records_of_settleLog h).cons rfl rfl
    | entering hm hf answer => exact .inl ⟨rfl, by simp⟩

end Pass

end StackKeeper
