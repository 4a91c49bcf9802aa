import StackKeeper.Api.Reply
import StackKeeper.Proofs.MutationGuard
/-!
# What the reply to an update call leads to

A refused update call is told apart by the message of the refusal alone. A pass takes a message with
the phrase of a missing stack for one about the stack that it updates and creates another one,
whatever the message is about; no other message makes a pass that updates create a stack.

Results:
* `contains_iff`: when a text contains another one.
* `isStackNotFound_iff`, `isNoUpdates_iff`: what a refusal is taken for.
* `pass_at_update`: where in a pass the update call stands.
* `recreates_iff_saysMissing`: when a pass goes on from an update call to a create call.
-/
namespace StackKeeper

namespace Text

theorem occursIn_iff {needle s : List Char} : occursIn needle s = true ↔ needle <:+: s := by
  induction s with
  | nil => simp [occursIn]
  | cons c s ih => rw [occursIn, Bool.or_eq_true, List.isPrefixOf_iff_prefix, ih, List.infix_cons_iff]

theorem contains_iff {s needle : String} :
    contains s needle = true ↔ needle.toList <:+: s.toList := occursIn_iff

end Text

namespace Api.Reply
open Text

variable {inputs : StackInputs} {reply : Reply} {e : Error} {phrase : String}

/-- The reply is a refusal whose message has the phrase somewhere in it. -/
def Says (reply : Reply) (phrase : String) : Prop :=
  ∃ code message, reply = .refused code message ∧ phrase.toList <:+: (message.getD "").toList

/-- The reply has the phrase of a missing stack, and not the one of an update without changes. -/
def SaysMissing (reply : Reply) : Prop :=
  reply.Says doesNotExistPhrase ∧ ¬ reply.Says noUpdatesPhrase

/-- What an update call is told by its reply. -/
def updateAnswer (inputs : StackInputs) (reply : Reply) : Except Error Unit :=
  (reply.result (.update inputs)).map fun _ => ()

theorem says_refused {code message : Option String} :
    (refused code message).Says phrase ↔ contains (message.getD "") phrase = true := by
  rw [contains_iff]
  constructor
  · rintro ⟨_, _, h, hs⟩
    cases h
    exact hs
  · exact fun h => ⟨code, message, rfl, h⟩

@[simp] theorem not_says_unreachable {reason : String} : ¬ (unreachable reason).Says phrase := by
  rintro ⟨_, _, h, -⟩
  cases h

/-- A refusal is taken for one of an update without changes by its phrase. -/
theorem isNoUpdates_iff (h : updateAnswer inputs reply = .error e) :
    e.isNoUpdates = true ↔ reply.Says noUpdatesPhrase := by
  cases reply with
  | refused code message =>
    cases h
    rw [says_refused, classify]
    split
    · simp_all [Error.isNoUpdates]
    · split <;> (try split) <;> simp_all [Error.isNoUpdates]
  | unreachable reason =>
    cases h
    simp [Error.isNoUpdates]
  | granted descriptions members stackId => cases h

/-- A refusal is taken for one of a missing stack by its phrase, unless it has the other one. -/
theorem isStackNotFound_iff (h : updateAnswer inputs reply = .error e) :
    e.isStackNotFound = true ↔ reply.SaysMissing := by
  cases reply with
  | refused code message =>
    cases h
    rw [SaysMissing, says_refused, says_refused, classify]
    split
    · simp_all [Error.isStackNotFound]
    · split <;> (try split) <;> simp_all [Error.isStackNotFound]
  | unreachable reason =>
    cases h
    simp [SaysMissing, Error.isStackNotFound]
  | granted descriptions members stackId => cases h

theorem not_saysMissing_of_ok (h : updateAnswer inputs reply = .ok ()) : ¬ reply.SaysMissing := by
  rintro ⟨⟨code, message, rfl, -⟩, -⟩
  cases h

end Api.Reply

namespace Pass
open Log Api Api.Reply

variable {p : Policy} {l : Locator} {r : Resource} {s : RemoteStack} {log rest : Log}
  {result : Except Error Outcome} {inputs : StackInputs} {answer : Except Error Unit} {reply : Reply}

/-! ## The update call of a pass -/

theorem not_mem_of_not_mutates {rest : Log} (h : ¬ rest.Mutates (.updateStack inputs)) :
    ⟨.updateStack inputs, answer⟩ ∉ rest := fun hmem => h ⟨mem_calls_of_mem hmem, rfl⟩

theorem not_updates_createLog (h : CreateLog p r log result) :
    ¬ log.Mutates (.updateStack inputs) := fun hm => by
  obtain ⟨t, -, -, hx⟩ := (mutates_createLog h).mp hm
  cases hx

theorem not_updates_finalizeLog (h : FinalizeLog p r log result) :
    ¬ log.Mutates (.updateStack inputs) := fun hm => by
  obtain ⟨-, s, -, -, -, s', -, -, -, hx⟩ := (mutates_finalizeLog h).mp hm
  cases hx

/-- An update call comes first in its stage. -/
theorem updateLog_at_update (h : UpdateLog p r s log result)
    (hu : ⟨.updateStack inputs, answer⟩ ∈ log) :
    ∃ rest, log = ⟨.updateStack inputs, answer⟩ :: rest := by
  have first : ∀ {e : Event} {rest : Log}, ¬ rest.Mutates (.updateStack inputs) →
      ⟨.updateStack inputs, answer⟩ ∈ e :: rest →
      ∃ tail, e :: rest = ⟨.updateStack inputs, answer⟩ :: tail := fun hrest hu => by
    rcases List.mem_cons.mp hu with hu | hu
    · exact ⟨_, by rw [hu]⟩
    · exact absurd hu (not_mem_of_not_mutates hrest)
  cases h with
  | noTemplate ht => cases hu
  | current t ht hc h => exact absurd hu (not_mem_of_not_mutates (not_mutates_refreshLog h))
  | dryRun t ht hc hd => cases hu
  | accepted t ht hc hd h => exact first (not_mutates_recordLog h) hu
  | confirmed t ht hc hd e he h => exact first (not_mutates_confirmLog h) hu
  | recreated t ht hc hd e he h => exact first (not_updates_createLog h) hu
  | refused t ht hc hd e hn he => exact first not_mutates_nil hu

/-- A pass with an update call has read the resource and found the stack, and updates it. -/
theorem pass_at_update (h : PassLog p l log result)
    (hu : ⟨.updateStack inputs, answer⟩ ∈ log) :
    ∃ r s rest,
      log = readEvent l r :: lookUpEvent r (.ok s) :: ⟨.updateStack inputs, answer⟩ :: rest ∧
      UpdateLog p r s (⟨.updateStack inputs, answer⟩ :: rest) result := by
  cases h with
  | gone e he => simp at hu
  | unread e he => simp at hu
  | read r h =>
    obtain hu := (List.mem_cons.mp hu).resolve_left (by simp)
    cases h with
    | idle hm hf => cases hu
    | finalizing hm hf h => exact absurd hu (not_mem_of_not_mutates (not_updates_finalizeLog h))
    | entering hm hf answer => simp at hu
    | settling hm hf h =>
      cases h with
      | unseen e he => simp at hu
      | absent e he h =>
        obtain hu := (List.mem_cons.mp hu).resolve_left (by simp)
        exact absurd hu (not_mem_of_not_mutates (not_updates_createLog h))
      | foreign s hs h =>
        obtain hu := (List.mem_cons.mp hu).resolve_left (by simp)
        exact absurd hu (not_mem_of_not_mutates (not_updates_createLog h))
      | settled s hs hc ht h =>
        obtain hu := (List.mem_cons.mp hu).resolve_left (by simp)
        obtain ⟨rest, rfl⟩ := updateLog_at_update h hu
        exact ⟨r, s, rest, rfl, h⟩
      | atWork s hs hc ht => simp at hu

/-! ## What follows the update call -/

/-- A stage that updates creates a stack exactly if the update call was answered that there is
none. -/
theorem creates_updateLog (h : UpdateLog p r s (⟨.updateStack inputs, answer⟩ :: rest) result) :
    (∃ i o, .createStack i o ∈ rest.calls) ↔ ∃ e, answer = .error e ∧ e.isStackNotFound = true := by
  have quiet : (∀ c, ¬ rest.Mutates c) → ¬ ∃ i o, .createStack i o ∈ rest.calls :=
    fun hrest ⟨i, o, hmem⟩ => hrest _ ⟨hmem, rfl⟩
  cases h with
  | current t ht hc h => exact absurd ⟨List.mem_cons_self, rfl⟩ (not_mutates_refreshLog h)
  | accepted t ht hc hd h =>
    simp [quiet fun c => not_mutates_recordLog h]
  | confirmed t ht hc hd e he h =>
    simp [quiet fun c => not_mutates_confirmLog h, Error.isStackNotFound_of_isNoUpdates he]
  | recreated t ht hc hd e he h =>
    have hcreates : creation p r t ∈ rest.calls := ((mutates_createLog h).mpr ⟨t, ht, hd, rfl⟩).1
    exact ⟨fun _ => ⟨e, rfl, he⟩, fun _ => ⟨_, _, hcreates⟩⟩
  | refused t ht hc hd e hn he => simp [he]

/-- A stage whose update call was refused for another reason ends with the refusal. -/
theorem ends_updateLog {e : Error}
    (h : UpdateLog p r s (⟨.updateStack inputs, .error e⟩ :: rest) result)
    (hn : e.isNoUpdates = false) (he : e.isStackNotFound = false) :
    rest = [] ∧ result = .error e := by
  cases h with
  | current t ht hc h => exact absurd ⟨List.mem_cons_self, rfl⟩ (not_mutates_refreshLog h)
  | confirmed t ht hc hd e he h => simp_all
  | recreated t ht hc hd e he h => simp_all
  | refused t ht hc hd e hn he => exact ⟨rfl, rfl⟩

/-- A pass that makes an update call makes no create call exactly if the reply does not have the
phrase of a missing stack, or has the one of an update without changes. What the message of a
refusal is about does not count, and neither does its code. A refusal with neither phrase, or no
reply, ends the pass there. -/
theorem recreates_iff_saysMissing (h : Job.Ran (reconcile p l) log result)
    (hu : ⟨.updateStack inputs, updateAnswer inputs reply⟩ ∈ log) :
    ((∀ i o, .createStack i o ∉ log.calls) ↔ ¬ reply.SaysMissing) ∧
      (∀ e, updateAnswer inputs reply = .error e → ¬ reply.Says doesNotExistPhrase →
        ¬ reply.Says noUpdatesPhrase → result = .error e ∧
          ∃ r s, log = [readEvent l r, lookUpEvent r (.ok s), ⟨.updateStack inputs, .error e⟩]) := by
  obtain ⟨r, s, rest, rfl, hstage⟩ := pass_at_update (passLog_of_ran h) hu
  constructor
  · have hcreates : (∃ i o, .createStack i o ∈ Log.calls rest) ↔ reply.SaysMissing := by
      rw [creates_updateLog hstage]
      constructor
      · rintro ⟨e, he, hmissing⟩
        exact (isStackNotFound_iff he).mp hmissing
      · intro hmissing
        cases hanswer : updateAnswer inputs reply with
        | ok _ => exact absurd hmissing (not_saysMissing_of_ok hanswer)
        | error e => exact ⟨e, rfl, (isStackNotFound_iff hanswer).mpr hmissing⟩
    rw [← hcreates]
    simp [readEvent, lookUpEvent]
  · intro e he hmissing hchanges
    rw [he] at hstage ⊢
    obtain ⟨rfl, rfl⟩ := ends_updateLog hstage
      (Bool.eq_false_iff.mpr fun hn => hchanges ((isNoUpdates_iff he).mp hn))
      (Bool.eq_false_iff.mpr fun hn => hmissing ((isStackNotFound_iff he).mp hn).1)
    exact ⟨rfl, r, s, rfl⟩

/-! ## Two refusals because of the template -/

def malformed : Reply := .refused (some "ValidationError") (some "Template format error")

def refusedLog : Log :=
  [readEvent heldResource.locator heldResource, lookUpEvent heldResource (.ok rolledBackStack),
    ⟨.updateStack (plainPolicy.inputs heldResource (.body "t") "s1"),
      .error (.requestFailed "ValidationError" "Template format error")⟩]

theorem ran_refusedLog : Job.Ran (reconcile plainPolicy heldResource.locator) refusedLog
    (.error (.requestFailed "ValidationError" "Template format error")) := by
  have hf : heldResource.hasFinalizer stackFinalizer = true := by decide
  have ht : heldResource.spec.templateSource? = some (.body "t") := by decide
  have hcur : isCurrent plainPolicy heldResource rolledBackStack = false :=
    isCurrent_eq_false_iff.mpr fun h => absurd h.2.1 (by decide)
  have hupdate := UpdateLog.refused (.body "t") ht hcur (rfl : plainPolicy.dryRun = false)
    (.requestFailed "ValidationError" "Template format error") rfl rfl
  have hsettle := SettleLog.settled rolledBackStack (by decide) (by decide) (by decide) hupdate
  exact (PassLog.read heldResource (.settling rfl hf hsettle)).ran

theorem ends_of_malformed : Job.Ran (reconcile plainPolicy heldResource.locator) refusedLog
    (.error (.requestFailed "ValidationError" "Template format error")) ∧
      ⟨.updateStack (plainPolicy.inputs heldResource (.body "t") "s1"),
        updateAnswer (plainPolicy.inputs heldResource (.body "t") "s1") malformed⟩ ∈ refusedLog ∧
      ∀ i o, .createStack i o ∉ refusedLog.calls := by
  have hanswer : updateAnswer (plainPolicy.inputs heldResource (.body "t") "s1") malformed =
      .error (.requestFailed "ValidationError" "Template format error") :=
    congrArg Except.error (by decide : classify "s1" _ _ = _)
  have hmissing : ¬ malformed.SaysMissing := fun h =>
    absurd (says_refused.mp h.1) (by decide)
  have hu : ⟨.updateStack (plainPolicy.inputs heldResource (.body "t") "s1"),
      updateAnswer (plainPolicy.inputs heldResource (.body "t") "s1") malformed⟩ ∈ refusedLog := by
    simp [hanswer, refusedLog]
  exact ⟨ran_refusedLog, hu, (recreates_iff_saysMissing ran_refusedLog hu).1.mpr hmissing⟩

def objectMissing : Reply :=
  .refused (some "ValidationError") (some "S3 error: The specified template object does not exist")

/-- The refusal names the updated stack neither by its id nor by its name, and the pass creates
another stack. -/
theorem recreates_without_missing_stack :
    Job.Ran (reconcile plainPolicy heldResource.locator) recreatingLog (.ok .created) ∧
      ⟨.updateStack (plainPolicy.inputs heldResource (.body "t") rolledBackStack.id),
        updateAnswer (plainPolicy.inputs heldResource (.body "t") rolledBackStack.id)
          objectMissing⟩ ∈ recreatingLog ∧
      ¬ objectMissing.Says rolledBackStack.id ∧ ¬ objectMissing.Says rolledBackStack.name ∧
      creation plainPolicy heldResource (.body "t") ∈ recreatingLog.calls := by
  have hanswer : updateAnswer (plainPolicy.inputs heldResource (.body "t") "s1") objectMissing =
      .error (.stackNotFound "s1") := congrArg Except.error (by decide : classify "s1" _ _ = _)
  refine ⟨ran_recreatingLog, ?_, ?_, ?_, by simp [recreatingLog]⟩
  · simp [rolledBackStack, hanswer, recreatingLog]
  · rw [objectMissing, says_refused]
    decide
  · rw [objectMissing, says_refused]
    decide

end Pass
end StackKeeper
