import StackKeeper.Proofs.MutationGuard
import StackKeeper.Proofs.PassEnding
/-!
# Whose stack it is

The tags that a pass submits decide whether later passes take the stack for one of ours. They keep the
mark of the controller unless the resource, or else the defaults, give its key another value. A stack
that keeps it is updated or left to its work and never skipped when it is to be deleted; one that does
not is passed over for a new stack, and never deleted.

Results:
* `distinct_eq_eraseDups`: the submitted capabilities are each listed where they come first.
* `isControlled_iff_keepsController`: when a stack with the submitted tags is ours.
* `inputs_of_submits`: what a pass submits comes from the resource that it has read.
* `submitted_tags_decide_ownership`: what was submitted, and what later passes make of it.
-/
namespace StackKeeper

theorem distinct_filter (q : String → Bool) (l : List String) :
    distinct (l.filter q) = (distinct l).filter q := by
  induction l with
  | nil => rfl
  | cons a l ih =>
    rw [distinct, List.filter_cons, List.filter_cons]
    split
    · rw [distinct, ih, List.filter_filter, List.filter_filter]
      simp only [Bool.and_comm]
    · rename_i hq
      rw [ih, List.filter_filter]
      refine List.filter_congr fun b hb => ?_
      by_cases hba : b = a <;> simp_all

theorem distinct_eq_eraseDups (l : List String) : distinct l = l.eraseDups := by
  match l with
  | [] => rfl
  | a :: l =>
    have hfilter : l.filter (· ≠ a) = l.filter fun b => !b == a :=
      List.filter_congr fun b _ => by by_cases h : b = a <;> simp [h]
    rw [distinct, ← distinct_filter, hfilter, distinct_eq_eraseDups (l.filter fun b => !b == a),
      List.eraseDups_cons]
termination_by l.length
decreasing_by exact Nat.lt_succ_of_le (List.length_filter_le _ _)

namespace Policy

variable {p : Policy} {r : Resource} {s : RemoteStack}

theorem get?_ownershipTags (uid k : String) : (ownershipTags uid).get? k =
    if k = controllerKey then some controllerValue else if k = ownerKey then some uid else none := by
  have hne : controllerKey ≠ ownerKey := by decide
  simp only [ownershipTags, TextMap.ofList, TextMap.insertAll, List.foldl_cons, List.foldl_nil,
    TextMap.get?_insert, TextMap.get?_empty]
  by_cases hk : k = controllerKey
  · simp [hk, hne]
  · simp [hk]

/-- Neither the resource nor, where it leaves the key alone, the defaults give the key of the
controller another value. -/
structure KeepsController (p : Policy) (r : Resource) : Prop where
  own : ∀ v, r.spec.tags.get? controllerKey = some v → v = controllerValue
  default : r.spec.tags.get? controllerKey = none →
    ∀ v, p.defaultTags.get? controllerKey = some v → v = controllerValue

theorem isControlled_iff_keepsController (h : s.tags = p.effectiveTags r) :
    s.isControlled = true ↔ p.KeepsController r := by
  rw [RemoteStack.isControlled, beq_iff_eq, h, get?_effectiveTags, get?_ownershipTags, if_pos rfl]
  constructor
  · intro hv
    constructor
    · intro v ho
      rw [ho, Option.some_or] at hv
      exact Option.some.inj hv
    · intro ho v hd
      rw [ho, hd, Option.none_or, Option.some_or] at hv
      exact Option.some.inj hv
  · rintro ⟨own, default⟩
    cases ho : r.spec.tags.get? controllerKey with
    | some v => rw [own v ho, Option.some_or]
    | none =>
      cases hd : p.defaultTags.get? controllerKey with
      | some v => rw [default ho v hd, Option.none_or, Option.some_or]
      | none => rfl

end Policy

namespace Pass
open Log

variable {p : Policy} {l : Locator} {r : Resource} {s : RemoteStack} {log : Log}
  {result : Except Error Outcome} {i : StackInputs}

/-- The inputs were sent with a create or an update call. -/
def Submits (log : Log) (i : StackInputs) : Prop :=
  (∃ onFailure, .createStack i onFailure ∈ log.calls) ∨ .updateStack i ∈ log.calls

/-- A pass submits the inputs of the resource that it has read. -/
theorem inputs_of_submits (h : PassLog p l log result) (hr : [readEvent l r] <+: log)
    (hi : Submits log i) : ∃ t stack, i = p.inputs r t stack := by
  have same : ∀ {r' : Resource} {rest : Log}, readEvent l r' :: rest <+: log → r' = r :=
    fun hp => by simpa [readEvent] using prefix_head_unique (prefix_cons_iff.mp hp).1 hr
  rcases hi with ⟨onFailure, hi⟩ | hi
  · obtain ⟨r', t, hg, -, rfl, -⟩ := (creates_iff h).mp hi
    rcases hg.missing with ⟨answer, hp, -⟩ | ⟨s, inputs, e, hp, -⟩
    · exact ⟨t, _, by rw [same hp]⟩
    · exact ⟨t, _, by rw [same hp]⟩
  · obtain ⟨r', s, t, hp, -, -, rfl⟩ := (updates_iff h).mp hi
    exact ⟨t, _, by rw [same hp]⟩

/-! ## After a look-up -/

/-- A pass that looks the stack up settles the resource or, if that is marked, finishes it. -/
theorem passLog_after_lookUp {answer : Except Error RemoteStack} (h : PassLog p l log result)
    (hp : [readEvent l r, lookUpEvent r answer] <+: log) :
    ∃ rest, log = readEvent l r :: lookUpEvent r answer :: rest ∧
      ((r.isMarked = false ∧ SettleLog p r (lookUpEvent r answer :: rest) result) ∨
        (r.isMarked = true ∧ FinalizeLog p r (lookUpEvent r answer :: rest) result)) := by
  obtain ⟨rest, rfl⟩ := hp
  refine ⟨rest, rfl, ?_⟩
  cases h with
  | read r h =>
    cases h with
    | finalizing hm hf h => exact .inr ⟨hm, h⟩
    | settling hm hf h => exact .inl ⟨hm, h⟩

/-- What a pass does with a resource whose look-up shows a stack of ours: it never skips its
deletion, and as long as the stack stands, no other one is created unless the update call was
answered that there is none. A resource that is not marked has its stack updated once that has
settled, and is left alone before. -/
structure TreatsAsOurs (p : Policy) (l : Locator) (r : Resource) (s : RemoteStack) (log : Log)
    (result : Except Error Outcome) : Prop where
  neverSkipped : result ≠ .ok .deleteSkipped
  recreated : s.isDeleted = false → ∀ i onFailure, .createStack i onFailure ∈ log.calls →
    ∃ inputs e, [readEvent l r, lookUpEvent r (.ok s), ⟨.updateStack inputs, .error e⟩] <+: log ∧
      e.isStackNotFound = true
  goesOn : s.isDeleted = false → r.isMarked = false →
    ∃ rest, log = readEvent l r :: lookUpEvent r (.ok s) :: rest ∧
      if Lifecycle.isTerminal s.status then Job.Ran (update p r s) rest result
      else rest = [⟨.submit (r.followRequest s.id), ()⟩] ∧ result = .ok .handedOff

/-- What a pass does with a resource whose look-up shows a stack of somebody else: it goes on to
create one unless the resource is marked, and deletes none. -/
structure TreatsAsForeign (p : Policy) (l : Locator) (r : Resource) (s : RemoteStack) (log : Log)
    (result : Except Error Outcome) : Prop where
  creates : r.isMarked = false → ∃ rest, log = readEvent l r :: lookUpEvent r (.ok s) :: rest ∧
    Job.Ran (create p r) rest result
  neverDeletes : ∀ stack, .deleteStack stack ∉ log.calls

theorem settleLog_of_ours {rest : Log} (h : SettleLog p r (lookUpEvent r (.ok s) :: rest) result)
    (hd : s.isDeleted = false) (hc : s.isControlled = true) :
    if Lifecycle.isTerminal s.status then Job.Ran (update p r s) rest result
    else rest = [⟨.submit (r.followRequest s.id), ()⟩] ∧ result = .ok .handedOff := by
  cases h with
  | foreign s hs h => simp [hd, hc] at hs
  | settled s hs hc ht h =>
    rw [if_pos ht]
    exact h.ran
  | atWork s hs hc ht => simp [ht]

theorem settleLog_of_foreign {rest : Log}
    (h : SettleLog p r (lookUpEvent r (.ok s) :: rest) result) (hc : s.isControlled = false) :
    Job.Ran (create p r) rest result := by
  cases h with
  | foreign s hs h => exact h.ran
  | settled s hs hn ht h =>
    rw [hc] at hn
    cases hn
  | atWork s hs hn ht =>
    rw [hc] at hn
    cases hn

theorem not_deleteSkipped_of_finalizeLog (h : FinalizeLog p r log result)
    (hc : ∀ shown, lookUpEvent r (.ok shown) ∈ log → shown.isControlled = true) :
    result ≠ .ok .deleteSkipped := by
  rintro rfl
  have release : ∀ {rest}, ¬ ReleaseLog r .finalized rest (.ok .deleteSkipped) := fun h => by
    cases outcome_of_releaseLog h
  cases h with
  | recorded hs h => exact release h
  | absent hs e he h => exact release h
  | deleted hs s hd h => exact release h
  | standing hs s hd h =>
    cases h with
    | absent hd e he h => exact release h
    | foreign hd s hn h =>
      have hs : s.isControlled = true := hc s (by simp [lookUpEvent])
      rw [hn] at hs
      cases hs

theorem treatsAsOurs (h : PassLog p l log result)
    (hp : [readEvent l r, lookUpEvent r (.ok s)] <+: log)
    (hc : ∀ shown, lookUpEvent r (.ok shown) ∈ log → shown.isControlled = true) :
    TreatsAsOurs p l r s log result := by
  have hs : s.isControlled = true := hc s (hp.subset (by simp))
  obtain ⟨rest, rfl, hstage⟩ := passLog_after_lookUp h hp
  constructor
  case neverSkipped =>
    rintro rfl
    rcases hstage with ⟨-, hsettle⟩ | ⟨-, hfinalize⟩
    · exact absurd (outcome_of_settleLog hsettle) (by decide)
    · exact not_deleteSkipped_of_finalizeLog hfinalize
        (fun shown hshown => hc shown (List.mem_cons_of_mem _ hshown)) rfl
  case recreated =>
    intro hd i onFailure hi
    obtain ⟨r', t, hg, -, -, -⟩ := (creates_iff h).mp hi
    rcases hg.missing with ⟨answer, hp', hnone⟩ | ⟨s', inputs, e, hp', he⟩
    · obtain ⟨rfl, -, rfl⟩ : r' = r ∧ _ ∧ answer = .ok s := by
        simpa [List.cons_prefix_cons, readEvent, lookUpEvent] using hp'
      rcases hnone with ⟨e, he, -⟩ | ⟨s', hs', hn⟩
      · cases he
      · cases hs'
        simp [hd, hs] at hn
    · obtain ⟨rfl, ⟨-, rfl⟩, -⟩ : r' = r ∧ (_ ∧ s' = s) ∧ _ := by
        simpa [List.cons_prefix_cons, readEvent, lookUpEvent] using hp'
      exact ⟨inputs, e, hp', he⟩
  case goesOn =>
    intro hd hm
    rcases hstage with ⟨-, hsettle⟩ | ⟨hm', -⟩
    · exact ⟨rest, rfl, settleLog_of_ours hsettle hd hs⟩
    · rw [hm] at hm'
      cases hm'

theorem treatsAsForeign (h : PassLog p l log result)
    (hp : [readEvent l r, lookUpEvent r (.ok s)] <+: log)
    (hc : ∀ shown, lookUpEvent r (.ok shown) ∈ log → shown.isControlled = false) :
    TreatsAsForeign p l r s log result := by
  constructor
  case creates =>
    intro hm
    obtain ⟨rest, rfl, ⟨-, hsettle⟩ | ⟨hm', -⟩⟩ := passLog_after_lookUp h hp
    · exact ⟨rest, rfl, settleLog_of_foreign hsettle (hc s (hp.subset (by simp)))⟩
    · rw [hm] at hm'
      cases hm'
  case neverDeletes =>
    intro stack hmem
    obtain ⟨r', first, second, hp', hg, -⟩ := (deletes_iff h).mp hmem
    obtain ⟨hread, -⟩ := prefix_cons_iff.mp hp
    obtain rfl : r' = r := by
      simpa [readEvent] using prefix_head_unique (prefix_cons_iff.mp hp').1 hread
    have hn := hc second (hp'.subset (by simp))
    rw [hg.owned] at hn
    cases hn

/-- The tags that a pass submits give each key the value of the resource, else the default one, else
that of an ownership tag, and there are no others; the capabilities are the defaults and those of the
resource without repetitions. Every later pass whose look-ups show a stack with the submitted tags
takes it for ours exactly if neither the resource nor the defaults gave the key of the controller
another value, and treats it so. -/
theorem submitted_tags_decide_ownership (h : Job.Ran (reconcile p l) log result)
    (hr : [readEvent l r] <+: log) (hi : Submits log i) :
    (∀ k, i.tags.get? k = (r.spec.tags.get? k).or ((p.defaultTags.get? k).or
      (if k = controllerKey then some controllerValue
        else if k = ownerKey then some r.metadata.uid else none))) ∧
      i.capabilities = (p.defaultCapabilities ++ r.spec.capabilities).eraseDups ∧
      i.capabilities.Nodup ∧
      ∀ (p' : Policy) (l' : Locator) (r' : Resource) (s : RemoteStack) (later : Log)
        (result' : Except Error Outcome), Job.Ran (reconcile p' l') later result' →
        [readEvent l' r', lookUpEvent r' (.ok s)] <+: later →
        (∀ shown, lookUpEvent r' (.ok shown) ∈ later → shown.tags = i.tags) →
          (s.isControlled = true ↔ p.KeepsController r) ∧
          (p.KeepsController r → TreatsAsOurs p' l' r' s later result') ∧
          (¬ p.KeepsController r → TreatsAsForeign p' l' r' s later result') := by
  obtain ⟨t, stack, rfl⟩ := inputs_of_submits (passLog_of_ran h) hr hi
  refine ⟨fun k => ?_, distinct_eq_eraseDups _, nodup_distinct _, ?_⟩
  · rw [Policy.inputs, Policy.get?_effectiveTags, Policy.get?_ownershipTags]
  · intro p' l' r' s later result' hlater hp htags
    have howned : ∀ shown, lookUpEvent r' (.ok shown) ∈ later →
        (shown.isControlled = true ↔ p.KeepsController r) := fun shown hshown =>
      Policy.isControlled_iff_keepsController (htags shown hshown)
    refine ⟨howned s (hp.subset (by simp)), fun hkeeps => ?_, fun hkeeps => ?_⟩
    · exact treatsAsOurs (passLog_of_ran hlater) hp fun shown hshown =>
        (howned shown hshown).mpr hkeeps
    · exact treatsAsForeign (passLog_of_ran hlater) hp fun shown hshown =>
        Bool.eq_false_iff.mpr fun hc => hkeeps ((howned shown hshown).mp hc)

def recreatedStack : RemoteStack :=
  ⟨"s2", "default-web", "CREATE_IN_PROGRESS", none, none, TextMap.empty,
    plainPolicy.effectiveTags heldResource, none⟩

def recreatedResource : Resource := createdAs plainPolicy heldResource "s2"

/-- The next pass leaves the new stack to its work. -/
def laterLog : Log :=
  [readEvent heldResource.locator recreatedResource,
    lookUpEvent recreatedResource (.ok recreatedStack),
    ⟨.submit (recreatedResource.followRequest "s2"), ()⟩]

theorem ran_laterLog :
    Job.Ran (reconcile plainPolicy heldResource.locator) laterLog (.ok .handedOff) := by
  have hf : recreatedResource.hasFinalizer stackFinalizer = true := by decide
  have hsettle : SettleLog plainPolicy recreatedResource (laterLog.drop 1) (.ok .handedOff) :=
    .atWork recreatedStack (by decide) (by decide) (by decide)
  exact (PassLog.read recreatedResource (.settling rfl hf hsettle)).ran

theorem ours_after_recreation :
    Job.Ran (reconcile plainPolicy heldResource.locator) recreatingLog (.ok .created) ∧
      Submits recreatingLog (plainPolicy.inputs heldResource (.body "t") "s1") ∧
      plainPolicy.KeepsController heldResource ∧
      TreatsAsOurs plainPolicy heldResource.locator recreatedResource recreatedStack laterLog
        (.ok .handedOff) := by
  have hsubmits : Submits recreatingLog (plainPolicy.inputs heldResource (.body "t") "s1") :=
    .inr (by simp [recreatingLog])
  have hkeeps : plainPolicy.KeepsController heldResource :=
    ⟨fun v hv => (by cases hv), fun _ v hv => (by cases hv)⟩
  have hr : [readEvent heldResource.locator heldResource] <+: recreatingLog := ⟨_, rfl⟩
  have hp : [readEvent heldResource.locator recreatedResource,
      lookUpEvent recreatedResource (.ok recreatedStack)] <+: laterLog := ⟨_, rfl⟩
  obtain ⟨-, -, -, hlater⟩ := submitted_tags_decide_ownership ran_recreatingLog hr hsubmits
  refine ⟨ran_recreatingLog, hsubmits, hkeeps, (hlater _ _ _ _ _ _ ran_laterLog hp ?_).2.1 hkeeps⟩
  intro shown hshown
  obtain rfl : shown = recreatedStack := by
    simpa [laterLog, lookUpEvent, readEvent] using hshown
  rfl

end Pass
end StackKeeper
