import Mathlib.Data.List.Induction
import StackKeeper.Proofs.Observation
/-!
# What a sequence of merges remembers

A status into which one observation after another is merged shows the last one in some fields, and in
others what an earlier one showed: an id and outputs stay until others are seen, and the two times are
those of the last observations with which the lifecycle status changed.

Results:
* `turns_append_singleton`: with which observations the lifecycle status changes.
* `last_mergeAll`, `lastCounting_mergeAll`: the two ways in which a field remembers.
* `remembered`: all fields.
-/
namespace StackKeeper

/-- A stack that was observed, with the resources inside it. -/
abbrev Sighting := RemoteStack × List Member

namespace Status

/-- The status after one observation was merged after another. -/
def mergeAll (st : Status) (seen : List Sighting) : Status :=
  seen.foldl (fun st o => st.merge o.1 o.2) st

/-- The observations whose lifecycle status differs from that of the one before; before the first one
it is the given one. -/
def turns (before : String) : List Sighting → List Sighting
  | [] => []
  | o :: rest => if o.1.status = before then turns before rest else o :: turns o.1.status rest

/-- The lifecycle status of the last observation, or the given one if there is none. -/
def lastStatus (before : String) (seen : List Sighting) : String :=
  (seen.getLast?.map (·.1.status)).getD before

variable {st : Status} {seen : List Sighting} {o : Sighting} {before : String}

theorem lastStatus_cons : lastStatus before (o :: seen) = lastStatus o.1.status seen := by
  rw [lastStatus, lastStatus, List.getLast?_cons]
  cases seen.getLast? <;> rfl

theorem turns_append_singleton (before : String) (seen : List Sighting) (o : Sighting) :
    turns before (seen ++ [o]) =
      turns before seen ++ if o.1.status = lastStatus before seen then [] else [o] := by
  induction seen generalizing before with
  | nil => rfl
  | cons first seen ih =>
    rw [List.cons_append, turns, turns, lastStatus_cons]
    split
    · rename_i heq
      rw [ih, heq]
    · rw [ih, List.cons_append]

theorem mergeAll_append_singleton (st : Status) (seen : List Sighting) (o : Sighting) :
    st.mergeAll (seen ++ [o]) = (st.mergeAll seen).merge o.1 o.2 := by
  rw [mergeAll, List.foldl_append]
  rfl

/-! ## The fields of the last observation -/

/-- A field that every merge takes from the observation. -/
theorem last_mergeAll {α : Type} (field : Status → α) (shown : Sighting → α)
    (h : ∀ (st : Status) o, field (st.merge o.1 o.2) = shown o) (st : Status) (seen : List Sighting) :
    field (st.mergeAll seen) = (seen.getLast?.map shown).getD (field st) := by
  rcases List.eq_nil_or_concat seen with rfl | ⟨seen, o, rfl⟩
  · rfl
  · rw [List.concat_eq_append, mergeAll_append_singleton, h, List.getLast?_concat]
    rfl

theorem stackStatus_mergeAll (st : Status) (seen : List Sighting) :
    (st.mergeAll seen).stackStatus = lastStatus st.stackStatus seen :=
  last_mergeAll stackStatus (·.1.status) (fun _ _ => rfl) st seen

theorem role_mergeAll (st : Status) (seen : List Sighting) :
    (st.mergeAll seen).role = (seen.getLast?.map (·.1.role.getD "")).getD st.role :=
  last_mergeAll role (·.1.role.getD "") (fun _ _ => rfl) st seen

theorem members_mergeAll (st : Status) (seen : List Sighting) :
    (st.mergeAll seen).members = (seen.getLast?.map (·.2)).getD st.members :=
  last_mergeAll members (·.2) (fun _ _ => rfl) st seen

/-! ## The fields that look further back -/

/-- A field that a merge takes from the observation if it shows a value that counts. -/
theorem lastCounting_mergeAll {α : Type} (field : Status → α) (shown : Sighting → α) (counts : α → Bool)
    (h : ∀ (st : Status) o, field (st.merge o.1 o.2) = if counts (shown o) then shown o else field st)
    (st : Status) (seen : List Sighting) :
    field (st.mergeAll seen) = ((seen.map shown).filter counts).getLast?.getD (field st) := by
  induction seen using List.reverseRecOn with
  | nil => rfl
  | append_singleton seen o ih =>
    rw [mergeAll_append_singleton, h, ih, List.map_append, List.filter_append, List.map_singleton]
    cases hc : counts (shown o) <;> simp [hc]

theorem stackId_mergeAll (st : Status) (seen : List Sighting) : (st.mergeAll seen).stackId =
    ((seen.map (·.1.id)).filter (· ≠ "")).getLast?.getD st.stackId := by
  refine lastCounting_mergeAll stackId (·.1.id) _ (fun st o => ?_) st seen
  rw [stackId_merge]
  by_cases h : o.1.id = "" <;> simp [h]

theorem outputs_merge (st : Status) (s : RemoteStack) (members : List Member) :
    (st.merge s members).outputs = if s.outputs.isEmpty then st.outputs else s.outputs := by
  rw [merge, areNewOutputs]
  cases s.outputs.isEmpty with
  | true => rfl
  | false => by_cases h : s.outputs = st.outputs <;> simp [h]

theorem outputs_mergeAll (st : Status) (seen : List Sighting) : (st.mergeAll seen).outputs =
    ((seen.map (·.1.outputs)).filter (!·.isEmpty)).getLast?.getD st.outputs := by
  refine lastCounting_mergeAll outputs (·.1.outputs) _ (fun st o => ?_) st seen
  rw [outputs_merge]
  cases o.1.outputs.isEmpty <;> rfl

/-- Whether an observation after others brings a new status is a matter of the one before it. -/
theorem isNewStatus_mergeAll (st : Status) (seen : List Sighting) (o : Sighting) :
    (st.mergeAll seen).isNewStatus o.1 = decide (o.1.status ≠ lastStatus st.stackStatus seen) := by
  rw [isNewStatus, stackStatus_mergeAll]
  by_cases h : o.1.status = lastStatus st.stackStatus seen <;> simp [h]

theorem created_mergeAll (st : Status) (seen : List Sighting) : (st.mergeAll seen).created =
    ((turns st.stackStatus seen).getLast?.map (·.1.created)).getD st.created := by
  induction seen using List.reverseRecOn with
  | nil => rfl
  | append_singleton seen o ih =>
    rw [mergeAll_append_singleton, merge, isNewStatus_mergeAll, turns_append_singleton, ih]
    by_cases h : o.1.status = lastStatus st.stackStatus seen <;> simp [h]

theorem updated_mergeAll (st : Status) (seen : List Sighting) : (st.mergeAll seen).updated =
    ((turns st.stackStatus seen).filterMap (·.1.updated)).getLast?.or st.updated := by
  induction seen using List.reverseRecOn with
  | nil => rfl
  | append_singleton seen o ih =>
    rw [mergeAll_append_singleton, merge, isNewStatus_mergeAll, turns_append_singleton, ih]
    by_cases h : o.1.status = lastStatus st.stackStatus seen
    · simp [h]
    · cases hu : o.1.updated <;> simp [h, hu]

theorem appliedHash_mergeAll (st : Status) (seen : List Sighting) :
    (st.mergeAll seen).appliedHash = st.appliedHash := by
  induction seen using List.reverseRecOn with
  | nil => rfl
  | append_singleton seen o ih =>
    rw [mergeAll_append_singleton]
    exact ih

/-- The status after any observations. Lifecycle status, role and members are those of the last one. The
id is the last one seen that is not empty, so it is never lost, and so are the outputs. The creation
time is that of the last observation with which the lifecycle status changed, and the time of the
last update that of the last such observation which has one. What no observation gives stays as it
was, and the recorded hash always does. -/
theorem remembered (st : Status) (seen : List Sighting) :
    (st.mergeAll seen).stackStatus = (seen.getLast?.map (·.1.status)).getD st.stackStatus ∧
      (st.mergeAll seen).role = (seen.getLast?.map (·.1.role.getD "")).getD st.role ∧
      (st.mergeAll seen).members = (seen.getLast?.map (·.2)).getD st.members ∧
      (st.mergeAll seen).stackId =
        ((seen.map (·.1.id)).filter (· ≠ "")).getLast?.getD st.stackId ∧
      (st.stackId ≠ "" → (st.mergeAll seen).stackId ≠ "") ∧
      (st.mergeAll seen).outputs =
        ((seen.map (·.1.outputs)).filter (!·.isEmpty)).getLast?.getD st.outputs ∧
      (st.mergeAll seen).created =
        ((turns st.stackStatus seen).getLast?.map (·.1.created)).getD st.created ∧
      (st.mergeAll seen).updated =
        ((turns st.stackStatus seen).filterMap (·.1.updated)).getLast?.or st.updated ∧
      (st.mergeAll seen).appliedHash = st.appliedHash := by
  refine ⟨stackStatus_mergeAll st seen, role_mergeAll st seen, members_mergeAll st seen,
    stackId_mergeAll st seen, fun hid => ?_, outputs_mergeAll st seen, created_mergeAll st seen,
    updated_mergeAll st seen, appliedHash_mergeAll st seen⟩
  rw [stackId_mergeAll]
  cases hlast : ((seen.map (·.1.id)).filter (· ≠ "")).getLast? with
  | none => exact hid
  | some id => simpa using (List.mem_filter.mp (List.mem_of_getLast? hlast)).2

end Status
end StackKeeper
