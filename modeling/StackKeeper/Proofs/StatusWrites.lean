import StackKeeper.Proofs.MergeMemory
import StackKeeper.Proofs.StageLog
/-!
# When a status is written

A refresh works on a copy of a resource. What it observes is merged into the copy, and the copy is
written if that changed it; whether the write succeeds or not, the copy keeps what was merged. Calls
of a refresh follow one another on the same copy, with any stacks at hand and any answers.

Results:
* `isNews_iff`: an observation is news exactly if merging it changes the status.
* `refresh_eq_held`: the copy that a refresh leaves, beside its answer.
* `turn_of_ran`: the three ways in which a call can go.
* `written_iff_changed`: what a sequence of calls writes and answers.
-/
namespace StackKeeper

namespace Status

variable {st : Status} {s : RemoteStack} {members : List Member}

theorem isNews_iff : st.isNews s members = true ↔ st.merge s members ≠ st := by
  constructor
  · intro hnews hsame
    have hagain := isNews_merge st s members
    rw [hsame, hnews] at hagain
    cases hagain
  · intro hchanged
    exact Decidable.byContradiction fun hnews =>
      hchanged (merge_of_not_isNews (Bool.eq_false_iff.mpr hnews))

theorem merge_merge (st : Status) (s : RemoteStack) (members : List Member) :
    (st.merge s members).merge s members = st.merge s members :=
  merge_of_not_isNews (isNews_merge st s members)

end Status

namespace Refresh
open Job

/-! ## The copy at hand -/

/-- A refresh with the copy that it leaves, also where it fails. -/
def refreshHeld (d : Option Deadline) (r : Resource) (known : Option RemoteStack) :
    Program (Except Error Bool × Resource) :=
  (observe d r known).run.bind fun
    | .error e => .done (.error e, r)
    | .ok s =>
      (getMembers s.id d).run.bind fun
        | .error e => .done (.error e, r)
        | .ok members =>
          if r.status.isNews s members then
            (persist d (merged r s members)).run.bind fun x => .done (x, merged r s members)
          else .done (.ok false, r)

/-- A refresh that succeeds answers with the copy that it leaves. -/
theorem refresh_eq_held (d : Option Deadline) (r : Resource) (known : Option RemoteStack) :
    (refresh d r known).run =
      (refreshHeld d r known).bind fun x => .done (x.1.map fun written => (x.2, written)) := by
  rw [refreshHeld, Program.bind_assoc, refresh]
  refine congrArg (observe d r known).run.bind (funext fun found => ?_)
  cases found with
  | error e => rfl
  | ok s =>
    refine congrArg (Program.call (.getMembers s.id) d) (funext fun members => ?_)
    cases members with
    | error e => rfl
    | ok members =>
      cases hn : r.status.isNews s members with
      | true =>
        simp only [Program.done_bind, ExceptT.bindCont, hn, if_true, Program.bind_assoc]
        refine congrArg (persist d (merged r s members)).run.bind (funext fun x => ?_)
        cases x <;> rfl
      | false =>
        simp only [Program.done_bind, ExceptT.bindCont, hn, Bool.false_eq_true, if_false]
        rfl

/-- One call of a refresh: the stack at hand, the calls that it made, and its answer. -/
structure Look where
  known : Option RemoteStack
  log : Log
  answer : Except Error Bool

namespace Look

/-- What the call observed, if its look-ups succeeded. -/
def sighting? (k : Look) : Option Sighting :=
  match k.known, k.log with
  | some s, ⟨.getMembers _, .ok members⟩ :: _ => some (s, members)
  | none, ⟨.getStack _, .ok s⟩ :: ⟨.getMembers _, .ok members⟩ :: _ => some (s, members)
  | _, _ => none

/-- The statuses that the call wrote, each with the answer of the store. -/
def writes (k : Look) : List (Resource × Except Error Unit) :=
  k.log.filterMap fun
    | ⟨.updateStatus r, answer⟩ => some (r, answer)
    | _ => none

end Look

/-- What a call answers after its write. -/
def reported : Except Error Unit → Except Error Bool
  | .ok () => .ok true
  | .error e => if e.isNotFound then .ok false else .error e

/-- How a call on a copy can go, and the copy that it leaves. -/
inductive Turn (r : Resource) (k : Look) : Resource → Prop
  | blind (hs : k.sighting? = none) (hw : k.writes = []) (e : Error) (ha : k.answer = .error e) :
    Turn r k r
  | noNews (o : Sighting) (hs : k.sighting? = some o) (hn : r.status.isNews o.1 o.2 = false)
    (hw : k.writes = []) (ha : k.answer = .ok false) : Turn r k r
  | news (o : Sighting) (hs : k.sighting? = some o) (hn : r.status.isNews o.1 o.2 = true)
    (x : Except Error Unit) (hw : k.writes = [(merged r o.1 o.2, x)]) (ha : k.answer = reported x) :
    Turn r k (merged r o.1 o.2)

theorem ran_persist {d : Option Deadline} {r : Resource} {log : Log} {x : Except Error Bool} :
    Ran (persist d r) log x ↔ ∃ answer, log = [⟨.updateStatus r, answer⟩] ∧ x = reported answer := by
  -- What follows the write makes no further call.
  have hreport : ∀ (answer : Except Error Unit) (rest : Log),
      Ran (match answer with
        | .ok () => pure true
        | .error e => if e.isNotFound then pure false else throw e) rest x ↔
        rest = [] ∧ x = reported answer := by
    intro answer rest
    cases answer with
    | ok _ => exact ran_pure
    | error e =>
      cases he : e.isNotFound with
      | true => simp [reported, he]
      | false => simp [reported, he]
  rw [persist, ran_attempt_bind]
  constructor
  · rintro ⟨answer, first, rest, hw, h, rfl⟩
    obtain ⟨rfl, rfl⟩ := (hreport answer rest).mp h
    exact ⟨answer, by simpa using hw, rfl⟩
  · rintro ⟨answer, rfl, rfl⟩
    exact ⟨answer, _, [], ran_updateStatus.mpr rfl, (hreport answer []).mpr ⟨rfl, rfl⟩, rfl⟩

/-- The stack was at hand, or the calls so far looked it up. -/
inductive Found (ref : String) (s : RemoteStack) : Option RemoteStack → Log → Prop
  | known : Found ref s (some s) []
  | lookedUp : Found ref s none [⟨.getStack ref, .ok s⟩]

/-- Once there is a stack, its members are listed, and what is news is written. -/
theorem turn_of_found {d : Option Deadline} {r r' : Resource} {s : RemoteStack} {ref : String}
    {known : Option RemoteStack} {first rest : Log} {x : Except Error Bool}
    (hf : Found ref s known first) (h : (refreshHeld d r (some s)).Ran rest (x, r')) :
    Turn r ⟨known, first ++ rest, x⟩ r' := by
  obtain ⟨listed, tail, rfl, h⟩ := h
  cases listed with
  | error e =>
    obtain ⟨rfl, hx⟩ := h
    cases hx
    cases hf <;> exact .blind rfl rfl e rfl
  | ok members =>
    have hs : (⟨known, first ++ ⟨.getMembers s.id, .ok members⟩ :: tail, x⟩ : Look).sighting? =
        some (s, members) := by cases hf <;> rfl
    change Program.Ran (if r.status.isNews s members then _ else _) tail (x, r') at h
    split at h
    · rename_i hn
      obtain ⟨y, _, _, hw, ⟨rfl, hx⟩, rfl⟩ := Program.ran_bind.mp h
      obtain ⟨answer, rfl, rfl⟩ := ran_persist.mp hw
      cases hx
      exact .news (s, members) hs hn answer (by cases hf <;> rfl) rfl
    · rename_i hn
      obtain ⟨rfl, hx⟩ := h
      cases hx
      exact .noNews (s, members) hs (Bool.eq_false_iff.mpr hn) (by cases hf <;> rfl) rfl

theorem turn_of_ran {d : Option Deadline} {r r' : Resource} {k : Look}
    (h : (refreshHeld d r k.known).Ran k.log (k.answer, r')) : Turn r k r' := by
  obtain ⟨known, log, x⟩ := k
  cases known with
  | some s =>
    have hf : Found r.stackRef s (some s) [] := .known
    exact turn_of_found hf h
  | none =>
    obtain ⟨found, rest, rfl, h⟩ := h
    cases found with
    | error e =>
      obtain ⟨rfl, hx⟩ := h
      cases hx
      exact .blind rfl rfl e rfl
    | ok s => exact turn_of_found .lookedUp h

/-! ## Sequences of calls -/

/-- Calls of a refresh one after another, each on the copy that the one before has left. -/
inductive Looks (d : Option Deadline) : Resource → List Look → Resource → Prop
  | nil (r : Resource) : Looks d r [] r
  | cons {r r' r'' : Resource} {k : Look} {ks : List Look}
    (h : (refreshHeld d r k.known).Ran k.log (k.answer, r')) (rest : Looks d r' ks r'') :
    Looks d r (k :: ks) r''

def sightings (ks : List Look) : List Sighting := ks.filterMap Look.sighting?

/-- The copy with all that was observed merged into it. -/
def mergedAll (r : Resource) (ks : List Look) : Resource :=
  r.withStatus (r.status.mergeAll (sightings ks))

theorem mergedAll_cons (r : Resource) (k : Look) (ks : List Look) :
    mergedAll r (k :: ks) = match k.sighting? with
      | some o => mergedAll (merged r o.1 o.2) ks
      | none => mergedAll r ks := by
  rw [mergedAll, sightings, List.filterMap_cons]
  cases k.sighting? <;> rfl

theorem Turn.eq_mergedAll {r r' : Resource} {k : Look} (h : Turn r k r') (ks : List Look) :
    mergedAll r (k :: ks) = mergedAll r' ks := by
  rw [mergedAll_cons]
  cases h with
  | blind hs hw e ha => rw [hs]
  | noNews o hs hn hw ha =>
    rw [hs]
    dsimp only
    rw [merged, Status.merge_of_not_isNews hn]
    rfl
  | news o hs hn x hw ha => rw [hs]

/-- Whatever was answered, the copy has all that was observed merged into it. -/
theorem eq_mergedAll_of_looks {d : Option Deadline} {r r' : Resource} {ks : List Look}
    (h : Looks d r ks r') : r' = mergedAll r ks := by
  induction h with
  | nil r => rfl
  | cons h rest ih => rw [ih, (turn_of_ran h).eq_mergedAll]

theorem looks_of_append {d : Option Deadline} {r r' : Resource} {ks ks' : List Look}
    (h : Looks d r (ks ++ ks') r') : ∃ held, Looks d r ks held ∧ Looks d held ks' r' := by
  induction ks generalizing r with
  | nil => exact ⟨r, .nil r, h⟩
  | cons k ks ih =>
    obtain _ | ⟨h, rest⟩ := h
    obtain ⟨held, hks, hks'⟩ := ih rest
    exact ⟨held, .cons h hks, hks'⟩

/-- Each call of a sequence is a turn on the copy with all that was observed before. -/
theorem turn_of_looks {d : Option Deadline} {r r' : Resource} {before after : List Look} {k : Look}
    (h : Looks d r (before ++ k :: after) r') :
    ∃ held, Turn (mergedAll r before) k held ∧ Looks d held after r' := by
  obtain ⟨copy, hbefore, _ | ⟨hk, hafter⟩⟩ := looks_of_append h
  rw [eq_mergedAll_of_looks hbefore] at hk
  exact ⟨_, turn_of_ran hk, hafter⟩

/-- As long as nothing else is observed, what is no news stays no news. -/
theorem writes_of_seen {d : Option Deadline} {r r' : Resource} {ks : List Look} {o : Sighting}
    (h : Looks d r ks r') (hn : r.status.isNews o.1 o.2 = false)
    (hks : ∀ k ∈ ks, k.sighting? = some o ∨ k.sighting? = none) : ∀ k ∈ ks, k.writes = [] := by
  induction h with
  | nil r => simp
  | cons h rest ih =>
    obtain ⟨hk, hks⟩ := List.forall_mem_cons.mp hks
    rw [List.forall_mem_cons]
    cases turn_of_ran h with
    | blind hs hw e ha => exact ⟨hw, ih hn hks⟩
    | noNews o' hs hn' hw ha => exact ⟨hw, ih hn hks⟩
    | news o' hs hn' x hw ha =>
      rw [hs] at hk
      obtain rfl : o' = o := by simpa using hk
      rw [hn] at hn'
      cases hn'

theorem Turn.seen {r r' : Resource} {k : Look} {o : Sighting} (h : Turn r k r')
    (ho : k.sighting? = some o) : r'.status.isNews o.1 o.2 = false := by
  cases h with
  | blind hs hw e ha => cases hs.symm.trans ho
  | noNews o' hs hn hw ha =>
    cases hs.symm.trans ho
    exact hn
  | news o' hs hn x hw ha =>
    cases hs.symm.trans ho
    exact Status.isNews_merge _ _ _

/-- What a call owes the store: its copy with the observation, if that changes the status. -/
def owed (r : Resource) : Option Sighting → List Resource
  | none => []
  | some o => if r.status.merge o.1 o.2 = r.status then [] else [merged r o.1 o.2]

theorem Turn.writes_eq_owed {r r' : Resource} {k : Look} (h : Turn r k r') :
    k.writes.map (·.1) = owed r k.sighting? := by
  cases h with
  | blind hs hw e ha => rw [hs, hw]; rfl
  | noNews o hs hn hw ha =>
    rw [hs, hw, owed, if_pos (Status.merge_of_not_isNews hn)]
    rfl
  | news o hs hn x hw ha =>
    rw [hs, hw, owed, if_neg (Status.isNews_iff.mp hn)]
    rfl

theorem Turn.answer_eq {r r' : Resource} {k : Look} (h : Turn r k r') :
    (k.answer = .ok true ↔ ∃ w, (w, .ok ()) ∈ k.writes) ∧
      (∀ w e, (w, .error e) ∈ k.writes →
        k.answer = if e.isNotFound then .ok false else .error e) ∧
      (k.writes = [] → k.answer = .ok false ∨ k.sighting? = none ∧ ∃ e, k.answer = .error e) := by
  cases h with
  | blind hs hw e ha => simp [hs, hw, ha]
  | noNews o hs hn hw ha => simp [hw, ha]
  | news o hs hn x hw ha =>
    rw [hw, ha]
    cases x with
    | ok _ => simp [reported]
    | error e => cases he : e.isNotFound <;> simp [reported, he]

/-- An observation is news exactly if merging it changes the status, and merging it again changes
nothing. So it is with any calls on one copy, whatever is answered to them: a call writes the status
exactly if what it observed changes the one that all earlier observations have left. It answers that
it has written exactly if the store accepted that; a resource that is gone is no failure, any other
failure of the write is. Once something was observed, no further call writes until something else
is. -/
theorem written_iff_changed :
    (∀ (st : Status) (s : RemoteStack) (members : List Member),
      (st.isNews s members = true ↔ st.merge s members ≠ st) ∧
        (st.merge s members).isNews s members = false ∧
        (st.merge s members).merge s members = st.merge s members) ∧
    (∀ d r known, (refresh d r known).run =
      (refreshHeld d r known).bind fun x => .done (x.1.map fun written => (x.2, written))) ∧
    ∀ d r ks r', Looks d r ks r' → ∀ before k after, ks = before ++ k :: after →
      k.writes.map (·.1) = owed (mergedAll r before) k.sighting? ∧
      (k.answer = .ok true ↔ ∃ w, (w, .ok ()) ∈ k.writes) ∧
      (∀ w e, (w, .error e) ∈ k.writes →
        k.answer = if e.isNotFound then .ok false else .error e) ∧
      (k.writes = [] → k.answer = .ok false ∨ k.sighting? = none ∧ ∃ e, k.answer = .error e) ∧
      ∀ o, k.sighting? = some o → (∀ k' ∈ after, k'.sighting? = some o ∨ k'.sighting? = none) →
        ∀ k' ∈ after, k'.writes = [] := by
  refine ⟨fun st s members => ⟨Status.isNews_iff, Status.isNews_merge st s members,
    Status.merge_merge st s members⟩, refresh_eq_held, ?_⟩
  rintro d r _ r' h before k after rfl
  obtain ⟨held, hturn, hafter⟩ := turn_of_looks h
  obtain ⟨haccepted, hrefused, hunwritten⟩ := hturn.answer_eq
  exact ⟨hturn.writes_eq_owed, haccepted, hrefused, hunwritten,
    fun o ho hsame => writes_of_seen hafter (hturn.seen ho) hsame⟩

def unseenResource : Resource where
  metadata := ⟨"web", "default", "uid-1", 1, none, none, []⟩
  spec := Spec.empty
  status := Status.empty

def freshStack : RemoteStack :=
  ⟨"s1", "default-web", "CREATE_IN_PROGRESS", none, none, TextMap.empty, TextMap.empty, none⟩

/-- The stack is looked up, and the resource is gone when its status is to be written; then the same
stack is at hand again. -/
def sameLooks : List Look :=
  [⟨none, [⟨.getStack "default-web", .ok freshStack⟩, ⟨.getMembers "s1", .ok []⟩,
      ⟨.updateStatus (merged unseenResource freshStack []), .error (.resourceNotFound "default/web")⟩],
    .ok false⟩,
  ⟨some freshStack, [⟨.getMembers "s1", .ok []⟩], .ok false⟩]

theorem written_once_sameLooks :
    Looks none unseenResource sameLooks (merged unseenResource freshStack []) ∧
      sameLooks.map (fun k => k.writes.map (·.1)) = [[merged unseenResource freshStack []], []] := by
  have hlooks : Looks none unseenResource sameLooks (merged unseenResource freshStack []) := by
    refine @Looks.cons _ _ (merged unseenResource freshStack []) _ _ _ ?_ (.cons ?_ (.nil _))
    · exact ⟨_, _, rfl, _, _, rfl, _, _, rfl, rfl, rfl⟩
    · exact ⟨_, _, rfl, rfl, rfl⟩
  obtain ⟨hfirst, -, -, -, hlater⟩ := written_iff_changed.2.2 _ _ _ _ hlooks [] _ _ rfl
  refine ⟨hlooks, ?_⟩
  have hsecond := hlater (freshStack, []) rfl (by simp [Look.sighting?]) _ List.mem_cons_self
  simp only [sameLooks, List.map_cons, List.map_nil, hsecond]
  rw [hfirst]
  rfl

end Refresh
end StackKeeper
