import StackKeeper.Follow.Tick
import StackKeeper.Proofs.StageLog
/-!
# What a tick can do

The logs of looking at one followed stack, and from them those of a tick, which looks at its entries
in turn.

Results:
* `ran_lookAt_iff`: the logs of looking at one entry.
* `ran_lookAtAll_cons`: a tick over several entries is a look at the first and a tick over the others.
-/
namespace StackKeeper.Follow
open Job Refresh

variable {secs : Nat} {id : String} {l : Locator} {log : Log}

/-- The logs of looking at one followed stack. -/
inductive LookLog (id : String) (l : Locator) : Log → Except Error EntryOutcome → Prop
  | unread (e : Error) (he : e.isNotFound = false) :
    LookLog id l [⟨.getResource l, .error e⟩] (.error e)
  | resourceGone (e : Error) (he : e.isNotFound = true) :
    LookLog id l [⟨.getResource l, .error e⟩, ⟨.unfollow id, ()⟩] (.ok (.stopped .resourceGone))
  | unseen (r : Resource) (e : Error) (he : e.isStackNotFound = false) :
    LookLog id l [⟨.getResource l, .ok r⟩, ⟨.getStack id, .error e⟩] (.error e)
  | stackGone (r : Resource) (e : Error) (he : e.isStackNotFound = true) :
    LookLog id l [⟨.getResource l, .ok r⟩, ⟨.getStack id, .error e⟩, ⟨.unfollow id, ()⟩]
      (.ok (.stopped .stackGone))
  | unrefreshed (r : Resource) (s : RemoteStack) (e : Error) {log : Log}
    (h : RefreshLog r s log (.error e)) :
    LookLog id l (⟨.getResource l, .ok r⟩ :: ⟨.getStack id, .ok s⟩ :: log) (.error e)
  | settled (r : Resource) (s : RemoteStack) (ht : Lifecycle.isTerminal s.status = true)
    {x : Resource × Bool} {log : Log} (h : RefreshLog r s log (.ok x)) :
    LookLog id l
      (⟨.getResource l, .ok r⟩ :: ⟨.getStack id, .ok s⟩ :: (log ++ [⟨.unfollow id, ()⟩]))
      (.ok (.stopped .terminal))
  | atWork (r : Resource) (s : RemoteStack) (ht : Lifecycle.isTerminal s.status = false)
    {x : Resource × Bool} {log : Log} (h : RefreshLog r s log (.ok x)) :
    LookLog id l (⟨.getResource l, .ok r⟩ :: ⟨.getStack id, .ok s⟩ :: log) (.ok .inProgress)

theorem ran_stop {reason : StopReason} {result : Except Error EntryOutcome} :
    Ran (stop id reason) log result ↔
      log = [⟨.unfollow id, ()⟩] ∧ result = .ok (.stopped reason) := by
  rw [stop, ran_bind]
  constructor
  · rintro (⟨_, h, -⟩ | ⟨_, _, _, h, hp, rfl⟩)
    · cases (ran_unfollow.mp h).2
    · obtain ⟨rfl, rfl⟩ := ran_pure.mp hp
      exact ⟨by rw [(ran_unfollow.mp h).1, List.append_nil], rfl⟩
  · rintro ⟨rfl, rfl⟩
    exact .inr ⟨(), _, [], ran_unfollow.mpr ⟨rfl, rfl⟩, ⟨rfl, rfl⟩, rfl⟩

theorem lookLog_of_ran {result : Except Error EntryOutcome} (h : Ran (lookAt secs id l) log result) :
    LookLog id l log result := by
  rw [lookAt, ran_attempt_bind] at h
  obtain ⟨answer, first, rest, hg, h, rfl⟩ := h
  rw [ran_getResource] at hg
  subst hg
  cases answer with
  | error e =>
    cases he : e.isNotFound with
    | true =>
      simp only [he, if_true, ran_stop] at h
      obtain ⟨rfl, rfl⟩ := h
      exact .resourceGone e he
    | false =>
      simp only [he, Bool.false_eq_true, if_false, ran_throw] at h
      obtain ⟨rfl, rfl⟩ := h
      exact .unread e he
  | ok r =>
    rw [ran_attempt_bind] at h
    obtain ⟨answer, second, rest, hs, h, rfl⟩ := h
    rw [ran_getStack] at hs
    subst hs
    cases answer with
    | error e =>
      cases he : e.isStackNotFound with
      | true =>
        simp only [he, if_true, ran_stop] at h
        obtain ⟨rfl, rfl⟩ := h
        exact .stackGone r e he
      | false =>
        simp only [he, Bool.false_eq_true, if_false, ran_throw] at h
        obtain ⟨rfl, rfl⟩ := h
        exact .unseen r e he
    | ok s =>
      rcases ran_bind.mp h with ⟨e, hr, rfl⟩ | ⟨x, third, tail, hr, ht, rfl⟩
      · exact .unrefreshed r s e (refreshLog_of_ran hr)
      · cases hterm : Lifecycle.isTerminal s.status with
        | true =>
          simp only [hterm, if_true, ran_stop] at ht
          obtain ⟨rfl, rfl⟩ := ht
          exact .settled r s hterm (refreshLog_of_ran hr)
        | false =>
          simp only [hterm, Bool.false_eq_true, if_false, ran_pure] at ht
          obtain ⟨rfl, rfl⟩ := ht
          rw [List.append_nil]
          exact .atWork r s hterm (refreshLog_of_ran hr)

theorem LookLog.ran {result : Except Error EntryOutcome} (h : LookLog id l log result) :
    Ran (lookAt secs id l) log result := by
  rw [lookAt]
  cases h with
  | unread e he =>
    refine .attempt_bind (ran_getResource.mpr rfl) ?_
    simp [he]
  | resourceGone e he =>
    refine .attempt_bind (ran_getResource.mpr rfl) ?_
    simp only [he, if_true]
    exact ran_stop.mpr ⟨rfl, rfl⟩
  | unseen r e he =>
    refine .attempt_bind (ran_getResource.mpr rfl) (.attempt_bind (ran_getStack.mpr rfl) ?_)
    simp [he]
  | stackGone r e he =>
    refine .attempt_bind (ran_getResource.mpr rfl) (.attempt_bind (ran_getStack.mpr rfl) ?_)
    simp only [he, if_true]
    exact ran_stop.mpr ⟨rfl, rfl⟩
  | unrefreshed r s e h =>
    refine .attempt_bind (ran_getResource.mpr rfl) (.attempt_bind (ran_getStack.mpr rfl) ?_)
    exact .bind_error h.ran
  | settled r s ht h =>
    refine .attempt_bind (ran_getResource.mpr rfl) (.attempt_bind (ran_getStack.mpr rfl) ?_)
    refine .bind h.ran ?_
    simp only [ht, if_true]
    exact ran_stop.mpr ⟨rfl, rfl⟩
  | @atWork r s ht x log h =>
    refine .attempt_bind (ran_getResource.mpr rfl) (.attempt_bind (ran_getStack.mpr rfl) ?_)
    rw [← List.append_nil log]
    refine .bind h.ran ?_
    simp only [ht, Bool.false_eq_true, if_false]
    exact ⟨rfl, rfl⟩

theorem ran_lookAt_iff {result : Except Error EntryOutcome} :
    Ran (lookAt secs id l) log result ↔ LookLog id l log result :=
  ⟨lookLog_of_ran, LookLog.ran⟩

theorem ran_lookAtAll_cons {sum total : TickSummary} {rest : List (String × Locator)} :
    Program.Ran (lookAtAll secs sum ((id, l) :: rest)) log total ↔
      ∃ x first tail, LookLog id l first x ∧
        Program.Ran (lookAtAll secs (sum.count x) rest) tail total ∧ log = first ++ tail := by
  rw [lookAtAll, Program.ran_bind]
  exact exists_congr fun x => exists_congr fun first => exists_congr fun tail =>
    and_congr_left fun _ => ran_lookAt_iff

end StackKeeper.Follow
