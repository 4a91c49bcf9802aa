import StackKeeper.Proofs.Log
/-!
# Programs and whoever answers them

A party answers calls, and what it answers may depend on all that was called before: so every store
and every provisioning API is part of some party, in any state. Against a party a program has one log
and one result.

Results:
* `Program.ran_against`, `Program.against_of_ran`: that log is the one whose answers the party gives.
* `Party.gives_append`: a log is answered in parts.
* `Party.gives_replay`: every log is answered by some party.
-/
namespace StackKeeper

/-- Whoever answers: the answer to a call after the given log. -/
abbrev Party := Log → (c : Call) → c.Answer

/-- The answers of the log are those that the party gives after what was called before. -/
def Party.Gives (b : Party) : Log → Log → Prop
  | _, [] => True
  | before, e :: rest => e.2 = b before e.1 ∧ Gives b (before ++ [e]) rest

/-- The log and the result of a program whose calls the party answers. -/
def Program.against {α : Type} (b : Party) : Program α → Log → Log × α
  | .done a, _ => ([], a)
  | .call c _ next, before =>
    let answer := b before c
    let after := (next answer).against b (before ++ [⟨c, answer⟩])
    (⟨c, answer⟩ :: after.1, after.2)

namespace Party

variable {b : Party} {before log rest : Log}

theorem gives_append :
    b.Gives before (log ++ rest) ↔ b.Gives before log ∧ b.Gives (before ++ log) rest := by
  induction log generalizing before with
  | nil => simp [Gives]
  | cons e log ih => simp [Gives, ih, and_assoc]

theorem Gives.of_prefix (h : b.Gives before rest) (hp : log <+: rest) : b.Gives before log := by
  obtain ⟨tail, rfl⟩ := hp
  exact (gives_append.mp h).1

/-- The party that answers as the log says, as long as it is called as the log says. -/
def replay (log : Log) : Party := fun before c =>
  match log[before.length]? with
  | some ⟨c', answer⟩ => if h : c' = c then h ▸ answer else c.failed (.internal "not expected")
  | none => c.failed (.internal "not expected")

theorem gives_replay (before log : Log) : (replay (before ++ log)).Gives before log := by
  induction log generalizing before with
  | nil => trivial
  | cons e log ih =>
    refine ⟨by simp [replay], ?_⟩
    simpa using ih (before ++ [e])

end Party

namespace Program

variable {α : Type} {b : Party} {before log : Log}

theorem ran_against (p : Program α) (b : Party) (before : Log) :
    p.Ran (p.against b before).1 (p.against b before).2 ∧
      b.Gives before (p.against b before).1 := by
  induction p generalizing before with
  | done a => exact ⟨⟨rfl, rfl⟩, trivial⟩
  | call c d next ih =>
    obtain ⟨hran, hgives⟩ := ih (b before c) (before ++ [⟨c, b before c⟩])
    exact ⟨⟨_, _, rfl, hran⟩, rfl, hgives⟩

theorem against_of_ran {p : Program α} {a : α} (h : p.Ran log a) (hb : b.Gives before log) :
    p.against b before = (log, a) := by
  induction p generalizing before log with
  | done a' =>
    obtain ⟨rfl, rfl⟩ := h
    rfl
  | call c d next ih =>
    obtain ⟨answer, rest, rfl, hrest⟩ := h
    obtain ⟨hanswer, hgives⟩ := hb
    change answer = b before c at hanswer
    subst hanswer
    rw [against, ih _ hrest hgives]

end Program
end StackKeeper
