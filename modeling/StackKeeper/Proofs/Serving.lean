import StackKeeper.Proofs.Log
import StackKeeper.Store.Local
/-!
# Logs with a store and an API behind them

A log says what was answered and not by whom. Here its calls are answered one after another by a
store, whose state moves with them, and by a provisioning API that gives fixed answers.

Results:
* `chain_append`: a log is served in parts.
-/
namespace StackKeeper

section
variable {σ ε : Type}

/-- The events of the list take the state from the first to the last one. -/
def Chain (step : σ → ε → σ → Prop) : σ → List ε → σ → Prop
  | s, [], s' => s' = s
  | s, e :: events, s' => ∃ m, step s e m ∧ Chain step m events s'

variable {step : σ → ε → σ → Prop} {s s' : σ} {e : ε} {events rest : List ε}

@[simp] theorem chain_nil : Chain step s [] s' ↔ s' = s := Iff.rfl

@[simp] theorem chain_cons :
    Chain step s (e :: events) s' ↔ ∃ m, step s e m ∧ Chain step m events s' := Iff.rfl

theorem chain_append :
    Chain step s (events ++ rest) s' ↔ ∃ m, Chain step s events m ∧ Chain step m rest s' := by
  induction events generalizing s with
  | nil => simp
  | cons e events ih =>
    simp only [List.cons_append, chain_cons, ih]
    constructor
    · rintro ⟨m, he, m', hl, hr⟩
      exact ⟨m', ⟨m, he, hl⟩, hr⟩
    · rintro ⟨m', ⟨m, he, hl⟩, hr⟩
      exact ⟨m, he, m', hl, hr⟩

theorem chain_concat :
    Chain step s (events ++ [e]) s' ↔ ∃ m, Chain step s events m ∧ step m e s' := by
  simp [chain_append]

end

namespace Store

/-- The event is answered by the store, or is none of its business. -/
def Serves (s : Store) (e : Event) (s' : Store) : Prop :=
  match e with
  | ⟨.getResource l, answer⟩ => answer = s.get l ∧ s' = s
  | ⟨.updateResource r, answer⟩ => s.update r = (answer, s')
  | ⟨.updateStatus r, answer⟩ => s.updateStatus r = (answer, s')
  | _ => s' = s

end Store

/-- A provisioning API that keeps giving the same answers. A stack that has an id is the same
whether it is looked up by its id or in another way. -/
structure Api where
  getStack : String → Except Error RemoteStack
  getMembers : String → Except Error (List Member)
  updateStack : StackInputs → Except Error Unit
  sameById : ∀ ref s, getStack ref = .ok s → s.id ≠ "" → getStack s.id = .ok s

namespace Api

/-- The event is answered by the API, or is none of its business. -/
def Serves (api : Api) (e : Event) : Prop :=
  match e with
  | ⟨.getStack ref, answer⟩ => answer = api.getStack ref
  | ⟨.getMembers id, answer⟩ => answer = api.getMembers id
  | ⟨.updateStack inputs, answer⟩ => answer = api.updateStack inputs
  | _ => True

end Api
end StackKeeper
