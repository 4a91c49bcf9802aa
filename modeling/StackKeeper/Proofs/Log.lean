import StackKeeper.Program.Basic
/-!
# What a program does under given answers

A log is the list of calls that a program made, each with the answer it got. `Program.Ran p log a`
says that `p`, given the answers in the log, makes the calls in the log and ends with `a`. Nothing is
said about who answered, so a statement about all logs is one about every sequence of answers, errors
included.

Results:
* `Program.ran_bind`, `Job.ran_bind`: the log of a sequence is that of its parts, one after another;
  a job that fails ends the sequence.
* `Job.ran_getResource` and its companions: a single call logs itself and its answer.
-/
namespace StackKeeper

/-- A call with the answer it got. -/
abbrev Event := (c : Call) × c.Answer

/-- The calls a program made, in order, with their answers. -/
abbrev Log := List Event

namespace Log

def calls (log : Log) : List Call := log.map (·.1)

@[simp] theorem calls_nil : calls [] = [] := rfl

@[simp] theorem calls_cons (e : Event) (log : Log) : calls (e :: log) = e.1 :: calls log := rfl

@[simp] theorem calls_append (log rest : Log) : calls (log ++ rest) = calls log ++ calls rest :=
  List.map_append

theorem mem_calls_of_mem {log : Log} {c : Call} {answer : c.Answer} (h : ⟨c, answer⟩ ∈ log) :
    c ∈ log.calls :=
  List.mem_map.mpr ⟨_, h, rfl⟩

end Log

namespace Program

variable {α β : Type}

/-- The program, given the answers of the log, makes the calls of the log and ends with the value. -/
def Ran : Program α → Log → α → Prop
  | .done a, log, b => log = [] ∧ b = a
  | .call c _ next, log, b => ∃ answer rest, log = ⟨c, answer⟩ :: rest ∧ (next answer).Ran rest b

@[simp] theorem ran_done {a b : α} {log : Log} : (done a).Ran log b ↔ log = [] ∧ b = a := Iff.rfl

@[simp] theorem ran_call {c : Call} {d : Option Deadline} {next : c.Answer → Program α} {log : Log}
    {b : α} : (call c d next).Ran log b ↔
      ∃ answer rest, log = ⟨c, answer⟩ :: rest ∧ (next answer).Ran rest b := Iff.rfl

instance : LawfulMonad Program := LawfulMonad.mk' Program bind_done (fun _ _ => rfl) bind_assoc

theorem ran_bind {p : Program α} {f : α → Program β} {log : Log} {b : β} :
    (p.bind f).Ran log b ↔
      ∃ a first rest, p.Ran first a ∧ (f a).Ran rest b ∧ log = first ++ rest := by
  induction p generalizing log with
  | done a =>
    constructor
    · intro h
      exact ⟨a, [], log, ⟨rfl, rfl⟩, h, rfl⟩
    · rintro ⟨_, _, rest, ⟨rfl, rfl⟩, h, rfl⟩
      exact h
  | call c d next ih =>
    simp only [call_bind, ran_call, ih]
    constructor
    · rintro ⟨answer, _, rfl, a, first, rest, hp, hf, rfl⟩
      exact ⟨a, ⟨c, answer⟩ :: first, rest, ⟨answer, first, rfl, hp⟩, hf, rfl⟩
    · rintro ⟨a, _, rest, ⟨answer, first, rfl, hp⟩, hf, rfl⟩
      exact ⟨answer, first ++ rest, rfl, a, first, rest, hp, hf, rfl⟩

end Program

/-- A write that did what it should, or whose resource is gone. -/
def Forgiven (answer : Except Error Unit) : Prop :=
  answer = .ok () ∨ ∃ e, answer = .error e ∧ e.isNotFound = true

namespace Job

variable {α β : Type}

/-- The job, given the answers of the log, makes the calls of the log and ends with the result. -/
def Ran (t : Job α) (log : Log) (result : Except Error α) : Prop := Program.Ran t.run log result

@[simp] theorem ran_pure {a : α} {log : Log} {result : Except Error α} :
    Ran (pure a) log result ↔ log = [] ∧ result = .ok a := Iff.rfl

@[simp] theorem ran_throw {e : Error} {log : Log} {result : Except Error α} :
    Ran (throw e) log result ↔ log = [] ∧ result = .error e := Iff.rfl

theorem ran_bind {t : Job α} {f : α → Job β} {log : Log} {result : Except Error β} :
    Ran (t >>= f) log result ↔
      (∃ e, Ran t log (.error e) ∧ result = .error e) ∨
      ∃ a first rest, Ran t first (.ok a) ∧ Ran (f a) rest result ∧ log = first ++ rest := by
  have hb : Ran (t >>= f) log result ↔
      ∃ x first rest, Ran t first x ∧ Program.Ran (ExceptT.bindCont f x) rest result ∧
        log = first ++ rest := Program.ran_bind
  rw [hb]
  constructor
  · rintro ⟨x, first, rest, ht, hf, rfl⟩
    cases x with
    | ok a => exact .inr ⟨a, first, rest, ht, hf, rfl⟩
    | error e =>
      obtain ⟨rfl, rfl⟩ := Program.ran_done.mp hf
      exact .inl ⟨e, by simpa using ht, rfl⟩
  · rintro (⟨e, ht, rfl⟩ | ⟨a, first, rest, ht, hf, rfl⟩)
    · exact ⟨.error e, log, [], ht, ⟨rfl, rfl⟩, by simp⟩
    · exact ⟨.ok a, first, rest, ht, hf, rfl⟩

theorem Ran.bind {t : Job α} {f : α → Job β} {first rest : Log} {a : α} {result : Except Error β}
    (ht : Ran t first (.ok a)) (hf : Ran (f a) rest result) : Ran (t >>= f) (first ++ rest) result :=
  ran_bind.mpr (.inr ⟨a, first, rest, ht, hf, rfl⟩)

theorem Ran.bind_error {t : Job α} {f : α → Job β} {first : Log} {e : Error}
    (ht : Ran t first (.error e)) : Ran (t >>= f) first (.error e) :=
  ran_bind.mpr (.inl ⟨e, ht, rfl⟩)

@[simp] theorem ran_throw_bind {e : Error} {f : α → Job β} {log : Log} {result : Except Error β} :
    Ran (throw e >>= f) log result ↔ log = [] ∧ result = .error e := by
  rw [ran_bind]
  constructor
  · rintro (⟨e', ht, rfl⟩ | ⟨_, _, _, ht, -⟩)
    · obtain ⟨rfl, he⟩ := ran_throw.mp ht
      cases he
      exact ⟨rfl, rfl⟩
    · cases (ran_throw.mp ht).2
  · rintro ⟨rfl, rfl⟩
    exact .inl ⟨e, ran_throw.mpr ⟨rfl, rfl⟩, rfl⟩

/-- What an attempt goes on with is the result of the job, be it an error. -/
theorem ran_attempt {t : Job α} {log : Log} {result : Except Error (Except Error α)} :
    Ran t.attempt log result ↔ ∃ x, Ran t log x ∧ result = .ok x := by
  have hb : Ran t.attempt log result ↔
      ∃ x first rest, Ran t first x ∧ Program.Ran (.done (.ok x)) rest result ∧
        log = first ++ rest := Program.ran_bind
  rw [hb]
  constructor
  · rintro ⟨x, first, rest, ht, ⟨rfl, rfl⟩, rfl⟩
    exact ⟨x, by simpa using ht, rfl⟩
  · rintro ⟨x, ht, rfl⟩
    exact ⟨x, log, [], ht, ⟨rfl, rfl⟩, by simp⟩

/-- An attempt never ends a sequence. -/
theorem ran_attempt_bind {t : Job α} {f : Except Error α → Job β} {log : Log}
    {result : Except Error β} : Ran (t.attempt >>= f) log result ↔
      ∃ x first rest, Ran t first x ∧ Ran (f x) rest result ∧ log = first ++ rest := by
  simp [ran_bind, ran_attempt]

theorem Ran.attempt_bind {t : Job α} {f : Except Error α → Job β} {first rest : Log}
    {x : Except Error α} {result : Except Error β} (ht : Ran t first x)
    (hf : Ran (f x) rest result) : Ran (t.attempt >>= f) (first ++ rest) result :=
  ran_attempt_bind.mpr ⟨x, first, rest, ht, hf, rfl⟩

/-! ## Writes -/

/-- What follows a write runs unless the write failed for another reason than a missing resource. -/
theorem ran_unlessMissing_bind {t : Job Unit} {f : Unit → Job β} {log : Log}
    {result : Except Error β} (h : Ran (t.unlessMissing >>= f) log result) :
    ∃ answer first, Ran t first answer ∧
      ((∃ rest, Forgiven answer ∧ log = first ++ rest ∧ Ran (f ()) rest result) ∨
        ∃ e, answer = .error e ∧ e.isNotFound = false ∧ log = first ∧ result = .error e) := by
  rw [unlessMissing, bind_assoc, ran_attempt_bind] at h
  obtain ⟨answer, first, rest, ht, h, rfl⟩ := h
  refine ⟨answer, first, ht, ?_⟩
  cases answer with
  | ok _ =>
    rw [pure_bind] at h
    exact .inl ⟨rest, .inl rfl, rfl, h⟩
  | error e =>
    cases he : e.isNotFound with
    | true =>
      simp only [he, if_true, pure_bind] at h
      exact .inl ⟨rest, .inr ⟨e, rfl, he⟩, rfl, h⟩
    | false =>
      simp only [he, Bool.false_eq_true, if_false] at h
      obtain ⟨rfl, rfl⟩ := ran_throw_bind.mp h
      exact .inr ⟨e, rfl, he, List.append_nil first, rfl⟩

theorem Ran.unlessMissing_bind {t : Job Unit} {f : Unit → Job β} {first rest : Log}
    {answer : Except Error Unit} {result : Except Error β} (ht : Ran t first answer)
    (ha : Forgiven answer) (hf : Ran (f ()) rest result) :
    Ran (t.unlessMissing >>= f) (first ++ rest) result := by
  rw [unlessMissing, bind_assoc]
  refine Ran.attempt_bind ht ?_
  obtain rfl | ⟨e, rfl, he⟩ := ha
  · simpa using hf
  · simpa [he] using hf

theorem Ran.unlessMissing_error {t : Job Unit} {f : Unit → Job β} {first : Log} {e : Error}
    (ht : Ran t first (.error e)) (he : e.isNotFound = false) :
    Ran (t.unlessMissing >>= f) first (.error e) := by
  rw [unlessMissing, bind_assoc, ← List.append_nil first]
  refine Ran.attempt_bind ht ?_
  simp [he]

/-! ## Single calls -/

section
variable {l : Locator} {r : Resource} {d : Option Deadline} {ref : String} {inputs : StackInputs}
  {onFailure : Option String} {request : FollowRequest} {log : Log}

/-- A job that makes one call and answers with what `f` makes of the answer. -/
theorem ran_single (c : Call) (f : c.Answer → Except Error α) {result : Except Error α} :
    Ran (ExceptT.mk (.call c d fun answer => .done (f answer))) log result ↔
      ∃ answer, log = [⟨c, answer⟩] ∧ result = f answer := by
  constructor
  · rintro ⟨answer, rest, rfl, rfl, rfl⟩
    exact ⟨answer, rfl, rfl⟩
  · rintro ⟨answer, rfl, rfl⟩
    exact ⟨answer, [], rfl, rfl, rfl⟩

@[simp] theorem ran_getResource {result : Except Error Resource} :
    Ran (getResource l d) log result ↔ log = [⟨.getResource l, result⟩] :=
  (ran_single (.getResource l) id).trans (by simp)

@[simp] theorem ran_updateResource {result : Except Error Unit} :
    Ran (updateResource r) log result ↔ log = [⟨.updateResource r, result⟩] :=
  (ran_single (.updateResource r) id).trans (by simp)

@[simp] theorem ran_updateStatus {result : Except Error Unit} :
    Ran (updateStatus r d) log result ↔ log = [⟨.updateStatus r, result⟩] :=
  (ran_single (.updateStatus r) id).trans (by simp)

@[simp] theorem ran_getStack {result : Except Error RemoteStack} :
    Ran (getStack ref d) log result ↔ log = [⟨.getStack ref, result⟩] :=
  (ran_single (.getStack ref) id).trans (by simp)

@[simp] theorem ran_getMembers {result : Except Error (List Member)} :
    Ran (getMembers ref d) log result ↔ log = [⟨.getMembers ref, result⟩] :=
  (ran_single (.getMembers ref) id).trans (by simp)

@[simp] theorem ran_createStack {result : Except Error String} :
    Ran (createStack inputs onFailure d) log result ↔
      log = [⟨.createStack inputs onFailure, result⟩] :=
  (ran_single (.createStack inputs onFailure) id).trans (by simp)

@[simp] theorem ran_updateStack {result : Except Error Unit} :
    Ran (updateStack inputs d) log result ↔ log = [⟨.updateStack inputs, result⟩] :=
  (ran_single (.updateStack inputs) id).trans (by simp)

@[simp] theorem ran_deleteStack {result : Except Error Unit} :
    Ran (deleteStack ref d) log result ↔ log = [⟨.deleteStack ref, result⟩] :=
  (ran_single (.deleteStack ref) id).trans (by simp)

@[simp] theorem ran_submit {result : Except Error Unit} :
    Ran (submit request) log result ↔ log = [⟨.submit request, ()⟩] ∧ result = .ok () :=
  (ran_single (.submit request) .ok).trans ⟨fun ⟨_, h⟩ => h, fun h => ⟨(), h⟩⟩

@[simp] theorem ran_unfollow {result : Except Error Unit} :
    Ran (unfollow ref) log result ↔ log = [⟨.unfollow ref, ()⟩] ∧ result = .ok () :=
  (ran_single (.unfollow ref) .ok).trans ⟨fun ⟨_, h⟩ => h, fun h => ⟨(), h⟩⟩

end

/-- A submission is logged and what follows it runs. -/
theorem ran_submit_bind {request : FollowRequest} {f : Unit → Job β} {log : Log}
    {result : Except Error β} (h : Ran (submit request >>= f) log result) :
    ∃ rest, log = ⟨.submit request, ()⟩ :: rest ∧ Ran (f ()) rest result := by
  rcases ran_bind.mp h with ⟨_, hs, -⟩ | ⟨_, first, rest, hs, hrest, rfl⟩
  · cases (ran_submit.mp hs).2
  · obtain ⟨rfl, -⟩ := ran_submit.mp hs
    exact ⟨rest, rfl, hrest⟩

end Job
end StackKeeper
