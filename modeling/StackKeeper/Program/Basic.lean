import StackKeeper.Program.Call
/-!
# Programs

What the operator does is a program: a tree that either is done or makes one call and goes on
with its answer. A program says nothing about who answers. The same program runs against a store on
disk, against a rehearsal in memory, and under a proof against every possible sequence of answers.

A `Job` is a program that may fail. Every call may carry a deadline; a call that never returns is
answered by the error of its deadline.
-/
namespace StackKeeper

/-- A computation that makes calls. -/
inductive Program (α : Type) where
  | done (value : α)
  | call (c : Call) (deadline : Option Deadline) (next : c.Answer → Program α)

namespace Program

variable {α β : Type}

def bind : Program α → (α → Program β) → Program β
  | done a, f => f a
  | call c d next, f => call c d fun answer => (next answer).bind f

instance : Monad Program where
  pure := done
  bind := bind

@[simp] theorem done_bind (a : α) (f : α → Program β) : (done a).bind f = f a := rfl

@[simp] theorem call_bind (c : Call) (d : Option Deadline) (next : c.Answer → Program α)
    (f : α → Program β) : (call c d next).bind f = call c d fun answer => (next answer).bind f :=
  rfl

theorem bind_done (p : Program α) : p.bind done = p := by
  induction p with
  | done a => rfl
  | call c d next ih => simp [ih]

theorem bind_assoc {γ : Type} (p : Program α) (f : α → Program β) (g : β → Program γ) :
    (p.bind f).bind g = p.bind fun a => (f a).bind g := by
  induction p with
  | done a => rfl
  | call c d next ih => simp [ih]

end Program

/-- A program that may fail. -/
abbrev Job (α : Type) := ExceptT Error Program α

namespace Job

variable {α : Type}

/-- The result of a job, be it an error. -/
def attempt (t : Job α) : Job (Except Error α) :=
  ExceptT.mk (Program.bind t.run fun result => .done (.ok result))

/-- A write for which it is fine that the resource is gone. -/
def unlessMissing (t : Job Unit) : Job Unit := do
  match ← t.attempt with
  | .ok () => pure ()
  | .error e => if e.isNotFound then pure () else throw e

/-! ## Calls as jobs -/

def getResource (l : Locator) (d : Option Deadline) : Job Resource :=
  ExceptT.mk (.call (.getResource l) d .done)

def updateResource (r : Resource) : Job Unit := ExceptT.mk (.call (.updateResource r) none .done)

def updateStatus (r : Resource) (d : Option Deadline) : Job Unit :=
  ExceptT.mk (.call (.updateStatus r) d .done)

def listResources : Job (List Locator) := ExceptT.mk (.call .listResources none .done)

def getStack (stack : String) (d : Option Deadline) : Job RemoteStack :=
  ExceptT.mk (.call (.getStack stack) d .done)

def getMembers (stackId : String) (d : Option Deadline) : Job (List Member) :=
  ExceptT.mk (.call (.getMembers stackId) d .done)

/-- Creates a remote stack and answers its id. -/
def createStack (inputs : StackInputs) (onFailure : Option String) (d : Option Deadline) :
    Job String :=
  ExceptT.mk (.call (.createStack inputs onFailure) d .done)

def updateStack (inputs : StackInputs) (d : Option Deadline) : Job Unit :=
  ExceptT.mk (.call (.updateStack inputs) d .done)

def deleteStack (stack : String) (d : Option Deadline) : Job Unit :=
  ExceptT.mk (.call (.deleteStack stack) d .done)

def submit (request : FollowRequest) : Job Unit :=
  ExceptT.mk (.call (.submit request) none fun answer => .done (.ok answer))

def unfollow (stackId : String) : Job Unit :=
  ExceptT.mk (.call (.unfollow stackId) none fun answer => .done (.ok answer))

end Job
end StackKeeper
