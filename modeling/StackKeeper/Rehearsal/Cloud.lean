import StackKeeper.Error
import StackKeeper.Stack.Inputs
/-!
# A provisioning API in memory

A small stand-in for the remote side: stacks by id, names that lead to ids, and lists of resources.
A created or updated stack is at work until its status is set, or until a settling time has passed if
one is given. Times are nanoseconds on the clock of the rehearsal.
-/
namespace StackKeeper

/-- A stack and the time at which its status was set. -/
structure CloudStack where
  stack : RemoteStack
  since : Nat

structure Cloud where
  contents : List CloudStack
  names : List (String × String)
  members : List (String × List Member)
  created : Nat
  settleNanos : Option Nat

namespace Cloud

def empty (settleNanos : Option Nat) : Cloud := ⟨[], [], [], 0, settleNanos⟩

def byId? (c : Cloud) (id : String) : Option CloudStack := c.contents.find? fun s => s.stack.id == id

/-- The id that a reference leads to: an id itself, or else a name. -/
def resolve? (c : Cloud) (ref : String) : Option String :=
  if (c.byId? ref).isSome then some ref else c.names.lookup ref

/-- Puts a stack in place of the one with its id, and lets its name lead to it. -/
def putStack (c : Cloud) (s : RemoteStack) (now : Nat) : Cloud :=
  { c with
    contents := c.contents.filter (fun t => t.stack.id != s.id) ++ [⟨s, now⟩]
    names := (s.name, s.id) :: c.names.filter fun e => e.1 != s.name }

def modify (c : Cloud) (id : String) (f : CloudStack → CloudStack) : Cloud :=
  { c with contents := c.contents.map fun t => if t.stack.id == id then f t else t }

def withStatus (status : String) (now : Nat) (t : CloudStack) : CloudStack :=
  ⟨{ t.stack with status := status }, now⟩

/-- Sets the status of the stack that a reference leads to, and answers its id. -/
def setStatus (c : Cloud) (ref status : String) (now : Nat) : Option String × Cloud :=
  match c.resolve? ref with
  | some id => (some id, c.modify id (withStatus status now))
  | none => (none, c)

/-- Removes the stack that a reference leads to, and answers its id. -/
def forget (c : Cloud) (ref : String) : Option String × Cloud :=
  match c.resolve? ref with
  | some id =>
    (some id,
      { c with
        contents := c.contents.filter fun t => t.stack.id != id
        names := c.names.filter fun e => e.2 != id })
  | none => (none, c)

def setMembers (c : Cloud) (id : String) (l : List Member) : Cloud :=
  { c with members := (id, l) :: c.members.filter fun e => e.1 != id }

def sorted (c : Cloud) : List RemoteStack :=
  (c.contents.map (·.stack)).mergeSort fun a b => a.id ≤ b.id

/-- The settled form of a status that says that work is in progress. -/
def settledStatus? (status : String) : Option String :=
  let ending := "_IN_PROGRESS".toList
  let s := status.toList
  if ending.isSuffixOf s then
    some (String.ofList (s.take (s.length - ending.length) ++ "_COMPLETE".toList))
  else none

/-- Completes the work of a stack once the settling time has passed. -/
def settle (c : Cloud) (id : String) (now : Nat) : Cloud :=
  match c.settleNanos with
  | none => c
  | some time =>
    c.modify id fun t =>
      match settledStatus? t.stack.status with
      | some status => if t.since + time ≤ now then withStatus status now t else t
      | none => t

/-! ## Requests -/

/-- Looks up a stack. -/
def getStack (c : Cloud) (ref : String) (now : Nat) : Except Error RemoteStack × Cloud :=
  match c.resolve? ref with
  | none => (.error (.stackNotFound ref), c)
  | some id =>
    let c := c.settle id now
    match c.byId? id with
    | some t => (.ok t.stack, c)
    | none => (.error (.stackNotFound ref), c)

def getMembers (c : Cloud) (id : String) : List Member := (c.members.lookup id).getD []

/-- Creates a stack and answers its id. -/
def createStack (c : Cloud) (inputs : StackInputs) (now : Nat) : String × Cloud :=
  let n := c.created + 1
  let id := "arn:stack/" ++ inputs.stack ++ "/" ++ Text.decimalText n
  let s : RemoteStack :=
    ⟨id, inputs.stack, "CREATE_IN_PROGRESS", none, none, TextMap.empty, inputs.tags, inputs.role⟩
  (id, { c with created := n }.putStack s now)

/-- Updates a stack: its tags are replaced and it goes to work. -/
def updateStack (c : Cloud) (inputs : StackInputs) (now : Nat) : Except Error Unit × Cloud :=
  match c.resolve? inputs.stack with
  | none => (.error (.stackNotFound inputs.stack), c)
  | some id =>
    (.ok (), c.modify id fun t =>
      ⟨{ t.stack with status := "UPDATE_IN_PROGRESS", tags := inputs.tags }, now⟩)

/-- Deletes a stack: it goes to work unless it is already gone. -/
def deleteStack (c : Cloud) (ref : String) (now : Nat) : Cloud :=
  match c.resolve? ref with
  | none => c
  | some id =>
    c.modify id fun t =>
      if t.stack.isDeleted then t else withStatus Lifecycle.deleteInProgress now t

end Cloud
end StackKeeper
