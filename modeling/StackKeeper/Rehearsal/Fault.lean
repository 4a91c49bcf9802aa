import StackKeeper.Program.Call
/-!
# Planned failures

A rehearsal can let calls fail. A planned failure names a kind of call, possibly one target, how many
matching calls go through before it strikes and how many it strikes. Of all planned failures only
the first one that matches a call counts.
-/
namespace StackKeeper

/-- The kinds of calls that can be made to fail. -/
inductive CallKind where
  | getStack
  | getMembers
  | createStack
  | updateStack
  | deleteStack
  | getResource
  | listResources
  | updateResource
  | updateStatus
deriving DecidableEq

/-- What a struck call does: it fails, or it never returns. -/
inductive Blow where
  | error (e : Error)
  | stall

structure Fault where
  kind : CallKind
  target : Option String
  times : Nat
  skip : Nat
  blow : Blow

namespace Call

/-- The kind of a call and what it addresses. -/
def address? : Call → Option (CallKind × String)
  | .getResource l => some (.getResource, l.text)
  | .updateResource r => some (.updateResource, r.locator.text)
  | .updateStatus r => some (.updateStatus, r.locator.text)
  | .listResources => some (.listResources, "")
  | .getStack ref => some (.getStack, ref)
  | .getMembers id => some (.getMembers, id)
  | .createStack inputs _ => some (.createStack, inputs.stack)
  | .updateStack inputs => some (.updateStack, inputs.stack)
  | .deleteStack ref => some (.deleteStack, ref)
  | .submit _ | .unfollow _ => none

end Call

namespace Fault

def fits (f : Fault) (kind : CallKind) (target : String) : Bool :=
  f.kind == kind && (f.target.getD target == target)

/-- Counts a matching call. The answer is the blow, if it strikes, and what is still planned. -/
def strike (f : Fault) : Option Blow × Option Fault :=
  if 0 < f.skip then (none, some { f with skip := f.skip - 1 })
  else (some f.blow, if f.times ≤ 1 then none else some { f with times := f.times - 1 })

/-- The blow that a call gets from the planned failures, and what is planned after it. -/
def strikeFirst (kind : CallKind) (target : String) : List Fault → Option Blow × List Fault
  | [] => (none, [])
  | f :: rest =>
    if f.fits kind target then
      match f.strike with
      | (blow, some left) => (blow, left :: rest)
      | (blow, none) => (blow, rest)
    else
      let (blow, left) := strikeFirst kind target rest
      (blow, f :: left)

end Fault
end StackKeeper
