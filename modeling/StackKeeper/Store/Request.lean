import StackKeeper.Store.Local
/-!
# Requests of users

What users ask of the store: to keep a declared resource, to delete one, and to show them. A
declaration decides over the spec alone, since status and finalizers belong to the operator, and a
request for deletion only marks the resource: it is gone at once if nothing keeps it.

Results:
* `requestDeletion_of_marked`: a deletion that was asked for before changes nothing.
-/
namespace StackKeeper

/-- What became of a declaration. -/
inductive Applied where
  | created
  | configured
  | unchanged
deriving DecidableEq

/-- The word for what became of a declaration. -/
def Applied.text : Applied → String
  | created => "created"
  | configured => "configured"
  | unchanged => "unchanged"

/-- What became of a request for deletion. -/
inductive Deletion where
  /-- The operator removes the stack first. -/
  | requested
  /-- Nothing is left to the operator. -/
  | deleted
deriving DecidableEq

namespace Resource

def withSpec (r : Resource) (s : Spec) : Resource := { r with spec := s }

def marked (r : Resource) (now : Instant) : Resource :=
  { r with metadata := { r.metadata with deletion := some now } }

/-- The resource as its declaration alone gives it, with nothing that belongs to the operator. -/
def declaration (r : Resource) : Resource := (r.withStatus Status.empty).withFinalizers []

/-- What a request for the deletion of the resource leads to. -/
def deletionOutcome (r : Resource) : Deletion :=
  if r.hasStackFinalizer then .requested else .deleted

end Resource

namespace Store

/-- Keeps a declared resource: as a new one, or as the spec of the one under its locator. -/
def apply (s : Store) (r : Resource) (uid : String) (now : Instant) :
    Except Error Applied × Store :=
  match s.get r.locator with
  | .ok stored =>
    if stored.isMarked then
      (.error (.internal ("Stack resource " ++ r.locator.text ++ " is being deleted")), s)
    else if stored.spec = r.spec then (.ok .unchanged, s)
    else
      match s.update (stored.withSpec r.spec) with
      | (.ok (), s) => (.ok .configured, s)
      | (.error e, s) => (.error e, s)
  | .error e =>
    if e.isNotFound then
      match s.create r.declaration uid now with
      | (.ok _, s) => (.ok .created, s)
      | (.error e, s) => (.error e, s)
    else (.error e, s)

/-- Marks a resource for deletion, unless it is marked already. -/
def requestDeletion (s : Store) (l : Locator) (now : Instant) : Except Error Deletion × Store :=
  match s.get l with
  | .error e => (.error e, s)
  | .ok r =>
    if r.isMarked then (.ok r.deletionOutcome, s)
    else
      match s.update (r.marked now) with
      | (.ok (), s) => (.ok r.deletionOutcome, s)
      | (.error e, s) => (.error e, s)

/-- The resources under the given locators; one that is not there is left out. -/
def getAll (s : Store) : List Locator → Except Error (List Resource)
  | [] => .ok []
  | l :: rest =>
    match s.get l with
    | .ok r => (s.getAll rest).map (r :: ·)
    | .error e => if e.isNotFound then s.getAll rest else .error e

theorem requestDeletion_of_marked {s : Store} {l : Locator} {r : Resource} {now : Instant}
    (h : s.get l = .ok r) (hm : r.isMarked = true) :
    s.requestDeletion l now = (.ok r.deletionOutcome, s) := by
  simp [requestDeletion, h, hm]

end Store
end StackKeeper
