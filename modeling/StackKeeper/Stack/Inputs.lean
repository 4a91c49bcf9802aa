import StackKeeper.Stack.Remote
/-!
# Inputs of a stack

What is submitted to the provisioning API for a resource. The tags are those that mark ownership,
below the defaults of the operator, below those of the resource; the capabilities are the defaults
followed by those of the resource, each once.

Results:
* `get?_effectiveTags`: the value of every tag key.
* `nodup_effectiveCapabilities`, `mem_effectiveCapabilities`: each capability once, and no other.
-/
namespace StackKeeper

/-- How the operator treats every stack. -/
structure Policy where
  defaultTags : TextMap
  defaultCapabilities : List String
  dryRun : Bool
  requestTimeoutSecs : Nat
deriving DecidableEq

/-- The inputs of a create or update call. -/
structure StackInputs where
  stack : String
  template : Template
  parameters : TextMap
  tags : TextMap
  capabilities : List String
  role : Option String
  notifications : List String
deriving DecidableEq

/-- The list with every later repetition dropped. -/
def distinct : List String → List String
  | [] => []
  | a :: rest => a :: (distinct rest).filter (· ≠ a)

namespace Policy

def ownershipTags (uid : String) : TextMap :=
  TextMap.ofList [(controllerKey, controllerValue), (ownerKey, uid)]

def effectiveTags (p : Policy) (r : Resource) : TextMap :=
  ((ownershipTags r.metadata.uid).union p.defaultTags).union r.spec.tags

def effectiveCapabilities (p : Policy) (r : Resource) : List String :=
  distinct (p.defaultCapabilities ++ r.spec.capabilities)

/-- The inputs submitted for a resource, addressed to the given stack. -/
def inputs (p : Policy) (r : Resource) (template : Template) (stack : String) : StackInputs where
  stack := stack
  template := template
  parameters := r.spec.parameters
  tags := p.effectiveTags r
  capabilities := p.effectiveCapabilities r
  role := r.spec.role
  notifications := r.spec.notifications

end Policy

theorem mem_distinct {a : String} {l : List String} : a ∈ distinct l ↔ a ∈ l := by
  induction l with
  | nil => simp [distinct]
  | cons b l ih =>
    by_cases h : a = b <;> simp [distinct, ih, h]

theorem nodup_distinct (l : List String) : (distinct l).Nodup := by
  induction l with
  | nil => exact List.nodup_nil
  | cons b l ih => exact List.nodup_cons.mpr ⟨by simp, ih.filter _⟩

namespace Policy

theorem mem_effectiveCapabilities {p : Policy} {r : Resource} {c : String} :
    c ∈ p.effectiveCapabilities r ↔ c ∈ p.defaultCapabilities ∨ c ∈ r.spec.capabilities := by
  rw [effectiveCapabilities, mem_distinct, List.mem_append]

theorem nodup_effectiveCapabilities (p : Policy) (r : Resource) :
    (p.effectiveCapabilities r).Nodup := nodup_distinct _

theorem get?_effectiveTags (p : Policy) (r : Resource) (k : String) :
    (p.effectiveTags r).get? k =
      (r.spec.tags.get? k).or ((p.defaultTags.get? k).or
        ((ownershipTags r.metadata.uid).get? k)) := by
  rw [effectiveTags, TextMap.get?_union, TextMap.get?_union]

end Policy
end StackKeeper
