import StackKeeper.Yaml.Token
/-!
# Anchors by number

Names of anchors are told apart once per document. An anchor is given the number of distinct names
before it and an alias the number that its name has at that point; where a name is used again, two
anchors may share a number, and then the last one counts. After this every anchor has its own place
in the order of anchors, and an alias names the place of the anchor it stands for.
-/
namespace StackKeeper.Yaml

namespace Anchor

/-- The numbers of the names so far, the latest first, and the anchors' numbers in reverse. -/
structure Names where
  numbers : List (String × Nat)
  anchors : List Nat

def Names.none : Names := ⟨[], []⟩

def Names.find? (n : Names) (name : String) : Option Nat :=
  (n.numbers.find? fun e => e.1 == name).map (·.2)

/-- The names after an anchor. -/
def Names.add (n : Names) (name : String) : Names where
  numbers := (name, n.numbers.length) :: n.numbers.filter fun e => e.1 != name
  anchors := n.numbers.length :: n.anchors

/-- Replaces the names of aliases by numbers and those of anchors by places, if every alias has a
number; also gives the numbers of all anchors in reverse. -/
def number? (n : Names) : List (Token String) → Option (List (Token Nat) × List Nat)
  | [] => some ([], n.anchors)
  | t :: rest =>
    let go := fun (n : Names) (u : Token Nat) =>
      (number? n rest).map fun p => (u :: p.1, p.2)
    match t with
    | .anchor name => go (n.add name) (.anchor n.anchors.length)
    | .alias name => (n.find? name).bind fun number => go n (.alias number)
    | .version major minor => go n (.version major minor)
    | .shorthand handle expansion => go n (.shorthand handle expansion)
    | .documentStart => go n .documentStart
    | .documentEnd => go n .documentEnd
    | .blockList => go n .blockList
    | .blockMapping => go n .blockMapping
    | .blockEnd => go n .blockEnd
    | .flowList => go n .flowList
    | .flowListEnd => go n .flowListEnd
    | .flowMapping => go n .flowMapping
    | .flowMappingEnd => go n .flowMappingEnd
    | .separator => go n .separator
    | .item => go n .item
    | .key => go n .key
    | .value => go n .value
    | .tag handle suffix => go n (.tag handle suffix)
    | .scalar style text => go n (.scalar style text)

/-- The place of the last anchor with a number, given the numbers of the anchors in reverse. -/
def lastPlace : List Nat → Nat → Nat
  | [], _ => 0
  | m :: rest, number => if m = number then rest.length else lastPlace rest number

/-- The tokens with anchors and aliases by place, if every alias has an anchor before it. -/
def resolve? (l : List (Token String)) : Option (List (Token Nat)) :=
  match number? Names.none l with
  | none => none
  | some (tokens, anchors) =>
    some (tokens.map fun t =>
      match t with
      | .alias number => .alias (lastPlace anchors number)
      | t => t)

end Anchor
end StackKeeper.Yaml
