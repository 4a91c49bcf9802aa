import StackKeeper.Yaml.Token
/-!
# Nodes

A YAML document is a tree of scalars, lists and mappings. A node may carry the place of its anchor,
and an alias stands for the node with an anchor.

Results:
* `bare_not_anchored`: nothing but an anchor is between an anchored node and what it holds.
-/
namespace StackKeeper.Yaml

inductive Node where
  /-- What a text without a document holds. -/
  | nothing
  | scalar (tag : Option String) (style : ScalarStyle) (text : String)
  | list (items : List Node)
  | mapping (entries : List (Node × Node))
  | alias (place : Nat)
  | anchored (place : Nat) (node : Node)
deriving Inhabited

namespace Node

def empty : Node := .scalar none .plain ""

def withAnchor (n : Node) : Option Nat → Node
  | some place => .anchored place n
  | none => n

/-- The node without its anchors. -/
def bare : Node → Node
  | .anchored _ n => n.bare
  | n => n

mutual

/-- The node with the anchor at a place. -/
def find? (place : Nat) : Node → Option Node
  | .anchored p n => if p = place then some n else find? place n
  | .list items => findInItems? place items
  | .mapping entries => findInEntries? place entries
  | _ => none

/-- The node with the anchor at a place among items. -/
def findInItems? (place : Nat) : List Node → Option Node
  | [] => none
  | n :: rest => (find? place n).or (findInItems? place rest)

/-- The node with the anchor at a place among entries. -/
def findInEntries? (place : Nat) : List (Node × Node) → Option Node
  | [] => none
  | (k, v) :: rest => ((find? place k).or (find? place v)).or (findInEntries? place rest)

end

theorem bare_not_anchored (n : Node) (place : Nat) (m : Node) : n.bare ≠ .anchored place m := by
  match n with
  | .anchored p n' => rw [bare]; exact bare_not_anchored n' place m
  | .nothing | .scalar .. | .list .. | .mapping .. | .alias .. => simp [bare]

end Node
end StackKeeper.Yaml
