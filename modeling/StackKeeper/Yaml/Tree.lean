import StackKeeper.Record
import StackKeeper.Text.Decimal
import StackKeeper.Yaml.Node.Reader
/-!
# YAML as typed records

What scalars can be read as. A text may be any scalar, quoted or not. A natural number is in decimal
digits without leading zeros, or in base 16, 8 or 2 after `0x`, `0o` or `0b`; it and a truth value
must be plain, or a literal block that is tagged as one. An absent value is a plain `null` or `~` or
nothing at all. Nothing at all also stands for an empty list or mapping.

A value is seen together with the root of its document, where aliases find what they stand for.
-/
namespace StackKeeper.Yaml
open StackKeeper.Text

/-! ## Scalars -/

def nullTag : String := "tag:yaml.org,2002:null"

def boolTag : String := "tag:yaml.org,2002:bool"

def intTag : String := "tag:yaml.org,2002:int"

def isNullText (s : String) : Bool := ["null", "Null", "NULL", "~"].contains s

/-- The truth value that a text says. -/
def truth? (s : String) : Option Bool :=
  if ["true", "True", "TRUE"].contains s then some true
  else if ["false", "False", "FALSE"].contains s then some false
  else none

/-- The value of one or more digits below a base. -/
def digitsValue? (base : Nat) : List Char → Option Nat
  | [] => none
  | l => l.foldlM (fun n c =>
      match hexValue? c with
      | some d => if d < base then some (n * base + d) else none
      | none => none) 0

/-- The natural number that decimal digits say, none of them a leading zero. -/
def decimalNatural? : List Char → Option Nat
  | '0' :: _ :: _ => none
  | l => digitsValue? 10 l

/-- The natural number that a text says, with or without a plus sign. -/
def natural? (s : String) : Option Nat :=
  let digits :=
    match s.toList with
    | '+' :: rest => rest
    | l => l
  match digits with
  | '0' :: 'x' :: rest => digitsValue? 16 rest
  | '0' :: 'o' :: rest => digitsValue? 8 rest
  | '0' :: 'b' :: rest => digitsValue? 2 rest
  | l => decimalNatural? l

/-- Whether a scalar may say something other than a text: it is plain, or a literal block with the
tag of what it says. -/
def isTyped (expected : String) (tag : Option String) (style : ScalarStyle) : Bool :=
  style == .plain || (style == .literal && tag == some expected)

/-- Whether a scalar stands for an absent value. -/
def presence (tag : Option String) (style : ScalarStyle) (text : String) : Presence :=
  if style ≠ .plain then .present
  else
    match tag with
    | none => if text = "" ∨ isNullText text then .absent else .present
    | some t =>
      if t = nullTag then (if isNullText text then .absent else .contradictory) else .present

/-- What a scalar can be read as. -/
def scalarOf (tag : Option String) (style : ScalarStyle) (text : String) : Scalar where
  text? := some text
  natural? := if isTyped intTag tag style then natural? text else none
  boolean? := if isTyped boolTag tag style then truth? text else none
  presence := presence tag style text
  isVoid := style == .plain && text == ""

/-! ## Trees -/

/-- A node with the root of its document. -/
structure Tree where
  root : Node
  node : Node

namespace Tree

/-- The node that is meant: the one that an alias stands for, without anchors. -/
def target? (t : Tree) : Option Node :=
  match t.node.bare with
  | .alias place => (t.root.find? place).map Node.bare
  | n => some n

/-- The text of a key, which must be a scalar. -/
def key? (root key : Node) : Option String :=
  match target? ⟨root, key⟩ with
  | some (.scalar _ _ text) => some text
  | _ => none

def entries? (root : Node) (l : List (Node × Node)) : Option (List (String × Tree)) :=
  l.mapM fun e => (key? root e.1).map fun k => (k, ⟨root, e.2⟩)

/-- A tree seen as a layer. -/
def layer (t : Tree) : Layer Tree :=
  match t.target? with
  | some .nothing => .scalar ⟨none, none, none, .absent, true⟩
  | some (.scalar tag style text) => .scalar (scalarOf tag style text)
  | some (.list items) => .list false (items.map fun n => ⟨t.root, n⟩)
  | some (.mapping entries) =>
    match entries? t.root entries with
    | some l => .mapping l
    | none => .unreadable
  | _ => .unreadable

def ofText? (s : String) : Option Tree := (Node.ofText? s).map fun n => ⟨n, n⟩

end Tree

instance : Layered Tree where
  layer := Tree.layer

end StackKeeper.Yaml
