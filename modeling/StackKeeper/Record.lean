import StackKeeper.TextMap
/-!
# Reading typed records

Stored documents and manifests come in different notations but fill the same records. Both are
seen one layer at a time: a scalar with all it can be read as, a list, a mapping or something that
cannot be read at all. The readers below are written against that view, so a field means the same
in every notation, and a subtree that no field asks for is never looked at.

Rules of records: a declared field may come once, fields that are not declared are ignored, and in
notations that allow it a list gives the fields in the order of their declaration.
-/
namespace StackKeeper

/-- Whether a scalar stands for an absent optional value. -/
inductive Presence where
  | absent
  | present
  /-- It is marked absent and yet has a text. -/
  | contradictory
deriving DecidableEq

/-- What a scalar can be read as. -/
structure Scalar where
  text? : Option String
  natural? : Option Nat
  boolean? : Option Bool
  presence : Presence
  /-- Stands for a mapping or list without entries. -/
  isVoid : Bool

/-- One layer of a tree. -/
inductive Layer (τ : Type) where
  | scalar (value : Scalar)
  | list (positional : Bool) (items : List τ)
  | mapping (entries : List (String × τ))
  | unreadable

/-- Trees that can be seen layer by layer. -/
class Layered (τ : Type) where
  layer : τ → Layer τ

namespace Record

variable {τ α : Type} [Layered τ]

/-- A text. -/
def text? (t : τ) : Option String :=
  match Layered.layer t with
  | .scalar v => v.text?
  | _ => none

/-- A natural number below the bound. -/
def natural? (bound : Nat) (t : τ) : Option Nat :=
  match Layered.layer t with
  | .scalar v => v.natural?.filter (· < bound)
  | _ => none

/-- A truth value. -/
def boolean? (t : τ) : Option Bool :=
  match Layered.layer t with
  | .scalar v => v.boolean?
  | _ => none

/-- A value that may be unset. -/
def optional? (read : τ → Option α) (t : τ) : Option (Option α) :=
  match Layered.layer t with
  | .scalar v =>
    match v.presence with
    | .absent => some none
    | .present => (read t).map some
    | .contradictory => none
  | _ => (read t).map some

/-- A list of values. -/
def list? (read : τ → Option α) (t : τ) : Option (List α) :=
  match Layered.layer t with
  | .list _ items => items.mapM read
  | .scalar v => if v.isVoid then some [] else none
  | _ => none

/-- A map from text to text; of a repeated key the last value stays. -/
def textMap? (t : τ) : Option TextMap :=
  match Layered.layer t with
  | .mapping entries =>
    (entries.mapM fun e => (text? e.2).map fun v => (e.1, v)).map TextMap.ofList
  | .scalar v => if v.isVoid then some TextMap.empty else none
  | _ => none

/-- Whether no declared field comes twice among the keys. -/
def noneTwice (declared keys : List String) : Bool :=
  declared.all fun f => (keys.filter (· == f)).length ≤ 1

/-- The subtrees of a record by field. -/
def fields? (declared : List String) (t : τ) : Option (String → Option τ) :=
  match Layered.layer t with
  | .mapping entries =>
    if noneTwice declared (entries.map (·.1)) then
      some fun name => (entries.find? fun e => e.1 == name).map (·.2)
    else none
  | .list true items =>
    if items.length ≤ declared.length then
      some fun name => ((declared.zip items).find? fun e => e.1 == name).map (·.2)
    else none
  | .scalar v => if v.isVoid then some fun _ => none else none
  | _ => none

def required? (field : String → Option τ) (name : String) (read : τ → Option α) : Option α :=
  (field name).bind read

/-- A field with a value of its own when it is absent. -/
def default? (field : String → Option τ) (name : String) (absent : α) (read : τ → Option α) :
    Option α :=
  match field name with
  | some t => read t
  | none => some absent

end Record
end StackKeeper
