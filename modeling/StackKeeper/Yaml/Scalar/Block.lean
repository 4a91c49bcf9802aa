import StackKeeper.Text.Decimal
import StackKeeper.Yaml.Scalar.Plain
/-!
# Block scalars

A block scalar is a run of lines with a common indentation, given in its header or by its first line
that is not empty. A literal one keeps its line breaks; in a folded one a single line break between
lines that do not start with a blank is a space. The header also says what happens to the line
breaks at the end: they are dropped, cut to one, or kept.
-/
namespace StackKeeper.Yaml
open StackKeeper.Text

/-- What happens to the line breaks at the end of a block scalar. -/
inductive Chomping where
  | clip
  | strip
  | keep

namespace Block

/-- The header of a block scalar: how its end is treated, and its own indentation if it is given. -/
structure Header where
  chomping : Chomping
  increment : Option Nat

/-- The treatment that a character asks for. -/
def chomping? (c : Char) : Option Chomping :=
  if c == '+' then some .keep else if c == '-' then some .strip else none

/-- The indentation that a character gives; zero is none. -/
def increment? (c : Char) : Option (Option Nat) :=
  match digitValue? c with
  | some 0 => some none
  | some n => some (some n)
  | none => none

/-- Reads an indentation, if there is one. -/
def readIncrement (l : List Spot) : Option (Option Nat × List Spot) :=
  match increment? (peek l) with
  | some (some n) => some (some n, l.drop 1)
  | some none => none
  | none => some (none, l)

/-- Reads the two parts of a header in either order. -/
def readParts (l : List Spot) : Option (Header × List Spot) :=
  match chomping? (peek l) with
  | some c => (readIncrement (l.drop 1)).map fun p => (⟨c, p.1⟩, p.2)
  | none =>
    match readIncrement l with
    | none => none
    | some (none, l) => some (⟨.clip, none⟩, l)
    | some (some n, l) =>
      match chomping? (peek l) with
      | some c => some (⟨c, some n⟩, l.drop 1)
      | none => some (⟨.clip, some n⟩, l)

/-- The spots after the blanks and the comment that may end a line, which must then end. -/
def restOfLine? (l : List Spot) : Option (List Spot) :=
  let l := dropChars isSpacing l
  let l := if peek l == '#' then dropChars (fun c => !isLineEnd c) l else l
  if isBreak (peek l) then some (l.drop 1)
  else if peek l == endMark then some l
  else none

/-- Reads the header and its line. -/
def readHeader (l : List Spot) : Option (Header × List Spot) :=
  match readParts l with
  | some (h, l) => (restOfLine? l).map fun rest => (h, rest)
  | none => none

/-- Where a reader stands in a line. -/
inductive Place where
  /-- In its indentation. -/
  | margin
  /-- In its text. -/
  | line

/-- What a reader has read: the text in reverse, the line break after the last line, the empty lines
after it, and whether that line started with a blank. The indentation is unknown at first, and the
deepest column of the empty lines is kept until it is known. -/
structure State where
  text : List Char
  lead : Option Char
  trailing : List Char
  startsBlank : Bool
  indentation : Option Nat
  deepest : Nat
  place : Place

def State.start (indentation : Option Nat) : State := ⟨[], none, [], false, indentation, 0, .margin⟩

/-- Whether a column lies in the indentation. -/
def State.isInMargin (x : State) (column : Nat) : Bool :=
  match x.indentation with
  | some n => decide (column < n)
  | none => true

/-- The indentation, which is now known: at least one column more than that of the surroundings. -/
def State.settled (x : State) (margin : Nat) : Nat := x.indentation.getD (max (max x.deepest margin) 1)

/-- The text once a new line starts, in reverse. -/
def State.joined (x : State) (isFolded startsBlank : Bool) : List Char :=
  if isFolded && x.lead == some '\n' && !x.startsBlank && !startsBlank then
    if x.trailing.isEmpty then ' ' :: x.text else x.trailing.reverse ++ x.text
  else x.trailing.reverse ++ (x.lead.toList ++ x.text)

/-- The text once all lines are read. -/
def State.finish (x : State) : Chomping → List Char
  | .strip => x.text.reverse
  | .clip => x.text.reverse ++ x.lead.toList
  | .keep => x.text.reverse ++ x.lead.toList ++ x.trailing

/-- Reads on over the lines. -/
def linesFrom (isFolded : Bool) (margin : Nat) (chomping : Chomping) (x : State) :
    List Spot → Option ScalarRead
  | [] => some ⟨x.finish chomping, false, []⟩
  | s :: rest =>
    match x.place with
    | .line =>
      if isBreak s.char then
        linesFrom isFolded margin chomping
          { x with lead := some s.char, trailing := [], place := .margin } rest
      else if s.char == endMark then some ⟨x.finish chomping, false, s :: rest⟩
      else linesFrom isFolded margin chomping { x with text := s.char :: x.text } rest
    | .margin =>
      if x.isInMargin s.column && s.char == ' ' then linesFrom isFolded margin chomping x rest
      else if x.isInMargin s.column && s.char == '\t' then none
      else
        let x := { x with deepest := max x.deepest s.column }
        if isBreak s.char then
          linesFrom isFolded margin chomping { x with trailing := x.trailing ++ [s.char] } rest
        else if s.char == endMark || s.column ≠ x.settled margin then
          some ⟨x.finish chomping, false, s :: rest⟩
        else
          linesFrom isFolded margin chomping
            { x with
              text := s.char :: x.joined isFolded (isSpacing s.char)
              lead := none
              trailing := []
              startsBlank := isSpacing s.char
              indentation := some (x.settled margin)
              place := .line } rest

/-- Reads a scalar after its indicator, inside a block whose indentation asks for the margin. -/
def read? (isFolded : Bool) (margin : Nat) (l : List Spot) : Option ScalarRead :=
  match readHeader l with
  | some (h, rest) =>
    let indentation := h.increment.map fun n => if margin = 0 then n else margin - 1 + n
    linesFrom isFolded margin h.chomping (State.start indentation) rest
  | none => none

end Block
end StackKeeper.Yaml
