import StackKeeper.Text.Parts
import StackKeeper.Text.Width
/-!
# Tables

Rows of cells in a frame of plus signs, minus signs and bars, with a rule between every two rows. Every
column is as wide as its widest line and every cell as high as its row; texts stand at the left with
one space on either side.
-/
namespace StackKeeper.Text.Table

/-- A cell as its lines. -/
abbrev Cell := List (List Char)

def cell (s : String) : Cell := splitAll '\n' s.toList

def cellWidth (c : Cell) : Nat := (c.map displayWidth).foldl max 0

/-- The widths of the columns that hold all rows. -/
def columnWidths (rows : List (List Cell)) : List Nat :=
  rows.foldl
    (fun widths row =>
      (List.range (max widths.length row.length)).map fun i =>
        max (widths.getD i 0) (cellWidth (row.getD i [])))
    []

def rule (widths : List Nat) : List Char :=
  '+' :: widths.flatMap fun w => List.replicate (w + 2) '-' ++ ['+']

/-- A line of a cell, filled up to the width of its column. -/
def padded (w : Nat) (line : List Char) : List Char :=
  ' ' :: line ++ List.replicate (w - displayWidth line) ' ' ++ [' ', '|']

def rowLine (widths : List Nat) (row : List Cell) (n : Nat) : List Char :=
  '|' :: (widths.zip row).flatMap fun p => padded p.1 (p.2.getD n [])

def rowLines (widths : List Nat) (row : List Cell) : List (List Char) :=
  let height := (row.map List.length).foldl max 0
  (List.range height).map (rowLine widths row)

def lines (rows : List (List Cell)) : List (List Char) :=
  let widths := columnWidths rows
  rule widths :: rows.flatMap fun row => rowLines widths row ++ [rule widths]

def text (header : List String) (rows : List (List String)) : String :=
  String.ofList (joinParts '\n' (lines ((header :: rows).map (·.map cell))))

end StackKeeper.Text.Table
