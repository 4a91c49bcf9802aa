import StackKeeper.Text.Parts
/-!
# Paths

A path is a list of components. A path that starts at the root of the file system has the component
`/` first, which no name can be; every other path starts at the working directory.
-/
namespace StackKeeper
open StackKeeper.Text

/-- The components of a path. -/
abbrev Path := List String

namespace Path

def root : String := "/"

/-- The component that stands for the directory itself. -/
def here : String := "."

def names (s : String) : List String := (parts '/' s).filter (· ≠ "")

/-- Whether a text starts at the root. -/
def isRooted (s : String) : Bool :=
  match s.toList with
  | '/' :: _ => true
  | _ => false

def ofText (s : String) : Path := if isRooted s then root :: names s else names s

/-- The path of a text seen from another path: a text that starts at the root stays as it is. -/
def join (p : Path) (s : String) : Path := if isRooted s then ofText s else p ++ names s

def fileName (p : Path) : String := p.getLast?.getD ""

/-- The path without its last component. -/
def parent (p : Path) : Path := p.dropLast

/-- The directory above a directory; nothing is above the root. -/
def above (p : Path) : Path := if p = [root] then p else p.dropLast

/-- A path seen from another path: one that starts at the root stays as it is. -/
def under (p q : Path) : Path := if q.head? = some root then q else p ++ q

/-- The written form of a path. -/
def text (p : Path) : String :=
  match p with
  | [] => ""
  | c :: rest => if c = root then root ++ "/".intercalate rest else "/".intercalate (c :: rest)

/-- The path with another last component. -/
def withFileName (p : Path) (name : String) : Path := p.parent ++ [name]

/-- A file name before and after its last point. A point at the start does not count. -/
def splitExtension (name : String) : String × Option String :=
  match splitLast '.' name.toList with
  | some (stem, ext) =>
    if stem.isEmpty ∨ name = ".." then (name, none)
    else (String.ofList stem, some (String.ofList ext))
  | none => (name, none)

end Path
end StackKeeper
