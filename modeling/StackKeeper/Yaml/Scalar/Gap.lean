import StackKeeper.Yaml.Spot
/-!
# Gaps inside scalars

Inside plain and quoted scalars, blanks and line breaks between words are folded: a single line
break with the blanks around it is a space, of several line breaks the first one is dropped, and
blanks inside a line stay.
-/
namespace StackKeeper.Yaml

/-- The blanks and line breaks read since the last word. -/
inductive Gap where
  /-- Blanks inside a line. -/
  | inLine (blanks : List Char)
  /-- A first line break, unless it was escaped, and those after it. -/
  | broken (first : Option Char) (more : List Char)

namespace Gap

def none : Gap := .inLine []

/-- The gap after an escaped line break. -/
def escaped : Gap := .broken .none []

def isNone : Gap → Bool
  | .inLine [] => true
  | _ => false

def isBroken : Gap → Bool
  | .inLine _ => false
  | .broken _ _ => true

def add (c : Char) : Gap → Gap
  | .inLine blanks => if isBreak c then .broken (some c) [] else .inLine (blanks ++ [c])
  | .broken first more => if isBreak c then .broken first (more ++ [c]) else .broken first more

/-- What the gap stands for. -/
def text : Gap → List Char
  | .inLine blanks => blanks
  | .broken .none more => more
  | .broken (some c) more =>
    if c == '\n' then (if more.isEmpty then [' '] else more) else c :: more

end Gap
end StackKeeper.Yaml
