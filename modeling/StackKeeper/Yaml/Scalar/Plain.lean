import StackKeeper.Yaml.Scalar.Gap
/-!
# Plain scalars

A plain scalar goes on until a colon before a blank, a comment, a marker of a document or, in block
style, a line that is indented less than its surroundings ask for; in flow style it also ends at an
indicator of a collection.
-/
namespace StackKeeper.Yaml

/-- What surrounds a scalar. -/
structure Surroundings where
  inFlow : Bool
  /-- The least indentation of a continued scalar in block style. -/
  margin : Nat

/-- A scalar that was read: its text, whether its last gap reached over a line break, and the spots
after it. -/
structure ScalarRead where
  text : List Char
  isBroken : Bool
  rest : List Spot

namespace Plain

/-- Whether a word cannot start here after a gap. -/
def stopsAfterGap (w : Surroundings) (s : Spot) : Bool :=
  s.char == '#' || (!w.inFlow && decide (s.column < w.margin))

/-- Whether the scalar ends before a character with another one after it. -/
def stopsBefore (w : Surroundings) (c next : Char) : Bool :=
  c == endMark || (c == ':' && isBoundary next) || (w.inFlow && isFlowIndicator c)

/-- Whether a colon stands where it can neither belong to a scalar nor end one. -/
def isStrayColon (w : Surroundings) (c next : Char) : Bool :=
  w.inFlow && c == ':' && (isFlowIndicator next || next == '?')

/-- Whether a tab stands where indentation is asked for. -/
def isTabInMargin (w : Surroundings) (gap : Gap) (s : Spot) : Bool :=
  gap.isBroken && s.char == '\t' && decide (s.column < w.margin)

/-- Reads on with the text read so far, in reverse, and the gap after it. -/
def readFrom (w : Surroundings) (text : List Char) (gap : Gap) : List Spot → Option ScalarRead
  | [] => some ⟨text.reverse, gap.isBroken, []⟩
  | s :: rest =>
    if isSpacing s.char || isBreak s.char then
      if isTabInMargin w gap s then none else readFrom w text (gap.add s.char) rest
    else if isMarker (s :: rest) || (!gap.isNone && stopsAfterGap w s) then
      some ⟨text.reverse, gap.isBroken, s :: rest⟩
    else if isStrayColon w s.char (peek rest) then none
    else if stopsBefore w s.char (peek rest) then
      some ⟨text.reverse, gap.isBroken, s :: rest⟩
    else readFrom w (s.char :: (gap.text.reverse ++ text)) Gap.none rest

def read? (w : Surroundings) (l : List Spot) : Option ScalarRead := readFrom w [] Gap.none l

end Plain
end StackKeeper.Yaml
