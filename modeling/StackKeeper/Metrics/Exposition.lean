import StackKeeper.Metrics.Basic
import StackKeeper.Text.Double
/-!
# The exposition of metrics

Metrics are served in the text exposition format, version 0.0.4: of each metric a line of help,
a line with its type and a line with its value, in the order of their names.
-/
namespace StackKeeper.Metrics
open StackKeeper.Text

def family (name help kind value : String) : String :=
  "# HELP " ++ name ++ " " ++ help ++ "\n# TYPE " ++ name ++ " " ++ kind ++ "\n" ++
    name ++ " " ++ value ++ "\n"

/-- All metrics as text. -/
def render (m : Metrics) : String :=
  family followedTotalName "Number of stacks followed since start" "counter"
      (doubleText m.followedTotal.toNat) ++
    family followingName "Number of stacks currently followed" "gauge"
      (doubleText m.following.toInt)

structure Reply where
  status : Nat
  contentType : Option String
  body : String
deriving DecidableEq

def contentType : String := "text/plain; version=0.0.4; charset=utf-8"

def pathOf (target : String) : List Char := target.toList.takeWhile (· ≠ '?')

/-- Answers a request: the metrics are under one path and can only be read. -/
def serve (m : Metrics) (method target : String) : Reply :=
  if pathOf target ≠ "/metrics".toList then ⟨404, none, ""⟩
  else if method = "GET" then ⟨200, some contentType, m.render⟩
  else if method = "HEAD" then ⟨200, some contentType, ""⟩
  else ⟨405, none, ""⟩

end StackKeeper.Metrics
