/-!
# Tokens

The parts of a YAML text between which blanks, comments and line breaks have lost their meaning:
what indentation and line breaks decide is told by tokens of its own.
-/
namespace StackKeeper.Yaml

/-- How a scalar is written. -/
inductive ScalarStyle where
  | plain
  | singleQuoted
  | doubleQuoted
  | literal
  | folded
deriving DecidableEq

/-- A token. Anchors are named by texts when they are read and by numbers once they are known. -/
inductive Token (ν : Type) where
  | version (major minor : Nat)
  /-- What a handle stands for. -/
  | shorthand (handle expansion : String)
  | documentStart
  | documentEnd
  | blockList
  | blockMapping
  | blockEnd
  | flowList
  | flowListEnd
  | flowMapping
  | flowMappingEnd
  /-- A comma between the entries of a collection in flow style. -/
  | separator
  /-- A dash before an item of a list in block style. -/
  | item
  | key
  | value
  | anchor (name : ν)
  | alias (name : ν)
  | tag (handle suffix : String)
  | scalar (style : ScalarStyle) (text : String)

end StackKeeper.Yaml
