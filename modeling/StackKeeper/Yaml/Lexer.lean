import StackKeeper.Yaml.Property
import StackKeeper.Yaml.Scalar.Quoted
/-!
# Reading tokens

The lexer tells block structure by indentation: a deeper column opens a collection and a shallower
one closes those it leaves. Whether a node is a key shows only when the colon after it is reached,
so every place where a key may start is remembered, one for each level of flow style, and the key
token is put there afterwards. Such a key stays within one line and 1024 characters; where the
indentation says that nothing but a key can stand, a missing colon is an error.
-/
namespace StackKeeper.Yaml

/-- A place where a key may have started: the number of tokens before it, its position, and whether
it must be a key. -/
structure KeyPlace where
  before : Nat
  spot : Spot
  isRequired : Bool

/-- What a lexer knows: the rest of the text, the tokens so far in reverse with their number, the
columns of the open block collections with the innermost first, the place of a possible key here
and on the levels around, and whether a key may start next. -/
structure Lexer where
  rest : List Spot
  tokens : List (Token String)
  count : Nat
  columns : List Nat
  here : Option KeyPlace
  around : List (Option KeyPlace)
  allowsKey : Bool

namespace Lexer

/-- The longest distance between the start of a key and its colon. -/
def keyReach : Nat := 1024

def start (l : List Spot) : Lexer := ⟨l, [], 0, [], none, [], true⟩

def inFlow (x : Lexer) : Bool := !x.around.isEmpty

/-- The least column of content inside the innermost block collection. -/
def margin (x : Lexer) : Nat :=
  match x.columns with
  | [] => 0
  | column :: _ => column + 1

/-- What surrounds a scalar at this point. -/
def surroundings (x : Lexer) : Surroundings := ⟨x.inFlow, x.margin⟩

def push (x : Lexer) (t : Token String) : Lexer :=
  { x with tokens := t :: x.tokens, count := x.count + 1 }

/-- Adds a token after a number of tokens. -/
def insertAfter (x : Lexer) (before : Nat) (t : Token String) : Lexer :=
  let later := x.count - before
  { x with tokens := x.tokens.take later ++ t :: x.tokens.drop later, count := x.count + 1 }

def drop (x : Lexer) (n : Nat) : Lexer := { x with rest := x.rest.drop n }

/-- Sets whether a key may start next. -/
def allowKey (x : Lexer) (allowed : Bool) : Lexer := { x with allowsKey := allowed }

/-! ## Indentation -/

/-- Opens a block collection if the column is deeper than that of the innermost one. -/
def openBlock (x : Lexer) (column : Nat) (before : Nat) (t : Token String) : Lexer :=
  if x.inFlow || decide (column < x.margin) then x
  else { x.insertAfter before t with columns := column :: x.columns }

/-- Closes the block collections that a column leaves; no column leaves all of them. -/
def closeColumns (column : Option Nat) : List Nat → List Nat
  | [] => []
  | c :: rest =>
    match column with
    | some n => if n < c then closeColumns column rest else c :: rest
    | none => closeColumns column rest

/-- Closes the block collections that a column leaves, except in flow style. -/
def closeBlocks (x : Lexer) (column : Option Nat) : Lexer :=
  if x.inFlow then x
  else
    let columns := closeColumns column x.columns
    let closed := x.columns.length - columns.length
    { x with
      tokens := List.replicate closed .blockEnd ++ x.tokens
      count := x.count + closed
      columns := columns }

/-! ## Keys -/

/-- Whether a key that started at a place can no longer end at a spot. -/
def isOutOfReach (k : KeyPlace) (s : Spot) : Bool :=
  decide (k.spot.line < s.line) || decide (k.spot.index + keyReach < s.index)

/-- Forgets the place of a key, which must not be required. -/
def release? : Option KeyPlace → Option (Option KeyPlace)
  | some k => if k.isRequired then none else some none
  | none => some none

/-- Forgets the place of a key if it is out of reach. -/
def expire? (s : Spot) : Option KeyPlace → Option (Option KeyPlace)
  | some k => if isOutOfReach k s then release? (some k) else some (some k)
  | none => some none

/-- Forgets all places of keys that are out of reach. -/
def expireKeys? (x : Lexer) (s : Spot) : Option Lexer := do
  let here ← expire? s x.here
  let around ← x.around.mapM (expire? s)
  some { x with here := here, around := around }

/-- Forgets the place of a key on this level. -/
def releaseKey? (x : Lexer) : Option Lexer :=
  (release? x.here).map fun here => { x with here := here }

/-- Remembers that a key may start at a spot. -/
def placeKey? (x : Lexer) (s : Spot) : Option Lexer :=
  if x.allowsKey then
    x.releaseKey?.map fun y =>
      { y with here := some ⟨x.count, s, !x.inFlow && x.columns.head? == some s.column⟩ }
  else some x

/-! ## Blanks -/

/-- The spots after blanks, comments and line breaks, and whether a key may start there. A tab is a
blank only where no key may start; after a line break in block style one may. -/
def skipFrom (inFlow : Bool) (inComment allowsKey : Bool) : List Spot → List Spot × Bool
  | [] => ([], allowsKey)
  | s :: rest =>
    if isBreak s.char then skipFrom inFlow false (allowsKey || !inFlow) rest
    else if inComment then
      if s.char == endMark then (s :: rest, allowsKey) else skipFrom inFlow true allowsKey rest
    else if s.char == ' ' || (s.char == '\t' && (inFlow || !allowsKey)) ||
        (s.char == byteOrderMark && s.column == 0) then
      skipFrom inFlow false allowsKey rest
    else if s.char == '#' then skipFrom inFlow true allowsKey rest
    else (s :: rest, allowsKey)

/-- Skips blanks, comments and line breaks. -/
def skip (x : Lexer) : Lexer :=
  let (rest, allowsKey) := skipFrom x.inFlow false x.allowsKey x.rest
  { x with rest := rest, allowsKey := allowsKey }

/-! ## Tokens -/

/-- Goes on after a token that was read. -/
def took? (x : Lexer) (read : Option (Token String × List Spot)) : Option Lexer :=
  read.map fun p => { x.push p.1 with rest := p.2 }

def finish? (x : Lexer) : Option Lexer := (x.closeBlocks none).releaseKey?

def directive? (x : Lexer) : Option Lexer := do
  let x ← (x.closeBlocks none).releaseKey?
  (x.allowKey false).took? (Yaml.directive? (x.rest.drop 1))

def marker? (x : Lexer) (t : Token String) : Option Lexer := do
  let x ← (x.closeBlocks none).releaseKey?
  some (((x.allowKey false).push t).drop 3)

def openFlow? (x : Lexer) (s : Spot) (t : Token String) : Option Lexer := do
  let x ← x.placeKey? s
  some { ((x.push t).allowKey true).drop 1 with here := none, around := x.here :: x.around }

/-- The end of a collection in flow style. -/
def closeFlow? (x : Lexer) (t : Token String) : Option Lexer := do
  let x ← x.releaseKey?
  let x := ((x.push t).allowKey false).drop 1
  match x.around with
  | [] => some x
  | outer :: around => some { x with here := outer, around := around }

def separator? (x : Lexer) : Option Lexer := do
  let x ← x.releaseKey?
  some (((x.push .separator).allowKey true).drop 1)

/-- A dash before an item. -/
def item? (x : Lexer) (s : Spot) : Option Lexer :=
  if !x.inFlow && !x.allowsKey then none
  else do
    let x ← (x.openBlock s.column x.count .blockList).releaseKey?
    some (((x.push .item).allowKey true).drop 1)

/-- A question mark before a key. -/
def key? (x : Lexer) (s : Spot) : Option Lexer :=
  if !x.inFlow && !x.allowsKey then none
  else do
    let x ← (x.openBlock s.column x.count .blockMapping).releaseKey?
    some (((x.push .key).allowKey (!x.inFlow)).drop 1)

/-- A colon before a value. -/
def value? (x : Lexer) (s : Spot) : Option Lexer :=
  match x.here with
  | some k =>
    let x := (x.insertAfter k.before .key).openBlock k.spot.column k.before .blockMapping
    some (({ x with here := none }.push .value).allowKey false |>.drop 1)
  | none =>
    if !x.inFlow && !x.allowsKey then none
    else
      let x := x.openBlock s.column x.count .blockMapping
      some (((x.push .value).allowKey (!x.inFlow)).drop 1)

/-- A name after an indicator. -/
def named? (x : Lexer) (s : Spot) (make : String → Token String) : Option Lexer := do
  let x ← x.placeKey? s
  (x.allowKey false).took? ((anchorName? (x.rest.drop 1)).map fun p => (make p.1, p.2))

def tag? (x : Lexer) (s : Spot) : Option Lexer := do
  let x ← x.placeKey? s
  (x.allowKey false).took? (Yaml.tag? x.inFlow x.rest)

/-- Goes on after a scalar that was read. -/
def tookScalar (x : Lexer) (style : ScalarStyle) (r : ScalarRead) : Lexer :=
  { x.push (.scalar style (String.ofList r.text)) with rest := r.rest }

/-- A block scalar. -/
def blockScalar? (x : Lexer) (style : ScalarStyle) : Option Lexer := do
  let x ← x.releaseKey?
  let r ← Block.read? (style == .folded) x.margin (x.rest.drop 1)
  some ((x.allowKey true).tookScalar style r)

/-- A quoted scalar. -/
def quoted? (x : Lexer) (s : Spot) (style : ScalarStyle) : Option Lexer := do
  let x ← x.placeKey? s
  let r ← Quoted.read? (style == .doubleQuoted) (x.rest.drop 1)
  some ((x.allowKey false).tookScalar style r)

/-- A plain scalar; a line break after it allows a key. -/
def plain? (x : Lexer) (s : Spot) : Option Lexer := do
  let x ← x.placeKey? s
  let r ← Plain.read? x.surroundings x.rest
  some ((x.allowKey r.isBroken).tookScalar .plain r)

/-- Whether a plain scalar may start with a character before another one. -/
def startsPlain (inFlow : Bool) (c next : Char) : Bool :=
  (!isBoundary c && !("-?:,[]\x7b\x7d#&*!|>'\"%@\x60".toList.contains c)) ||
    (c == '-' && !isSpacing next) || (!inFlow && (c == '?' || c == ':') && !isBoundary next)

/-- The token at a spot that is not the end. -/
def token? (x : Lexer) (s : Spot) : Option Lexer :=
  let next := peek (x.rest.drop 1)
  if s.column == 0 && s.char == '%' then x.directive?
  else if isStartMarker x.rest then x.marker? .documentStart
  else if isEndMarker x.rest then x.marker? .documentEnd
  else if s.char == '[' then x.openFlow? s .flowList
  else if s.char == '\x7b' then x.openFlow? s .flowMapping
  else if s.char == ']' then x.closeFlow? .flowListEnd
  else if s.char == '\x7d' then x.closeFlow? .flowMappingEnd
  else if s.char == ',' then x.separator?
  else if s.char == '-' && isBoundary next then x.item? s
  else if s.char == '?' && (x.inFlow || isBoundary next) then x.key? s
  else if s.char == ':' && (x.inFlow || isBoundary next) then x.value? s
  else if s.char == '*' then x.named? s .alias
  else if s.char == '&' then x.named? s .anchor
  else if s.char == '!' then x.tag? s
  else if s.char == '|' && !x.inFlow then x.blockScalar? .literal
  else if s.char == '>' && !x.inFlow then x.blockScalar? .folded
  else if s.char == '\'' then x.quoted? s .singleQuoted
  else if s.char == '"' then x.quoted? s .doubleQuoted
  else if startsPlain x.inFlow s.char next then x.plain? s
  else none

/-- All tokens from here on; every token takes at least one character, so as many steps as
characters suffice. -/
def run? : Nat → Lexer → Option (List (Token String))
  | 0, _ => none
  | steps + 1, x => do
    let x := x.skip
    match x.rest with
    | [] => none
    | s :: _ =>
      let x ← x.expireKeys? s
      let x := x.closeBlocks (some s.column)
      if s.char == endMark then x.finish?.map fun x => x.tokens.reverse
      else do
        let x ← x.token? s
        run? steps x

def tokens? (l : List Spot) : Option (List (Token String)) := run? l.length (start l)

end Lexer
end StackKeeper.Yaml
