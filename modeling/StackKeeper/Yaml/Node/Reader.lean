import StackKeeper.Yaml.Anchor
import StackKeeper.Yaml.Lexer
import StackKeeper.Yaml.Node.Basic
/-!
# Reading nodes

The grammar of documents over tokens. A text holds at most one document; it may start with
directives and a marker, and markers of its end may follow.

Between two calls that take a token there are at most three that do not, so four times the number of
tokens bounds the depth of the calls.
-/
namespace StackKeeper.Yaml

abbrev Tokens := List (Token Nat)

/-- What the handles of tags stand for. -/
abbrev Handles := List (String × String)

namespace Node

/-! ## Properties -/

/-- What a tag is in full; the handle must be known. -/
def fullTag? (handles : Handles) (handle suffix : String) : Option String :=
  if handle = "" then some suffix
  else (handles.find? fun e => e.1 == handle).map fun e => e.2 ++ suffix

/-- The anchor and the tag before a node, in either order. -/
def properties : Tokens → Option Nat × Option (String × String) × Tokens
  | .anchor p :: .tag h s :: rest => (some p, some (h, s), rest)
  | .tag h s :: .anchor p :: rest => (some p, some (h, s), rest)
  | .anchor p :: rest => (some p, none, rest)
  | .tag h s :: rest => (none, some (h, s), rest)
  | rest => (none, none, rest)

/-- Reads the anchor and the full tag before a node. -/
def properties? (handles : Handles) (l : Tokens) : Option (Option Nat × Option String × Tokens) :=
  match properties l with
  | (anchor, none, rest) => some (anchor, none, rest)
  | (anchor, some (h, s), rest) => (fullTag? handles h s).map fun tag => (anchor, some tag, rest)

def plainTag : String := "!"

/-! ## Ends -/

/-- Whether a token ends an item of a list in block style that is left out. -/
def endsBlockItem : Tokens → Bool
  | .item :: _ | .blockEnd :: _ => true
  | _ => false

/-- Whether a token ends an item of a list that is indented like the keys around it. -/
def endsOpenItem : Tokens → Bool
  | .item :: _ | .key :: _ | .value :: _ | .blockEnd :: _ => true
  | _ => false

/-- Whether a token ends a key or value in block style that is left out. -/
def endsBlockPart : Tokens → Bool
  | .key :: _ | .value :: _ | .blockEnd :: _ => true
  | _ => false

/-- Whether a token ends a key in a flow list that is left out. -/
def endsPairKey : Tokens → Bool
  | .value :: _ | .separator :: _ | .flowListEnd :: _ => true
  | _ => false

/-- Whether a token ends a value in a flow list that is left out. -/
def endsPairValue : Tokens → Bool
  | .separator :: _ | .flowListEnd :: _ => true
  | _ => false

/-- Whether a token ends a key in a flow mapping that is left out. -/
def endsFlowKey : Tokens → Bool
  | .value :: _ | .separator :: _ | .flowMappingEnd :: _ => true
  | _ => false

/-- Whether a token ends a value in a flow mapping that is left out. -/
def endsFlowValue : Tokens → Bool
  | .separator :: _ | .flowMappingEnd :: _ => true
  | _ => false

/-- Where a node stands. -/
inductive Place where
  | inFlow
  | inBlock
  /-- In block style where a list may be indented like what is around it. -/
  | inEntry
deriving DecidableEq

/-! ## Grammar -/

mutual

/-- A node and the tokens after it. -/
def read? (handles : Handles) (place : Place) : Nat → Tokens → Option (Node × Tokens)
  | 0, _ => none
  | _ + 1, .alias p :: rest => some (.alias p, rest)
  | fuel + 1, l =>
    match properties? handles l with
    | none => none
    | some (anchor, tag, rest) =>
      (readContent? handles place anchor tag fuel rest).map fun p => (p.1.withAnchor anchor, p.2)

/-- What a node holds after its properties. -/
def readContent? (handles : Handles) (place : Place) (anchor : Option Nat) (tag : Option String) :
    Nat → Tokens → Option (Node × Tokens)
  | 0, _ => none
  | fuel + 1, l =>
    match l with
    | .scalar style text :: rest => some (.scalar (tag.filter (· ≠ plainTag)) style text, rest)
    | .flowList :: rest =>
      (readFlowItems? handles true fuel rest).map fun p => (.list p.1, p.2)
    | .flowMapping :: rest =>
      (readFlowEntries? handles true fuel rest).map fun p => (.mapping p.1, p.2)
    | l =>
      match place, l with
      | .inEntry, .item :: _ => (readOpenItems? handles fuel l).map fun p => (.list p.1, p.2)
      | .inBlock, .blockList :: rest | .inEntry, .blockList :: rest =>
        (readBlockItems? handles fuel rest).map fun p => (.list p.1, p.2)
      | .inBlock, .blockMapping :: rest | .inEntry, .blockMapping :: rest =>
        (readBlockEntries? handles fuel rest).map fun p => (.mapping p.1, p.2)
      | _, l => if anchor.isSome || tag.isSome then some (.scalar tag .plain "", l) else none

/-- A node, or an empty one if it is left out. -/
def readOr? (handles : Handles) (place : Place) (isLeftOut : Bool) :
    Nat → Tokens → Option (Node × Tokens)
  | 0, _ => none
  | fuel + 1, l => if isLeftOut then some (.empty, l) else read? handles place fuel l

/-- The items of a list in block style. -/
def readBlockItems? (handles : Handles) : Nat → Tokens → Option (List Node × Tokens)
  | 0, _ => none
  | _ + 1, .blockEnd :: rest => some ([], rest)
  | fuel + 1, .item :: rest => do
    let (n, rest) ← readOr? handles .inBlock (endsBlockItem rest) fuel rest
    let (items, rest) ← readBlockItems? handles fuel rest
    some (n :: items, rest)
  | _, _ => none

/-- The items of a list that is indented like the keys around it. -/
def readOpenItems? (handles : Handles) : Nat → Tokens → Option (List Node × Tokens)
  | 0, _ => none
  | fuel + 1, .item :: rest => do
    let (n, rest) ← readOr? handles .inBlock (endsOpenItem rest) fuel rest
    let (items, rest) ← readOpenItems? handles fuel rest
    some (n :: items, rest)
  | _, rest => some ([], rest)

/-- The entries of a mapping in block style. -/
def readBlockEntries? (handles : Handles) : Nat → Tokens → Option (List (Node × Node) × Tokens)
  | 0, _ => none
  | _ + 1, .blockEnd :: rest => some ([], rest)
  | fuel + 1, .key :: rest => do
    let (k, rest) ← readOr? handles .inEntry (endsBlockPart rest) fuel rest
    let (v, rest) ← readBlockValue? handles fuel rest
    let (entries, rest) ← readBlockEntries? handles fuel rest
    some ((k, v) :: entries, rest)
  | _, _ => none

/-- The value of an entry in block style. -/
def readBlockValue? (handles : Handles) : Nat → Tokens → Option (Node × Tokens)
  | 0, _ => none
  | fuel + 1, .value :: rest => readOr? handles .inEntry (endsBlockPart rest) fuel rest
  | _, rest => some (.empty, rest)

/-- The items of a list in flow style, from its start or after an item. -/
def readFlowItems? (handles : Handles) (isFirst : Bool) :
    Nat → Tokens → Option (List Node × Tokens)
  | 0, _ => none
  | _ + 1, .flowListEnd :: rest => some ([], rest)
  | fuel + 1, .separator :: rest =>
    if isFirst then none
    else
      match rest with
      | .flowListEnd :: rest => some ([], rest)
      | rest => readFlowItem? handles fuel rest
  | fuel + 1, l => if isFirst then readFlowItem? handles fuel l else none

/-- An item of a list in flow style, which may be a single entry of a mapping, and those after it. -/
def readFlowItem? (handles : Handles) : Nat → Tokens → Option (List Node × Tokens)
  | 0, _ => none
  | fuel + 1, .key :: rest => do
    let (k, rest) ← readPairKey? handles fuel rest
    let (v, rest) ← readPairValue? handles fuel rest
    let (items, rest) ← readFlowItems? handles false fuel rest
    some (.mapping [(k, v)] :: items, rest)
  | fuel + 1, l => do
    let (n, rest) ← read? handles .inFlow fuel l
    let (items, rest) ← readFlowItems? handles false fuel rest
    some (n :: items, rest)

/-- The key of a single entry in a list. One that is left out takes the token after it along. -/
def readPairKey? (handles : Handles) : Nat → Tokens → Option (Node × Tokens)
  | 0, _ => none
  | fuel + 1, l =>
    if endsPairKey l then some (.empty, l.drop 1) else read? handles .inFlow fuel l

/-- The value of a single entry in a list. -/
def readPairValue? (handles : Handles) : Nat → Tokens → Option (Node × Tokens)
  | 0, _ => none
  | fuel + 1, .value :: rest => readOr? handles .inFlow (endsPairValue rest) fuel rest
  | _, rest => some (.empty, rest)

/-- The entries of a mapping in flow style, from its start or after an entry. -/
def readFlowEntries? (handles : Handles) (isFirst : Bool) :
    Nat → Tokens → Option (List (Node × Node) × Tokens)
  | 0, _ => none
  | _ + 1, .flowMappingEnd :: rest => some ([], rest)
  | fuel + 1, .separator :: rest =>
    if isFirst then none
    else
      match rest with
      | .flowMappingEnd :: rest => some ([], rest)
      | rest => readFlowEntry? handles fuel rest
  | fuel + 1, l => if isFirst then readFlowEntry? handles fuel l else none

/-- An entry of a mapping in flow style and those after it; a node without a key indicator is a key
without a value. -/
def readFlowEntry? (handles : Handles) : Nat → Tokens → Option (List (Node × Node) × Tokens)
  | 0, _ => none
  | fuel + 1, .key :: rest => do
    let (k, rest) ← readOr? handles .inFlow (endsFlowKey rest) fuel rest
    let (v, rest) ← readFlowValue? handles fuel rest
    let (entries, rest) ← readFlowEntries? handles false fuel rest
    some ((k, v) :: entries, rest)
  | fuel + 1, l => do
    let (k, rest) ← read? handles .inFlow fuel l
    let (entries, rest) ← readFlowEntries? handles false fuel rest
    some ((k, .empty) :: entries, rest)

/-- The value of an entry of a mapping in flow style. -/
def readFlowValue? (handles : Handles) : Nat → Tokens → Option (Node × Tokens)
  | 0, _ => none
  | fuel + 1, .value :: rest => readOr? handles .inFlow (endsFlowValue rest) fuel rest
  | _, rest => some (.empty, rest)

end

/-! ## Documents -/

/-- What the handles stand for when no directive says otherwise. -/
def commonHandles : Handles := [("!", "!"), ("!!", "tag:yaml.org,2002:")]

/-- The directives before a document: what handles stand for, and what follows. No handle may be
given twice, nor the version, which must be 1.1 or 1.2. -/
def directives? (handles : Handles) (hasVersion : Bool) : Tokens → Option (Handles × Tokens)
  | .version major minor :: rest =>
    if !hasVersion && major == 1 && (minor == 1 || minor == 2) then directives? handles true rest
    else none
  | .shorthand handle expansion :: rest =>
    if handles.any fun e => e.1 == handle then none
    else directives? (handles ++ [(handle, expansion)]) hasVersion rest
  | rest => some (handles, rest)

/-- Whether a document starts with a marker or directives. -/
def isExplicit : Tokens → Bool
  | .version _ _ :: _ | .shorthand _ _ :: _ | .documentStart :: _ => true
  | _ => false

def isEmptyDocument : Tokens → Bool
  | [] | .version _ _ :: _ | .shorthand _ _ :: _ | .documentStart :: _ | .documentEnd :: _ => true
  | _ => false

/-- Whether nothing but markers of a document's end is left. -/
def isOver : Tokens → Bool
  | [] => true
  | .documentEnd :: rest => isOver rest
  | _ => false

/-- A depth of calls that suffices for the tokens. -/
def depth (l : Tokens) : Nat := 4 * l.length + 4

/-- The root of a document and the tokens after it. -/
def readDocument? (l : Tokens) : Option (Node × Tokens) :=
  if isExplicit l then
    match directives? [] false l with
    | some (handles, .documentStart :: rest) =>
      if isEmptyDocument rest then some (.empty, rest)
      else read? (handles ++ commonHandles) .inBlock (depth rest) rest
    | _ => none
  else read? commonHandles .inBlock (depth l) l

/-- The root of the only document, if the tokens hold no more. -/
def ofTokens? (l : Tokens) : Option Node :=
  match l with
  | [] => some .nothing
  | l =>
    match readDocument? l with
    | some (n, rest) => if isOver rest then some n else none
    | none => none

/-- The root of the only document of a text. -/
def ofText? (s : String) : Option Node := do
  let spots ← spots? s.toList
  let tokens ← Lexer.tokens? spots
  let tokens ← Anchor.resolve? tokens
  ofTokens? tokens

end Node
end StackKeeper.Yaml
