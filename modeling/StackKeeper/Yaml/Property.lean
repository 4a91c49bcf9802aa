import StackKeeper.Text.Decimal
import StackKeeper.Yaml.Scalar.Block
import StackKeeper.Yaml.Token
/-!
# Anchors, tags and directives

An anchor names a node and an alias refers to it. A tag tells what a node is: in full between angle
brackets, or as a handle with a suffix, where directives before a document say what the handles
stand for. Characters of a tag may be written as percent-encoded octets of UTF-8.
-/
namespace StackKeeper.Yaml
open StackKeeper.Text

/-! ## Anchors -/

/-- Whether a character may follow the name of an anchor. -/
def endsAnchor (c : Char) : Bool := isBoundary c || "?:,]\x7d%@\x60".toList.contains c

/-- Reads the name of an anchor or alias after its indicator. -/
def anchorName? (l : List Spot) : Option (String × List Spot) :=
  let name := takeChars isNameChar l
  let rest := dropChars isNameChar l
  if name.isEmpty || !endsAnchor (peek rest) then none else some (String.ofList name, rest)

/-! ## Tags -/

/-- Reads the handle of a tag: an exclamation mark, a name, and another mark if there is one. -/
def handle? (l : List Spot) : Option (List Char × List Spot) :=
  if peek l == '!' then
    let name := takeChars isNameChar (l.drop 1)
    let rest := dropChars isNameChar (l.drop 1)
    if peek rest == '!' then some ('!' :: name ++ ['!'], rest.drop 1)
    else some ('!' :: name, rest)
  else none

/-- Whether the handle is closed by a second exclamation mark. -/
def isClosedHandle (handle : List Char) : Bool :=
  1 < handle.length && handle.getLast? == some '!'

/-- Whether a character may occur in a tag; brackets and commas only if it is given in full. -/
def isTagChar (inFull : Bool) (c : Char) : Bool :=
  isNameChar c || ";/?:@&=+$.!~*'()".toList.contains c || (inFull && (c == ',' || c == '[' || c == ']'))

/-- An encoded character of which octets are missing: their number, and the value so far. -/
structure PartialChar where
  missing : Nat
  value : Nat

/-- A character with a number that takes more than one octet. -/
def wideChar (n : Nat) : Char :=
  if 0x80 ≤ n ∧ n.isValidChar then Char.ofNat n else '\uFFFD'

/-- What the first octet of a character says. -/
def leadOctet? (n : Nat) : Option PartialChar :=
  if n < 0x80 then some ⟨0, n⟩
  else if n < 0xC0 then none
  else if n < 0xE0 then some ⟨1, n - 0xC0⟩
  else if n < 0xF0 then some ⟨2, n - 0xE0⟩
  else if n < 0xF8 then some ⟨3, n - 0xF0⟩
  else none

/-- The character with one more octet. -/
def PartialChar.add? (p : PartialChar) (n : Nat) : Option PartialChar :=
  if 0x80 ≤ n ∧ n < 0xC0 then some ⟨p.missing - 1, p.value * 64 + (n - 0x80)⟩ else none

/-- The value of two hexadecimal digits. -/
def octet? (a b : Char) : Option Nat := do
  let a ← hexValue? a
  let b ← hexValue? b
  some (a * 16 + b)

/-- Reads on in a tag with the text read so far, in reverse, and a character that is not complete. -/
def tagFrom (inFull : Bool) (text : List Char) (open? : Option PartialChar) :
    List Spot → Option (List Char × List Spot)
  | [] => none
  | s :: rest =>
    if s.char == '%' then
      match rest with
      | a :: b :: rest =>
        match octet? a.char b.char with
        | none => none
        | some n =>
          let next? :=
            match open? with
            | some p => p.add? n
            | none => leadOctet? n
          match next? with
          | none => none
          | some ⟨0, value⟩ =>
            let c := if open?.isSome then wideChar value else Char.ofNat value
            tagFrom inFull (c :: text) none rest
          | some p => tagFrom inFull text (some p) rest
      | _ => none
    else if open?.isSome then none
    else if isTagChar inFull s.char then tagFrom inFull (s.char :: text) none rest
    else some (text.reverse, s :: rest)

/-- Reads a tag or the rest of one; together with what was read before it must not be empty, and a
zero character ends its text. -/
def tagText? (inFull : Bool) (before : List Char) (l : List Spot) : Option (List Char × List Spot) :=
  match tagFrom inFull [] none l with
  | some (text, rest) =>
    if before.isEmpty && text.isEmpty then none
    else some ((before.drop 1 ++ text).takeWhile (· ≠ '\x00'), rest)
  | none => none

/-- Reads a tag: its handle, which is empty for a tag in full and for a lone exclamation mark, and its
suffix. -/
def tagParts? (l : List Spot) : Option ((List Char × List Char) × List Spot) :=
  if peek (l.drop 1) == '<' then
    match tagText? true [] (l.drop 2) with
    | some (text, rest) => if peek rest == '>' then some (([], text), rest.drop 1) else none
    | none => none
  else
    match handle? l with
    | none => none
    | some (handle, rest) =>
      if isClosedHandle handle then
        (tagText? false [] rest).map fun p => ((handle, p.1), p.2)
      else
        match tagText? false handle rest with
        | some ([], rest) => some (([], ['!']), rest)
        | some (text, rest) => some ((['!'], text), rest)
        | none => none

/-- Reads a tag, which a blank or, in flow style, a comma must follow. -/
def tag? {ν : Type} (inFlow : Bool) (l : List Spot) : Option (Token ν × List Spot) :=
  match tagParts? l with
  | some ((handle, suffix), rest) =>
    if isBoundary (peek rest) || (inFlow && peek rest == ',') then
      some (.tag (String.ofList handle) (String.ofList suffix), rest)
    else none
  | none => none

/-! ## Directives -/

/-- The most digits of a part of a version. -/
def versionDigits : Nat := 9

/-- Reads a part of a version. -/
def versionPart? (l : List Spot) : Option (Nat × List Spot) :=
  let digits := takeChars isDigit l
  if digits.length ≤ versionDigits then
    (decimalValue? digits).map fun n => (n, dropChars isDigit l)
  else none

/-- Reads the version of a version directive. -/
def versionDirective? {ν : Type} (l : List Spot) : Option (Token ν × List Spot) := do
  let (major, l) ← versionPart? (dropChars isSpacing l)
  if peek l == '.' then
    let (minor, l) ← versionPart? (l.drop 1)
    some (.version major minor, l)
  else none

/-- Reads the handle of a tag directive and what it stands for. -/
def tagDirective? {ν : Type} (l : List Spot) : Option (Token ν × List Spot) := do
  let (handle, l) ← handle? (dropChars isSpacing l)
  if (isClosedHandle handle || handle.length = 1) && isSpacing (peek l) then
    let (expansion, l) ← tagText? true [] (dropChars isSpacing l)
    if isBoundary (peek l) then
      some (.shorthand (String.ofList handle) (String.ofList expansion), l)
    else none
  else none

/-- Reads a directive after its indicator, up to the end of its line. -/
def directive? {ν : Type} (l : List Spot) : Option (Token ν × List Spot) :=
  let name := String.ofList (takeChars isNameChar l)
  let rest := dropChars isNameChar l
  if isBoundary (peek rest) then
    let found? :=
      if name = "YAML" then versionDirective? rest
      else if name = "TAG" then tagDirective? rest
      else none
    match found? with
    | some (t, rest) => (Block.restOfLine? rest).map fun rest => (t, rest)
    | none => none
  else none

end StackKeeper.Yaml
