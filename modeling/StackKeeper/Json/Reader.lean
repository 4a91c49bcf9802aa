import StackKeeper.Json.Basic
import StackKeeper.Text.Decimal
/-!
# Reading JSON

One JSON value with blanks around it, as RFC 8259 defines it. A number that is not an integer
in plain digits keeps its literal, and so does minus zero. A string whose escapes name half of a
surrogate pair reads as `unreadable`.
-/
namespace StackKeeper.Json
open StackKeeper.Text

/-- Whether the character may stand between tokens. -/
def isSpace (c : Char) : Bool := c == ' ' || c == '\n' || c == '\t' || c == '\r'

def skipSpace (s : List Char) : List Char := s.dropWhile isSpace

/-! ## Strings -/

/-- A piece of a string: a character, or a 16-bit unit given by an escape. -/
inductive Piece where
  | char (c : Char)
  | unit (n : Nat)

/-- The value of four hexadecimal digits. -/
def hexUnit? (a b c d : Char) : Option Nat := do
  let a ← hexValue? a
  let b ← hexValue? b
  let c ← hexValue? c
  let d ← hexValue? d
  some (((a * 16 + b) * 16 + c) * 16 + d)

/-- The character of a one-letter escape. -/
def escape? (c : Char) : Option Char :=
  match c with
  | '"' => some '"'
  | '\\' => some '\\'
  | '/' => some '/'
  | 'b' => some '\x08'
  | 'f' => some '\x0C'
  | 'n' => some '\n'
  | 'r' => some '\r'
  | 't' => some '\t'
  | _ => none

/-- The pieces of a string up to its closing quote, and what follows it. -/
def pieces? : List Char → Option (List Piece × List Char)
  | [] => none
  | '"' :: rest => some ([], rest)
  | '\\' :: 'u' :: a :: b :: c :: d :: rest => do
    let n ← hexUnit? a b c d
    let (ps, tail) ← pieces? rest
    some (.unit n :: ps, tail)
  | '\\' :: c :: rest => do
    let e ← escape? c
    let (ps, tail) ← pieces? rest
    some (.char e :: ps, tail)
  | c :: rest =>
    if c.toNat < 0x20 ∨ c = '\\' then none
    else do
      let (ps, tail) ← pieces? rest
      some (.char c :: ps, tail)

/-- The text of the pieces, if every surrogate has its partner. -/
def assemble? : List Piece → Option (List Char)
  | [] => some []
  | .char c :: rest => (assemble? rest).map (c :: ·)
  | .unit high :: .unit low :: rest =>
    if 0xD800 ≤ high ∧ high < 0xDC00 ∧ 0xDC00 ≤ low ∧ low < 0xE000 then
      (assemble? rest).map (Char.ofNat (0x10000 + (high - 0xD800) * 0x400 + (low - 0xDC00)) :: ·)
    else if 0xD800 ≤ high ∧ high < 0xE000 then none
    else (assemble? (.unit low :: rest)).map (Char.ofNat high :: ·)
  | .unit n :: rest =>
    if 0xD800 ≤ n ∧ n < 0xE000 then none else (assemble? rest).map (Char.ofNat n :: ·)

/-- A string after its opening quote: its text, if it has one, and what follows. -/
def string? (s : List Char) : Option (Option String × List Char) := do
  let (ps, rest) ← pieces? s
  some ((assemble? ps).map String.ofList, rest)

/-! ## Numbers -/

def spanDigits (s : List Char) : List Char × List Char :=
  (s.takeWhile isDigit, s.dropWhile isDigit)

/-- One or more digits with no leading zero, and what follows. -/
def wholePart? (s : List Char) : Option (List Char × List Char) :=
  match spanDigits s with
  | ([], _) => none
  | ('0' :: _ :: _, _) => none
  | p => some p

/-- A fraction, if the text goes on with a point. -/
def fractionPart? : List Char → Option (List Char × List Char)
  | '.' :: rest =>
    match spanDigits rest with
    | ([], _) => none
    | (digits, tail) => some ('.' :: digits, tail)
  | s => some ([], s)

/-- The sign of an exponent, and what follows. -/
def exponentSign : List Char → List Char × List Char
  | '+' :: rest => (['+'], rest)
  | '-' :: rest => (['-'], rest)
  | s => ([], s)

/-- An exponent, if the text goes on with its letter. -/
def exponentPart? : List Char → Option (List Char × List Char)
  | c :: rest =>
    if c = 'e' ∨ c = 'E' then
      let (sign, rest) := exponentSign rest
      match spanDigits rest with
      | ([], _) => none
      | (digits, tail) => some (c :: sign ++ digits, tail)
    else some ([], c :: rest)
  | [] => some ([], [])

/-- A number without its sign. -/
def unsigned? (negative : Bool) (s : List Char) : Option (Json × List Char) := do
  let (whole, s) ← wholePart? s
  let (fraction, s) ← fractionPart? s
  let (exponent, s) ← exponentPart? s
  let n ← decimalValue? whole
  let sign := if negative then ['-'] else []
  if fraction.isEmpty ∧ exponent.isEmpty ∧ ¬ (negative ∧ n = 0) then
    some (.int (if negative then -(n : Int) else n), s)
  else some (.real (String.ofList (sign ++ whole ++ fraction ++ exponent)), s)

def number? : List Char → Option (Json × List Char)
  | '-' :: rest => unsigned? true rest
  | s => unsigned? false s

/-! ## Values -/

/-- What follows a literal word. -/
def afterWord? (word : List Char) (s : List Char) : Option (List Char) :=
  if word.isPrefixOf s then some (s.drop word.length) else none

/-- The object of fields with keys, if all keys have a text. -/
def ofFields (fields : List (Option String × Json)) : Json :=
  match fields.mapM fun f => f.1.map fun k => (k, f.2) with
  | some fs => .obj fs
  | none => .unreadable

mutual

/-- A value, and what follows; the first argument bounds the depth of the calls. -/
def value? : Nat → List Char → Option (Json × List Char)
  | 0, _ => none
  | fuel + 1, s =>
    match skipSpace s with
    | '"' :: rest => do
      let (text, rest) ← string? rest
      some ((text.map Json.str).getD .unreadable, rest)
    | '[' :: rest =>
      match skipSpace rest with
      | ']' :: tail => some (.arr [], tail)
      | _ => do
        let (items, tail) ← items? fuel rest
        some (.arr items, tail)
    | '\x7b' :: rest =>
      match skipSpace rest with
      | '\x7d' :: tail => some (.obj [], tail)
      | _ => do
        let (fields, tail) ← fields? fuel rest
        some (ofFields fields, tail)
    | 't' :: rest => (afterWord? "rue".toList rest).map fun tail => (.bool true, tail)
    | 'f' :: rest => (afterWord? "alse".toList rest).map fun tail => (.bool false, tail)
    | 'n' :: rest => (afterWord? "ull".toList rest).map fun tail => (.null, tail)
    | s => number? s

/-- One or more items and the closing bracket. -/
def items? : Nat → List Char → Option (List Json × List Char)
  | 0, _ => none
  | fuel + 1, s => do
    let (j, rest) ← value? fuel s
    match skipSpace rest with
    | ',' :: rest => do
      let (items, tail) ← items? fuel rest
      some (j :: items, tail)
    | ']' :: tail => some ([j], tail)
    | _ => none

/-- One or more fields and the closing bracket. -/
def fields? : Nat → List Char → Option (List (Option String × Json) × List Char)
  | 0, _ => none
  | fuel + 1, s =>
    match skipSpace s with
    | '"' :: rest => do
      let (key, rest) ← string? rest
      match skipSpace rest with
      | ':' :: rest => do
        let (j, rest) ← value? fuel rest
        match skipSpace rest with
        | ',' :: rest => do
          let (fields, tail) ← fields? fuel rest
          some ((key, j) :: fields, tail)
        | '\x7d' :: tail => some ([(key, j)], tail)
        | _ => none
      | _ => none
    | _ => none

end

/-- Reads a text that holds one value. -/
def ofChars? (s : List Char) : Option Json :=
  match value? (s.length + 1) s with
  | some (j, rest) => if rest.all isSpace then some j else none
  | none => none

def ofText? (s : String) : Option Json := ofChars? s.toList

end StackKeeper.Json
