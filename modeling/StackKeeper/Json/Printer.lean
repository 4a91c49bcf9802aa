import StackKeeper.Json.Basic
import StackKeeper.Text.Decimal
/-!
# Writing JSON

Two written forms: the compact one without blanks, and the pretty one, which puts every item and
every field on a line of its own, indented by two spaces a level, and writes an empty array or
object as two brackets. In strings only the quote, the backslash and control characters are escaped.
-/
namespace StackKeeper.Json
open StackKeeper.Text

def hexDigit (n : Nat) : Char :=
  if n < 10 then Char.ofNat ('0'.toNat + n) else Char.ofNat ('a'.toNat + (n - 10))

/-- A character inside a string. -/
def charText (c : Char) : List Char :=
  if c = '"' then ['\\', '"']
  else if c = '\\' then ['\\', '\\']
  else if c.toNat < 0x20 then
    match c.toNat with
    | 0x08 => ['\\', 'b']
    | 0x09 => ['\\', 't']
    | 0x0A => ['\\', 'n']
    | 0x0C => ['\\', 'f']
    | 0x0D => ['\\', 'r']
    | n => ['\\', 'u', '0', '0', hexDigit (n / 16), hexDigit (n % 16)]
  else [c]

def stringText (s : String) : List Char := '"' :: s.toList.flatMap charText ++ ['"']

/-- A scalar, or nothing for an array or object. -/
def scalarText : Json → List Char
  | .bool true => "true".toList
  | .bool false => "false".toList
  | .int n => (integerText n).toList
  | .real literal => literal.toList
  | .str s => stringText s
  | _ => "null".toList

mutual

/-- The compact form. -/
def compactChars : Json → List Char
  | .arr items => '[' :: compactItems items
  | .obj fields => '\x7b' :: compactFields fields
  | j => scalarText j

/-- The items of an array with the closing bracket. -/
def compactItems : List Json → List Char
  | [] => [']']
  | [j] => compactChars j ++ [']']
  | j :: rest => compactChars j ++ ',' :: compactItems rest

/-- The fields of an object with the closing bracket. -/
def compactFields : List (String × Json) → List Char
  | [] => ['\x7d']
  | [(k, j)] => stringText k ++ ':' :: compactChars j ++ ['\x7d']
  | (k, j) :: rest => stringText k ++ ':' :: compactChars j ++ ',' :: compactFields rest

end

def newline (level : Nat) : List Char := '\n' :: List.replicate (2 * level) ' '

mutual

/-- The pretty form at a level of indentation. -/
def prettyChars (level : Nat) : Json → List Char
  | .arr [] => ['[', ']']
  | .obj [] => ['\x7b', '\x7d']
  | .arr (j :: rest) => '[' :: prettyItems level (j :: rest)
  | .obj (f :: rest) => '\x7b' :: prettyFields level (f :: rest)
  | j => scalarText j

/-- The items of an array, each on a line, with the closing bracket. -/
def prettyItems (level : Nat) : List Json → List Char
  | [] => newline level ++ [']']
  | [j] => newline (level + 1) ++ prettyChars (level + 1) j ++ newline level ++ [']']
  | j :: rest => newline (level + 1) ++ prettyChars (level + 1) j ++ ',' :: prettyItems level rest

/-- The fields of an object, each on a line, with the closing bracket. -/
def prettyFields (level : Nat) : List (String × Json) → List Char
  | [] => newline level ++ ['\x7d']
  | [(k, j)] =>
    newline (level + 1) ++ stringText k ++ ':' :: ' ' :: prettyChars (level + 1) j ++
      newline level ++ ['\x7d']
  | (k, j) :: rest =>
    newline (level + 1) ++ stringText k ++ ':' :: ' ' :: prettyChars (level + 1) j ++
      ',' :: prettyFields level rest

end

def compact (j : Json) : String := String.ofList (compactChars j)

def pretty (j : Json) : String := String.ofList (prettyChars 0 j)

end StackKeeper.Json
