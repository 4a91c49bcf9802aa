import StackKeeper.Text.Blank
import StackKeeper.Text.Decimal
/-!
# Environment files

A file beside a configuration can set environment variables: one assignment in a line, with comments,
quotes, escapes and references to other variables. A line in which a quote is open goes on in the next
one. Between single quotes everything stands for itself; elsewhere a dollar sign starts a reference,
which the environment answers first and an earlier line after it, and an unknown one is empty.
Variables that are already set keep their values.
-/
namespace StackKeeper
open StackKeeper.Text

/-- The environment: names with their values. -/
abbrev Variables := List (String × String)

namespace EnvFile

/-! ## Lines -/

/-- Where the end of a line is met. -/
inductive LineState where
  | complete
  | blank
  | escape
  | single
  | singleEscape
  | double
  | doubleEscape
deriving DecidableEq

/-- The state after a character outside of quotes and escapes. -/
def outside (c : Char) : LineState :=
  if c == '\\' then .escape
  else if c == '"' then .double
  else if c == '\'' then .single
  else .complete

/-- The state after a character. -/
def LineState.after (c : Char) : LineState → LineState
  | .complete => if isBlank c && c != '\n' && c != '\r' then .blank else outside c
  | .blank => outside c
  | .escape => .complete
  | .single => if c == '\\' then .singleEscape else if c == '\'' then .complete else .single
  | .singleEscape => .single
  | .double => if c == '\\' then .doubleEscape else if c == '"' then .complete else .double
  | .doubleEscape => .double

/-- The state at the end of a line, and the part of the line before a comment if there is one. -/
def scanLine (state : LineState) : List Char → LineState × Option (List Char)
  | [] => (state, none)
  | c :: rest =>
    if state = .blank ∧ c = '#' then (.complete, some [])
    else
      let (last, before) := scanLine (state.after c) rest
      (last, before.map (c :: ·))

/-- The lines of a text with their line feeds. -/
def rawLines : List Char → List (List Char)
  | [] => []
  | c :: rest =>
    if c = '\n' then ['\n'] :: rawLines rest
    else
      match rawLines rest with
      | [] => [[c]]
      | line :: lines => (c :: line) :: lines

/-- The line without its end. -/
def withoutEnd (line : List Char) : List Char :=
  match line.reverse with
  | '\n' :: '\r' :: rest => rest.reverse
  | '\n' :: rest => rest.reverse
  | _ => line

/-- The lines with those joined in which a quote or an escape is open; the text must not end in
one. The first arguments are what is open and its state. -/
def joinLines (before : List Char) (state : LineState) : List (List Char) → Option (List (List Char))
  | [] => if state = .complete then some [] else none
  | line :: rest =>
    let joined := before ++ line
    if (trimStart joined).head? = some '#' then joinLines [] .complete rest
    else
      match scanLine state line with
      | (_, some start) => (joinLines [] .complete rest).map ((before ++ start) :: ·)
      | (.complete, none) => (joinLines [] .complete rest).map (withoutEnd joined :: ·)
      | (next, none) => joinLines joined next rest

/-! ## Values -/

/-- Where a value is read. -/
inductive ValueState where
  | bare
  | escape (inDouble : Bool)
  | single
  | double
  /-- Inside a reference, which braces may enclose. -/
  | reference (inDouble braced : Bool) (name : List Char)
  /-- After the value. -/
  | done

/-- The character of an escape. -/
def escaped? (c : Char) : Option Char :=
  if "\\'\"$ ".toList.contains c then some c
  else if c = 'n' then some '\n'
  else none

/-- Whether a character can belong to a name without braces: a letter or digit. -/
def isReferenceChar (c : Char) : Bool := c.isAlphanum || (0x80 ≤ c.toNat && !isBlank c)

/-- The value of a reference. -/
def resolve (lookup : String → Option String) (name : List Char) : List Char :=
  ((lookup (String.ofList name)).getD "").toList

/-- The state after a reference or an escape. -/
def resume (inDouble : Bool) : ValueState := if inDouble then .double else .bare

/-- Reads on with the value read so far, in reverse. -/
def valueFrom (lookup : String → Option String) (text : List Char) (state : ValueState) :
    List Char → Option (List Char)
  | [] =>
    match state with
    | .single | .double => none
    | .reference inDouble braced name =>
      if inDouble || braced then none else some ((resolve lookup name).reverse ++ text).reverse
    | .escape inDouble => if inDouble then none else some text.reverse
    | _ => some text.reverse
  | c :: rest =>
    match state with
    | .done =>
      if c = ' ' ∨ c = '\t' then valueFrom lookup text .done rest
      else if c = '#' then some text.reverse
      else none
    | .escape inDouble =>
      match escaped? c with
      | some e => valueFrom lookup (e :: text) (resume inDouble) rest
      | none => none
    | .single =>
      if c = '\'' then valueFrom lookup text .bare rest else valueFrom lookup (c :: text) .single rest
    | .reference inDouble braced name =>
      if braced then
        if isReferenceChar c || c != '\x7d' then
          valueFrom lookup text (.reference inDouble true (name ++ [c])) rest
        else valueFrom lookup ((resolve lookup name).reverse ++ text) (resume inDouble) rest
      else if isReferenceChar c then
        valueFrom lookup text (.reference inDouble false (name ++ [c])) rest
      else if c = '\x7b' ∧ name = [] then
        valueFrom lookup text (.reference inDouble true []) rest
      else
        let text := (resolve lookup name).reverse ++ text
        if c = '$' then valueFrom lookup text (.reference inDouble false []) rest
        else valueFrom lookup (c :: text) (resume inDouble) rest
    | .double =>
      if c = '$' then valueFrom lookup text (.reference true false []) rest
      else if c = '"' then valueFrom lookup text .bare rest
      else if c = '\\' then valueFrom lookup text (.escape true) rest
      else valueFrom lookup (c :: text) .double rest
    | .bare =>
      if c = '$' then valueFrom lookup text (.reference false false []) rest
      else if c = '\'' then valueFrom lookup text .single rest
      else if c = '"' then valueFrom lookup text .double rest
      else if c = '\\' then valueFrom lookup text (.escape false) rest
      else if c = ' ' ∨ c = '\t' then valueFrom lookup text .done rest
      else valueFrom lookup (c :: text) .bare rest

/-! ## Assignments -/

def startsName (c : Char) : Bool := c.isAlpha || c == '_'

def isNameChar (c : Char) : Bool := c.isAlphanum || c == '_' || c == '.'

/-- Reads a name and the blanks after it. -/
def name? (l : List Char) : Option (String × List Char) :=
  match l with
  | c :: _ =>
    if startsName c then
      some (String.ofList (l.takeWhile isNameChar), trimStart (l.dropWhile isNameChar))
    else none
  | [] => none

/-- What follows an equals sign. -/
def afterEquals? : List Char → Option (List Char)
  | '=' :: rest => some rest
  | _ => none

/-- The word that may stand before an assignment. -/
def exportWord : String := "export"

/-- Reads the name of an assignment and what follows the equals sign. -/
def target? (l : List Char) : Option (String × List Char) := do
  let (name, rest) ← name? l
  match afterEquals? rest with
  | some rest => some (name, rest)
  | none =>
    if name = exportWord then
      let (name, rest) ← name? rest
      let rest ← afterEquals? rest
      some (name, rest)
    else none

/-- Whether nothing but a comment is left. -/
def isOver (l : List Char) : Bool := l.isEmpty || l.head? == some '#'

/-- Reads a line: an assignment, or nothing. -/
def assignment? (lookup : String → Option String) (line : List Char) :
    Option (Option (String × String)) :=
  let l := trimStart (trimEnd line)
  if isOver l then some none
  else do
    let (name, rest) ← target? l
    let rest := trimStart rest
    if isOver rest then some (some (name, ""))
    else do
      let value ← valueFrom lookup [] .bare rest
      some (some (name, String.ofList value))

/-- The environment and the assignments so far, the latest first. -/
structure State where
  environment : Variables
  assigned : Variables

def State.lookup (s : State) (name : String) : Option String :=
  (s.environment.lookup name).or (s.assigned.lookup name)

/-- The state after an assignment. -/
def State.assign (s : State) (name value : String) : State where
  environment :=
    if (s.environment.lookup name).isSome then s.environment else s.environment ++ [(name, value)]
  assigned := (name, value) :: s.assigned

/-- The environment after the assignments of all lines. -/
def assignAll (s : State) : List (List Char) → Option Variables
  | [] => some s.environment
  | line :: rest =>
    match assignment? s.lookup line with
    | none => none
    | some none => assignAll s rest
    | some (some (name, value)) => assignAll (s.assign name value) rest

/-- The environment after a file, if all its lines can be read. -/
def extend? (environment : Variables) (text : String) : Option Variables := do
  let chars := match text.toList with
    | '\uFEFF' :: rest => rest
    | l => l
  let lines ← joinLines [] .complete (rawLines chars)
  assignAll ⟨environment, []⟩ lines

end EnvFile
end StackKeeper
