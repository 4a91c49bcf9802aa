import StackKeeper.Text.Decimal
import StackKeeper.Yaml.Scalar.Plain
/-!
# Quoted scalars

Between single quotes a quote is written twice; between double quotes a backslash starts an escape,
and before a line break it leaves that break out. Gaps are folded in both.
-/
namespace StackKeeper.Yaml
open StackKeeper.Text

/-- The character of a one-letter escape. -/
def escapedChar? : Char → Option Char
  | '0' => some '\x00'
  | 'a' => some '\x07'
  | 'b' => some '\x08'
  | 't' => some '\t'
  | '\t' => some '\t'
  | 'n' => some '\n'
  | 'v' => some '\x0B'
  | 'f' => some '\x0C'
  | 'r' => some '\r'
  | 'e' => some '\x1B'
  | ' ' => some ' '
  | '"' => some '"'
  | '/' => some '/'
  | '\\' => some '\\'
  | 'N' => some '\u0085'
  | '_' => some '\u00A0'
  | 'L' => some '\u2028'
  | 'P' => some '\u2029'
  | _ => none

/-- The number of hexadecimal digits after the letter of a numeric escape. -/
def escapeLength? : Char → Option Nat
  | 'x' => some 2
  | 'u' => some 4
  | 'U' => some 8
  | _ => none

def charOf? (n : Nat) : Option Char := if n.isValidChar then some (Char.ofNat n) else none

namespace Quoted

/-- Where a reader stands inside an escape. -/
inductive Escape where
  | none
  /-- After the backslash. -/
  | started
  /-- Before the last digits of a number, one more than given. -/
  | digits (left value : Nat)

/-- What a reader of double quotes has read: the text in reverse, the gap after it, and the escape it
is in. -/
structure State where
  text : List Char
  gap : Gap
  escape : Escape

def State.start : State := ⟨[], Gap.none, .none⟩

def State.push (x : State) (c : Char) : State :=
  ⟨c :: (x.gap.text.reverse ++ x.text), Gap.none, .none⟩

/-- The state in which an escape goes on, all gaps before it written out. -/
def State.escaping (x : State) (e : Escape) : State := ⟨x.gap.text.reverse ++ x.text, Gap.none, e⟩

/-- The text once the closing quote is reached. -/
def State.finish (x : State) : List Char := (x.gap.text.reverse ++ x.text).reverse

/-- The state after the character that follows a backslash. -/
def State.pushEscaped? (x : State) (c : Char) : Option State :=
  if isBreak c then some ⟨x.text, Gap.escaped, .none⟩
  else
    match escapedChar? c, escapeLength? c with
    | some e, _ => some (x.push e)
    | none, some n => some (x.escaping (.digits (n - 1) 0))
    | none, none => none

/-- The state after a digit of a numeric escape. -/
def State.pushDigit? (x : State) (left value : Nat) (c : Char) : Option State :=
  match hexValue? c with
  | none => none
  | some d =>
    match left with
    | left + 1 => some (x.escaping (.digits left (value * 16 + d)))
    | 0 => (charOf? (value * 16 + d)).map x.push

/-- Reads on between double quotes. -/
def doubleFrom (x : State) : List Spot → Option ScalarRead
  | [] => none
  | s :: rest =>
    match x.escape with
    | .started =>
      match x.pushEscaped? s.char with
      | some y => doubleFrom y rest
      | none => none
    | .digits left value =>
      match x.pushDigit? left value s.char with
      | some y => doubleFrom y rest
      | none => none
    | .none =>
      if isSpacing s.char || isBreak s.char then
        doubleFrom ⟨x.text, x.gap.add s.char, .none⟩ rest
      else if s.char == endMark || isMarker (s :: rest) then none
      else if s.char == '"' then some ⟨x.finish, false, rest⟩
      else if s.char == '\\' then doubleFrom (x.escaping .started) rest
      else doubleFrom (x.push s.char) rest

/-- Reads on between single quotes. -/
def singleFrom (x : State) : List Spot → Option ScalarRead
  | [] => none
  | s :: rest =>
    if isSpacing s.char || isBreak s.char then
      singleFrom ⟨x.text, x.gap.add s.char, .none⟩ rest
    else if s.char == endMark || isMarker (s :: rest) then none
    else if s.char == '\'' then
      match rest with
      | t :: rest =>
        if t.char == '\'' then singleFrom (x.push '\'') rest
        else some ⟨x.finish, false, t :: rest⟩
      | [] => some ⟨x.finish, false, []⟩
    else singleFrom (x.push s.char) rest

/-- Reads a scalar after its opening quote. -/
def read? (isDouble : Bool) (l : List Spot) : Option ScalarRead :=
  if isDouble then doubleFrom State.start l else singleFrom State.start l

end Quoted
end StackKeeper.Yaml
