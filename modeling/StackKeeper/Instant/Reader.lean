import StackKeeper.Instant.Basic
import StackKeeper.Text.Blank
import StackKeeper.Text.Decimal
/-!
# Reading instants

Instants are read from a lenient form of RFC 3339: numbers may have fewer digits, blanks may stand
before them and around the separators, the date and the time are separated by `T`, `t` or a
blank space, a fraction of a second may have any number of digits of which nine count, and the zone
is `Z`, `UTC` or an offset. What is written by `Instant.text` reads back as itself.
-/
namespace StackKeeper.Instant
open StackKeeper.Text

def skipBlanks (s : List Char) : List Char := trimStart s

/-- The longest run of digits, at most as many as the limit, and what follows. -/
def digitRun : Nat → List Char → List Char × List Char
  | limit + 1, c :: rest =>
    if isDigit c then
      let (digits, tail) := digitRun limit rest
      (c :: digits, tail)
    else ([], c :: rest)
  | _, s => ([], s)

/-- A number of one digit up to the limit, and what follows. -/
def number? (limit : Nat) (s : List Char) : Option (Nat × List Char) :=
  let (digits, rest) := digitRun limit s
  (decimalValue? digits).map fun n => (n, rest)

/-- What follows a given character after blanks. -/
def after? (c : Char) (s : List Char) : Option (List Char) :=
  match skipBlanks s with
  | d :: rest => if d = c then some rest else none
  | [] => none

/-- A year: a sign and any number of digits, or up to four digits. -/
def year? (s : List Char) : Option (Int × List Char) :=
  match skipBlanks s with
  | '-' :: rest => (number? rest.length rest).map fun p => (-(p.1 : Int), p.2)
  | '+' :: rest => (number? rest.length rest).map fun p => ((p.1 : Int), p.2)
  | rest => (number? 4 rest).map fun p => ((p.1 : Int), p.2)

def twoDigits? (s : List Char) : Option (Nat × List Char) := number? 2 (skipBlanks s)

/-- A fraction in nanoseconds: of its digits the first nine count. -/
def fraction? (s : List Char) : Option (Nat × List Char) :=
  match s with
  | '.' :: rest =>
    match digitRun 9 rest with
    | (digits, tail) =>
      (decimalValue? digits).map fun n =>
        (n * Nat.pow 10 (9 - digits.length), tail.dropWhile isDigit)
  | _ => some (0, s)

def lowerAscii (c : Char) : Char := c.toLower

/-- Two digits of an offset. -/
def offsetPair? : List Char → Option (Nat × List Char)
  | a :: b :: rest =>
    match digitValue? a, digitValue? b with
    | some x, some y => some (10 * x + y, rest)
    | _, _ => none
  | _ => none

/-- The minutes of a signed offset: two digits of hours and two of minutes, with colons and blanks
allowed between them. -/
def offset? (sign : Int) (s : List Char) : Option (Int × List Char) :=
  match offsetPair? s with
  | none => none
  | some (hours, rest) =>
    match offsetPair? (rest.dropWhile fun c => c == ':' || isBlank c) with
    | none => none
    | some (minutes, tail) =>
      if minutes < 60 ∧ hours < 24 then some (sign * (60 * hours + minutes), tail) else none

/-- The offset of a zone in minutes. -/
def zone? (s : List Char) : Option (Int × List Char) :=
  match s with
  | a :: b :: c :: rest =>
    if lowerAscii a = 'u' ∧ lowerAscii b = 't' ∧ lowerAscii c = 'c' then some (0, rest)
    else signedZone s
  | _ => signedZone s
where
  /-- A zone that is no name: `Z` or a signed offset. -/
  signedZone : List Char → Option (Int × List Char)
    | 'Z' :: rest => some (0, rest)
    | 'z' :: rest => some (0, rest)
    | '+' :: rest => offset? 1 rest
    | '-' :: rest => offset? (-1) rest
    | '\u2212' :: rest => offset? (-1) rest
    | _ => none

/-- What follows the separator of date and time. -/
def afterSeparator? : List Char → Option (List Char)
  | 'T' :: rest => some rest
  | 't' :: rest => some rest
  | ' ' :: rest => some rest
  | _ => none

/-- The fields of a second field: 60 is a leap second. -/
def secondFields? (second fraction : Nat) : Option (Nat × Nat) :=
  if second < 60 then some (second, fraction)
  else if second = 60 then some (59, secondNanos + fraction)
  else none

/-- Reads an instant from the characters of a text. -/
def ofChars? (s : List Char) : Option Instant := do
  let (year, s) ← year? s
  let s ← after? '-' s
  let (month, s) ← twoDigits? s
  let s ← after? '-' s
  let (day, s) ← twoDigits? s
  let s ← afterSeparator? s
  let (hour, s) ← twoDigits? s
  let s ← after? ':' s
  let (minute, s) ← twoDigits? s
  let s ← after? ':' s
  let (second, s) ← twoDigits? s
  let (fraction, s) ← fraction? s
  let (offset, s) ← zone? (skipBlanks s)
  if s.all isBlank then
    let (second, nano) ← secondFields? second fraction
    if hour < 24 ∧ minute < 60 then
      ofLocal? year month day hour minute second nano offset
    else none
  else none

def ofText? (s : String) : Option Instant := ofChars? s.toList

end StackKeeper.Instant
