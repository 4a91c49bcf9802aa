import StackKeeper.Instant.Basic
import StackKeeper.Text.Decimal
/-!
# Writing instants

The written form is that of RFC 3339 in UTC: `2026-01-31T23:59:59Z`, with no fraction when it is
zero and else 3, 6 or 9 digits of it. A year outside 0 to 9999 carries its sign.
-/
namespace StackKeeper.Instant
open StackKeeper.Text

/-- The year: four digits, or a sign and at least four digits outside 0 to 9999. -/
def yearText (year : Int) : List Char :=
  match year with
  | .ofNat n => if n ≤ 9999 then decimalFixed 4 n else '+' :: decimalPadded 4 n
  | .negSucc n => '-' :: decimalPadded 4 (n + 1)

/-- The fraction of a second: nothing, or 3, 6 or 9 digits after a point. -/
def fractionText (nano : Nat) : List Char :=
  if nano = 0 then []
  else if nano % 1000000 = 0 then '.' :: decimalFixed 3 (nano / 1000000)
  else if nano % 1000 = 0 then '.' :: decimalFixed 6 (nano / 1000)
  else '.' :: decimalFixed 9 nano

/-- Seconds with their fraction; a leap second is second 60. -/
def secondText (second nano : Nat) : List Char :=
  if nano < secondNanos then decimalFixed 2 second ++ fractionText nano
  else decimalFixed 2 (second + 1) ++ fractionText (nano - secondNanos)

/-- The characters of the written form. -/
def chars (t : Instant) : List Char :=
  yearText t.year ++ '-' :: decimalFixed 2 t.month ++ '-' :: decimalFixed 2 t.day ++
    'T' :: decimalFixed 2 t.hour ++ ':' :: decimalFixed 2 t.minute ++
    ':' :: secondText t.second t.nano ++ ['Z']

def text (t : Instant) : String := String.ofList t.chars

/-- The form shown to a reader: date and time to the second. -/
def displayText (t : Instant) : String :=
  let second := if t.nano < secondNanos then t.second else t.second + 1
  String.ofList (yearText t.year ++ '-' :: decimalFixed 2 t.month ++ '-' :: decimalFixed 2 t.day ++
    ' ' :: decimalFixed 2 t.hour ++ ':' :: decimalFixed 2 t.minute ++
    ':' :: decimalFixed 2 second)

end StackKeeper.Instant
