import StackKeeper.Text.Decimal
/-!
# Whole numbers as doubles

A sample value is written as a double: the number is rounded to 53 binary digits, a tie to the
even neighbour, and written with the fewest decimal digits that round to the same double, filled up
with zeros and never with an exponent.
-/
namespace StackKeeper.Text

/-- The greatest exponent with 53 binary digits above it, for a number that has more. -/
def excessBits (n : Nat) : Nat := (Nat.log2 n + 1) - 53

/-- The nearest number with at most 53 significant binary digits, as digits and exponent; of two
equally near ones the one with even digits. -/
def nearestDouble (n : Nat) : Nat × Nat :=
  let e := excessBits n
  let unit : Nat := 1 <<< e
  let m := n / unit
  let r := n % unit
  if 2 * r > unit ∨ (2 * r = unit ∧ m % 2 = 1) then (m + 1, e) else (m, e)

/-- Whether a number rounds to the double with the given digits and exponent. -/
def roundsTo (m e candidate : Nat) : Bool :=
  let value := 4 * (m <<< e)
  let above : Nat := 2 <<< e
  let below : Nat := if m = 0x10000000000000 then 1 <<< e else 2 <<< e
  let c := 4 * candidate
  if m % 2 = 0 then value - below ≤ c && c ≤ value + above
  else value - below < c && c < value + above

/-- The candidate nearest to a value among its two neighbours on a grid that round to it. -/
def gridHit (m e step : Nat) : Option Nat :=
  let value := m <<< e
  let low := value / step * step
  let high := low + step
  match roundsTo m e low, roundsTo m e high with
  | true, true => some (if high - value < value - low then high else low)
  | true, false => some low
  | false, true => some high
  | false, false => none

/-- The first hit on grids of the given and all finer powers of ten. -/
def shortestOnGrids (m e : Nat) : Nat → Nat
  | 0 => m <<< e
  | k + 1 => (gridHit m e (Nat.pow 10 (k + 1))).getD (shortestOnGrids m e k)

def doubleOfNat (n : Nat) : List Char :=
  let (m, e) := nearestDouble n
  if e = 0 then decimal m else decimal (shortestOnGrids m e (decimal (m <<< e)).length)

/-- The text of an integer as a double. -/
def doubleText (n : Int) : String :=
  match n with
  | .ofNat n => String.ofList (doubleOfNat n)
  | .negSucc n => String.ofList ('-' :: doubleOfNat (n + 1))

end StackKeeper.Text
