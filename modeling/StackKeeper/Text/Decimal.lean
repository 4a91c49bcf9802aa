/-!
# Numerals

Natural numbers in decimal digits: written without leading zeros or padded to a width, and read
from one or more ASCII digits. Of hexadecimal numerals only the digits are read here.
-/
namespace StackKeeper.Text

def digitValue? (c : Char) : Option Nat :=
  if '0' ≤ c ∧ c ≤ '9' then some (c.toNat - '0'.toNat) else none

def isDigit (c : Char) : Bool := (digitValue? c).isSome

/-- The value of a hexadecimal digit. -/
def hexValue? (c : Char) : Option Nat :=
  if '0' ≤ c ∧ c ≤ '9' then some (c.toNat - '0'.toNat)
  else if 'a' ≤ c ∧ c ≤ 'f' then some (c.toNat - 'a'.toNat + 10)
  else if 'A' ≤ c ∧ c ≤ 'F' then some (c.toNat - 'A'.toNat + 10)
  else none

def digitChar (n : Nat) : Char := Char.ofNat ('0'.toNat + n % 10)

/-- The decimal digits of a number, none of them a leading zero. -/
def decimal (n : Nat) : List Char :=
  if n < 10 then [digitChar n] else decimal (n / 10) ++ [digitChar (n % 10)]
termination_by n

/-- The last digits of a number, exactly as many as the width. -/
def decimalFixed : Nat → Nat → List Char
  | 0, _ => []
  | width + 1, n => decimalFixed width (n / 10) ++ [digitChar (n % 10)]

/-- The decimal digits of a number, with leading zeros up to the width. -/
def decimalPadded (width n : Nat) : List Char :=
  let digits := decimal n
  List.replicate (width - digits.length) '0' ++ digits

/-- Appends the value of digits to a number already read. -/
def appendDigits (acc : Nat) : List Char → Option Nat
  | [] => some acc
  | c :: rest =>
    match digitValue? c with
    | some d => appendDigits (acc * 10 + d) rest
    | none => none

/-- The number written by one or more digits. -/
def decimalValue? : List Char → Option Nat
  | [] => none
  | c :: rest => appendDigits 0 (c :: rest)

def decimalText (n : Nat) : String := String.ofList (decimal n)

/-- The decimal text of an integer. -/
def integerText (n : Int) : String :=
  match n with
  | .ofNat n => decimalText n
  | .negSucc n => String.ofList ('-' :: decimal (n + 1))

/-- A number below a bound, read from digits with an optional plus sign. -/
def boundedNatural? (bound : Nat) (s : String) : Option Nat :=
  let digits := match s.toList with
    | '+' :: rest => rest
    | rest => rest
  match decimalValue? digits with
  | some n => if n < bound then some n else none
  | none => none

/-! ## Laws -/

theorem digitValue?_digitChar : ∀ n, n < 10 → digitValue? (digitChar n) = some n := by decide

theorem appendDigits_append (acc : Nat) (s t : List Char) :
    appendDigits acc (s ++ t) = (appendDigits acc s).bind fun n => appendDigits n t := by
  induction s generalizing acc with
  | nil => rfl
  | cons c s ih => simp only [List.cons_append, appendDigits]; split <;> simp [ih]

theorem decimal_ne_nil (n : Nat) : decimal n ≠ [] := by
  rw [decimal]; split <;> simp

theorem appendDigits_decimal (n : Nat) : appendDigits 0 (decimal n) = some n := by
  induction n using Nat.strongRecOn with
  | ind n ih =>
    rw [decimal]
    split
    · rename_i h
      simp [appendDigits, digitValue?_digitChar n h]
    · rename_i h
      rw [appendDigits_append, ih (n / 10) (by omega)]
      simp only [Option.bind_some, appendDigits, digitValue?_digitChar (n % 10) (by omega)]
      congr 1; omega

theorem decimalValue?_decimal (n : Nat) : decimalValue? (decimal n) = some n := by
  match h : decimal n with
  | [] => exact absurd h (decimal_ne_nil n)
  | c :: rest => rw [decimalValue?, ← h, appendDigits_decimal]

theorem isDigit_digitChar (n : Nat) : isDigit (digitChar n) = true := by
  have hd : digitChar n = digitChar (n % 10) := by simp [digitChar]
  rw [isDigit, hd, digitValue?_digitChar _ (by omega)]
  rfl

theorem isDigit_of_mem_decimal {n : Nat} {c : Char} (h : c ∈ decimal n) : isDigit c = true := by
  induction n using Nat.strongRecOn with
  | ind n ih =>
    rw [decimal] at h
    split at h
    · obtain rfl := List.mem_singleton.mp h
      exact isDigit_digitChar n
    · rcases List.mem_append.mp h with h | h
      · exact ih (n / 10) (by omega) h
      · obtain rfl := List.mem_singleton.mp h
        exact isDigit_digitChar _

end StackKeeper.Text
