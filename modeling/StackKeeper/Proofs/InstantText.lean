import Mathlib.Algebra.Group.Nat.Defs
import StackKeeper.Instant.Printer
import StackKeeper.Instant.Reader
/-!
# An instant reads back from its written form

The written form has a fixed width in every field but the year and the fraction, so a reader that
takes the longest run of digits up to a limit finds the ends of the fields.

Results:
* `number?_decimalFixed`, `number?_decimalPadded`: a written number reads back.
* `ofText?_text`: so does a whole instant, leap seconds and years with a sign included.
-/
namespace StackKeeper.Instant
open StackKeeper.Text

/-! ## Digits -/

def AreDigits (s : List Char) : Prop := ∀ c ∈ s, isDigit c = true

/-- Whether the text does not go on with a digit. -/
def NoDigit (s : List Char) : Prop := ∀ c ∈ s.head?, isDigit c = false

theorem areDigits_decimalFixed (width n : Nat) : AreDigits (decimalFixed width n) := by
  induction width generalizing n with
  | zero =>
    intro c hc
    cases hc
  | succ width ih =>
    intro c hc
    rcases List.mem_append.mp hc with hc | hc
    · exact ih (n / 10) c hc
    · obtain rfl := List.mem_singleton.mp hc
      exact isDigit_digitChar _

theorem length_decimalFixed (width n : Nat) : (decimalFixed width n).length = width := by
  induction width generalizing n with
  | zero => rfl
  | succ width ih => simp [decimalFixed, ih]

theorem appendDigits_decimalFixed (width n acc : Nat) :
    appendDigits acc (decimalFixed width n) = some (acc * 10 ^ width + n % 10 ^ width) := by
  induction width generalizing n with
  | zero => simp [decimalFixed, appendDigits, Nat.mod_one]
  | succ width ih =>
    have hd : digitChar (n % 10) = digitChar (n % 10 % 10) := by simp [digitChar]
    rw [decimalFixed, appendDigits_append, ih, Option.bind_some, appendDigits, hd,
      digitValue?_digitChar _ (by omega)]
    have hmod : n % 10 ^ (width + 1) = n / 10 % 10 ^ width * 10 + n % 10 := by
      rw [Nat.pow_succ, Nat.mul_comm (10 ^ width), Nat.mod_mul, Nat.mul_comm]
      omega
    simp only [appendDigits]
    rw [hmod, Nat.pow_succ, Nat.mod_mod, Nat.add_mul, Nat.mul_assoc, Nat.add_assoc]

theorem decimalValue?_eq_appendDigits {s : List Char} (h : s ≠ []) :
    decimalValue? s = appendDigits 0 s := by
  cases s with
  | nil => exact absurd rfl h
  | cons c s => rfl

theorem decimalValue?_decimalFixed {width n : Nat} (hw : 0 < width) (hn : n < 10 ^ width) :
    decimalValue? (decimalFixed width n) = some n := by
  have hne : decimalFixed width n ≠ [] := by
    intro h
    have := length_decimalFixed width n
    simp [h] at this
    omega
  rw [decimalValue?_eq_appendDigits hne, appendDigits_decimalFixed, Nat.mod_eq_of_lt hn]
  simp

theorem appendDigits_zeros (k : Nat) (s : List Char) :
    appendDigits 0 (List.replicate k '0' ++ s) = appendDigits 0 s := by
  induction k with
  | zero => rfl
  | succ k ih =>
    rw [List.replicate_succ, List.cons_append, appendDigits]
    simpa [show digitValue? '0' = some 0 from rfl] using ih

theorem areDigits_decimalPadded (width n : Nat) : AreDigits (decimalPadded width n) := by
  intro c hc
  rcases List.mem_append.mp hc with hc | hc
  · obtain rfl := List.eq_of_mem_replicate hc
    rfl
  · exact isDigit_of_mem_decimal hc

theorem decimalValue?_decimalPadded (width n : Nat) :
    decimalValue? (decimalPadded width n) = some n := by
  have hne : decimalPadded width n ≠ [] := by simp [decimalPadded, decimal_ne_nil]
  rw [decimalValue?_eq_appendDigits hne, decimalPadded, appendDigits_zeros, appendDigits_decimal]

/-- The run of digits ends at the limit or where the digits end. -/
theorem digitRun_append {digits rest : List Char} {limit : Nat} (hd : AreDigits digits)
    (hl : digits.length ≤ limit) (hr : digits.length = limit ∨ NoDigit rest) :
    digitRun limit (digits ++ rest) = (digits, rest) := by
  induction digits generalizing limit with
  | nil =>
    cases limit with
    | zero => simp [digitRun]
    | succ limit =>
      cases rest with
      | nil => simp [digitRun]
      | cons c rest =>
        obtain hr | hr := hr
        · simp at hr
        · simp [digitRun, hr c rfl]
  | cons c digits ih =>
    cases limit with
    | zero => simp at hl
    | succ limit =>
      have hc : isDigit c = true := hd c List.mem_cons_self
      have hrest : digitRun limit (digits ++ rest) = (digits, rest) :=
        ih (fun d hd' => hd d (List.mem_cons_of_mem _ hd')) (by simpa using hl) (by simpa using hr)
      simp [digitRun, hc, hrest]

theorem number?_decimalFixed {width limit n : Nat} {rest : List Char} (hw : 0 < width)
    (hn : n < 10 ^ width) (hl : width ≤ limit) (hr : width = limit ∨ NoDigit rest) :
    number? limit (decimalFixed width n ++ rest) = some (n, rest) := by
  rw [number?, digitRun_append (areDigits_decimalFixed width n)
    (by rwa [length_decimalFixed]) (by rwa [length_decimalFixed])]
  simp [decimalValue?_decimalFixed hw hn]

theorem number?_decimalPadded {width limit n : Nat} {rest : List Char}
    (hl : (decimalPadded width n).length ≤ limit) (hr : NoDigit rest) :
    number? limit (decimalPadded width n ++ rest) = some (n, rest) := by
  rw [number?, digitRun_append (areDigits_decimalPadded width n) hl (.inr hr)]
  simp [decimalValue?_decimalPadded]

/-! ## Fields -/

theorem isBlank_of_isDigit {c : Char} (h : isDigit c = true) : isBlank c = false := by
  simp only [isDigit, digitValue?] at h
  split at h
  · rename_i hc
    have h0 : 48 ≤ c.toNat := hc.1
    have h9 : c.toNat ≤ 57 := hc.2
    simp only [isBlank]
    simp
    omega
  · cases h

theorem skipBlanks_cons {c : Char} (h : isBlank c = false) (s : List Char) :
    skipBlanks (c :: s) = c :: s := by
  rw [skipBlanks, trimStart, List.dropWhile_cons_of_neg (by simp [h])]

theorem skipBlanks_digits {digits : List Char} (hd : AreDigits digits) (hne : digits ≠ [])
    (rest : List Char) : skipBlanks (digits ++ rest) = digits ++ rest := by
  cases digits with
  | nil => exact absurd rfl hne
  | cons c digits => exact skipBlanks_cons (isBlank_of_isDigit (hd c List.mem_cons_self)) _

theorem digits_append_ne_cons {digits rest tail : List Char} {c : Char} (hd : AreDigits digits)
    (hne : digits ≠ []) (hc : isDigit c = false) : digits ++ rest ≠ c :: tail := by
  intro h
  cases digits with
  | nil => exact hne rfl
  | cons d digits =>
    obtain rfl := (List.cons.inj h).1
    rw [hd d List.mem_cons_self] at hc
    cases hc

theorem decimalFixed_ne_nil {width n : Nat} (hw : 0 < width) : decimalFixed width n ≠ [] := by
  intro h
  have := length_decimalFixed width n
  simp [h] at this
  omega

theorem after?_cons {c : Char} (h : isBlank c = false) (s : List Char) :
    after? c (c :: s) = some s := by
  simp [after?, skipBlanks_cons h]

theorem twoDigits?_decimalFixed {n : Nat} (hn : n < 100) (rest : List Char) :
    twoDigits? (decimalFixed 2 n ++ rest) = some (n, rest) := by
  rw [twoDigits?, skipBlanks_digits (areDigits_decimalFixed 2 n) (decimalFixed_ne_nil (by decide)),
    number?_decimalFixed (by decide) hn (by decide) (.inl rfl)]

theorem year?_yearText (year : Int) {rest : List Char} (hr : NoDigit rest) :
    year? (yearText year ++ rest) = some (year, rest) := by
  have hplus : isBlank '+' = false := by decide
  have hminus : isBlank '-' = false := by decide
  unfold yearText
  cases year with
  | negSucc n =>
    simp only [List.cons_append, year?, skipBlanks_cons hminus]
    rw [number?_decimalPadded (by simp) hr]
    rfl
  | ofNat n =>
    simp only
    split
    · rename_i hn
      have hd := areDigits_decimalFixed 4 n
      have hne : decimalFixed 4 n ≠ [] := decimalFixed_ne_nil (by decide)
      rw [year?, skipBlanks_digits hd hne]
      split
      · rename_i heq
        exact absurd heq (digits_append_ne_cons hd hne rfl)
      · rename_i heq
        exact absurd heq (digits_append_ne_cons hd hne rfl)
      · rw [number?_decimalFixed (by decide) (by omega) (by decide) (.inl rfl)]
        rfl
    · simp only [List.cons_append, year?, skipBlanks_cons hplus]
      rw [number?_decimalPadded (by simp) hr]
      rfl

theorem fraction?_decimalFixed {width n : Nat} {rest : List Char} (hw : 0 < width)
    (hn : n < 10 ^ width) (hl : width ≤ 9) (hr : NoDigit rest) :
    fraction? ('.' :: decimalFixed width n ++ rest) = some (n * Nat.pow 10 (9 - width), rest) := by
  have hdrop : rest.dropWhile isDigit = rest := by
    cases rest with
    | nil => rfl
    | cons c rest => simp [hr c rfl]
  simp only [List.cons_append, fraction?]
  rw [digitRun_append (areDigits_decimalFixed width n) (by rwa [length_decimalFixed]) (.inr hr)]
  simp [decimalValue?_decimalFixed hw hn, length_decimalFixed, hdrop]

theorem fraction?_fractionText {nano : Nat} {rest : List Char} (hn : nano < secondNanos)
    (hr : NoDigit rest) (hpoint : ∀ tail, rest ≠ '.' :: tail) :
    fraction? (fractionText nano ++ rest) = some (nano, rest) := by
  unfold fractionText
  split
  · rename_i h0
    subst h0
    unfold fraction?
    split
    · rename_i heq
      exact absurd heq (hpoint _)
    · rfl
  · have hn : nano < 1000000000 := hn
    split
    · have hpow : Nat.pow 10 (9 - 3) = 1000000 := rfl
      rw [fraction?_decimalFixed (by decide) (by omega) (by decide) hr, hpow]
      congr 2
      omega
    · split
      · have hpow : Nat.pow 10 (9 - 6) = 1000 := rfl
        rw [fraction?_decimalFixed (by decide) (by omega) (by decide) hr, hpow]
        congr 2
        omega
      · rw [fraction?_decimalFixed (by decide) (by omega) (by decide) hr]
        simp

/-- What is read of the seconds are the fields they were written from, in a leap second too. -/
theorem secondText_reads {second nano : Nat} (hs : second < 60)
    (hn : nano < secondNanos ∨ (second = 59 ∧ nano < 2 * secondNanos)) (rest : List Char) :
    ∃ s f, twoDigits? (secondText second nano ++ rest) = some (s, fractionText f ++ rest) ∧
      f < secondNanos ∧ secondFields? s f = some (second, nano) := by
  unfold secondText
  split
  · rename_i hlt
    refine ⟨second, nano, ?_, hlt, by simp [secondFields?, hs]⟩
    rw [List.append_assoc, twoDigits?_decimalFixed (by omega)]
  · rename_i hge
    obtain ⟨rfl, hlt⟩ : second = 59 ∧ nano < 2 * secondNanos := hn.resolve_left hge
    have hsum : secondNanos + (nano - secondNanos) = nano := by omega
    refine ⟨60, nano - secondNanos, ?_, by omega, by simp [secondFields?, hsum]⟩
    rw [List.append_assoc, twoDigits?_decimalFixed (by decide)]

/-! ## Instants -/

theorem ofChars?_chars (t : Instant) : ofChars? t.chars = some t := by
  have hday : isCalendarDay t.year t.month t.day = true := t.validDate
  have htime : isTimeOfDay t.hour t.minute t.second t.nano = true := t.validTime
  simp only [isTimeOfDay, Bool.and_eq_true, Bool.or_eq_true, decide_eq_true_eq, beq_iff_eq] at htime
  obtain ⟨⟨⟨hhour, hminute⟩, hsecond⟩, hnano⟩ := htime
  have hdays : daysInMonth t.year t.month ≤ 31 := by
    unfold daysInMonth
    split <;> (try split) <;> omega
  simp only [isCalendarDay, Bool.and_eq_true, decide_eq_true_eq] at hday
  have hyear : ∀ tail, year? (yearText t.year ++ '-' :: tail) = some (t.year, '-' :: tail) :=
    fun tail => year?_yearText t.year (by intro c hc; cases hc; rfl)
  obtain ⟨s, f, hs, hf, hfields⟩ := secondText_reads hsecond hnano ['Z']
  have hfraction : fraction? (fractionText f ++ ['Z']) = some (f, ['Z']) :=
    fraction?_fractionText hf (by intro c hc; cases hc; rfl) (by simp)
  have hzone : zone? (skipBlanks ['Z']) = some (0, []) := by decide
  have hdash : isBlank '-' = false := by decide
  have hcolon : isBlank ':' = false := by decide
  have two : ∀ {n : Nat} (rest : List Char), n < 100 →
      twoDigits? (decimalFixed 2 n ++ rest) = some (n, rest) :=
    fun rest hn => twoDigits?_decimalFixed hn rest
  have hchars : t.chars = yearText t.year ++ '-' :: (decimalFixed 2 t.month ++ '-' ::
      (decimalFixed 2 t.day ++ 'T' :: (decimalFixed 2 t.hour ++ ':' ::
        (decimalFixed 2 t.minute ++ ':' :: (secondText t.second t.nano ++ ['Z']))))) := by
    simp only [chars, List.append_assoc, List.cons_append]
  rw [hchars, ofChars?]
  simp only [Option.bind_eq_bind]
  rw [hyear, Option.bind_some, after?_cons hdash, Option.bind_some, two _ (by omega),
    Option.bind_some]
  rw [after?_cons hdash, Option.bind_some, two _ (by omega), Option.bind_some]
  rw [afterSeparator?, Option.bind_some, two _ (by omega), Option.bind_some]
  rw [after?_cons hcolon, Option.bind_some, two _ (by omega), Option.bind_some]
  rw [after?_cons hcolon, Option.bind_some, hs, Option.bind_some, hfraction, Option.bind_some, hzone,
    Option.bind_some]
  simp only [List.all_nil, if_true]
  rw [hfields, Option.bind_some]
  simp only [hhour, hminute, and_self, if_true, ofLocal?_zero]

theorem ofText?_text (t : Instant) : ofText? t.text = some t := by
  rw [ofText?, text, String.toList_ofList, ofChars?_chars]

end StackKeeper.Instant
