import StackKeeper.Json.Printer
import StackKeeper.Json.Reader
/-!
# A JSON value reads back from its text

Every value that is made of words, integers, strings, arrays and objects is read back from its
pretty form and from its compact one, whatever its strings hold. The two differ in their blanks alone,
so the reader is run on any text that spells the value with blanks between its tokens. Numbers that keep
a literal and unreadable values are left out: the operator never writes either.

Results:
* `string?_flatMap_charText`, `number?_integerText`: the reader undoes the writer on strings and integers.
* `readsBack`: it reads a value from every text that spells it.
* `ofText?_pretty`, `ofText?_compact`: both writers spell the value.
-/
namespace StackKeeper.Json
open StackKeeper.Text

/-! ## Strings -/

theorem hexValue?_hexDigit : ∀ n, n < 16 → hexValue? (hexDigit n) = some n := by decide

theorem hexUnit?_control {n : Nat} (h : n < 0x20) :
    hexUnit? '0' '0' (hexDigit (n / 16)) (hexDigit (n % 16)) = some n := by
  have hzero : hexValue? '0' = some 0 := rfl
  simp only [hexUnit?, hzero, hexValue?_hexDigit (n / 16) (by omega),
    hexValue?_hexDigit (n % 16) (by omega), Option.bind_eq_bind, Option.bind_some]
  congr 1
  omega

/-- The pieces as which a written character may be read. -/
def IsPieceOf (c : Char) (p : Piece) : Prop := p = .char c ∨ (p = .unit c.toNat ∧ c.toNat < 0x20)

theorem assemble?_cons {c : Char} {p : Piece} (hp : IsPieceOf c p) (ps : List Piece) :
    assemble? (p :: ps) = (assemble? ps).map (c :: ·) := by
  rcases hp with rfl | ⟨rfl, hc⟩
  · rw [assemble?]
  · -- No control character is half of a surrogate pair.
    have hhigh : ¬ 0xD800 ≤ c.toNat := by omega
    cases ps with
    | nil => simp [assemble?, hhigh, Char.ofNat_toNat]
    | cons q ps => cases q <;> simp [assemble?, hhigh, Char.ofNat_toNat]

theorem pieces?_charText (c : Char) {s tail : List Char} {ps : List Piece}
    (h : pieces? s = some (ps, tail)) :
    ∃ p, IsPieceOf c p ∧ pieces? (charText c ++ s) = some (p :: ps, tail) := by
  unfold charText
  by_cases hq : c = '"'
  · subst hq
    exact ⟨.char '"', .inl rfl, by simp [pieces?, escape?, h]⟩
  by_cases hb : c = '\\'
  · subst hb
    exact ⟨.char '\\', .inl rfl, by simp [pieces?, escape?, h]⟩
  simp only [hq, hb, if_false]
  by_cases hc : c.toNat < 0x20
  · simp only [hc, if_true]
    split
    · rename_i hn
      obtain rfl : c = '\x08' := Char.toNat_inj.mp hn
      exact ⟨.char '\x08', .inl rfl, by simp [pieces?, escape?, h]⟩
    · rename_i hn
      obtain rfl : c = '\t' := Char.toNat_inj.mp hn
      exact ⟨.char '\t', .inl rfl, by simp [pieces?, escape?, h]⟩
    · rename_i hn
      obtain rfl : c = '\n' := Char.toNat_inj.mp hn
      exact ⟨.char '\n', .inl rfl, by simp [pieces?, escape?, h]⟩
    · rename_i hn
      obtain rfl : c = '\x0C' := Char.toNat_inj.mp hn
      exact ⟨.char '\x0C', .inl rfl, by simp [pieces?, escape?, h]⟩
    · rename_i hn
      obtain rfl : c = '\r' := Char.toNat_inj.mp hn
      exact ⟨.char '\r', .inl rfl, by simp [pieces?, escape?, h]⟩
    · exact ⟨.unit c.toNat, .inr ⟨rfl, hc⟩, by simp [pieces?, hexUnit?_control hc, h]⟩
  · refine ⟨.char c, .inl rfl, ?_⟩
    simp only [hc, if_false, List.cons_append, List.nil_append]
    rw [pieces?.eq_5 _ _ (by simp [hq]) (by simp [hb]) (by simp [hb])]
    simp [hb, hc, h]

theorem pieces?_flatMap_charText (s rest : List Char) :
    ∃ ps, pieces? (s.flatMap charText ++ '"' :: rest) = some (ps, rest) ∧
      assemble? ps = some s := by
  induction s with
  | nil => exact ⟨[], by simp [pieces?], rfl⟩
  | cons c s ih =>
    obtain ⟨ps, hps, hs⟩ := ih
    obtain ⟨p, hp, hpieces⟩ := pieces?_charText c hps
    refine ⟨p :: ps, ?_, ?_⟩
    · rw [List.flatMap_cons, List.append_assoc, hpieces]
    · rw [assemble?_cons hp, hs, Option.map_some]

/-- The reader of a string starts behind its opening quote. -/
theorem string?_flatMap_charText (s : String) (rest : List Char) :
    string? (s.toList.flatMap charText ++ '"' :: rest) = some (some s, rest) := by
  obtain ⟨ps, hps, hs⟩ := pieces?_flatMap_charText s.toList rest
  simp [string?, hps, hs]

/-! ## Numbers -/

/-- The characters that may follow a value. -/
def enders : List Char := [' ', '\n', '\t', '\r', ',', ']', '\x7d']

/-- What may follow a value in a text: nothing, a blank, or the mark behind an item or a field. -/
def Ends (rest : List Char) : Prop := ∀ c ∈ rest.head?, c ∈ enders

theorem digitChar_ne_zero : ∀ n, n < 10 → 0 < n → digitChar n ≠ '0' := by decide

/-- Only zero is written with a leading zero. -/
theorem decimal_ne_zero_cons {n : Nat} {c : Char} {rest : List Char} :
    decimal n ≠ '0' :: c :: rest := by
  induction n using Nat.strongRecOn generalizing c rest with
  | ind n ih =>
    rw [decimal]
    split
    · simp
    · rename_i hn
      intro h
      cases hd : decimal (n / 10) with
      | nil => exact decimal_ne_nil _ hd
      | cons d tail =>
        rw [hd, List.cons_append, List.cons.injEq] at h
        obtain ⟨rfl, -⟩ := h
        cases tail with
        | cons e tail => exact ih (n / 10) (by omega) hd
        | nil =>
          -- One digit is left, and it is that of a positive number.
          rw [decimal] at hd
          split at hd
          · rename_i hlt
            exact digitChar_ne_zero _ hlt (by omega) (List.cons.inj hd).1
          · have hne := decimal_ne_nil (n / 10 / 10)
            cases h' : decimal (n / 10 / 10) with
            | nil => exact hne h'
            | cons a l => simp [h'] at hd

theorem not_isDigit_of_ends {rest : List Char} (h : Ends rest) :
    ∀ c ∈ rest.head?, isDigit c = false := by
  have hall : ∀ c ∈ enders, isDigit c = false := by simp [enders, isDigit, digitValue?]
  exact fun c hc => hall c (h c hc)

theorem spanDigits_append {digits rest : List Char} (hd : ∀ c ∈ digits, isDigit c = true)
    (hr : ∀ c ∈ rest.head?, isDigit c = false) : spanDigits (digits ++ rest) = (digits, rest) := by
  have htake : rest.takeWhile isDigit = [] := by
    cases rest with
    | nil => rfl
    | cons c rest => simp [hr c rfl]
  have hdrop : rest.dropWhile isDigit = rest := by
    cases rest with
    | nil => rfl
    | cons c rest => simp [hr c rfl]
  rw [spanDigits, List.takeWhile_append_of_pos hd, List.dropWhile_append_of_pos hd, htake, hdrop,
    List.append_nil]

theorem wholePart?_decimal (n : Nat) {rest : List Char} (h : Ends rest) :
    wholePart? (decimal n ++ rest) = some (decimal n, rest) := by
  rw [wholePart?, spanDigits_append (fun _ => isDigit_of_mem_decimal) (not_isDigit_of_ends h)]
  split
  · rename_i he
    exact absurd (Prod.mk.inj he).1 (decimal_ne_nil n)
  · rename_i he
    exact absurd (Prod.mk.inj he).1 decimal_ne_zero_cons
  · rfl

theorem fractionPart?_of_ends {rest : List Char} (h : Ends rest) :
    fractionPart? rest = some ([], rest) := by
  unfold fractionPart?
  split
  · exact absurd (h '.' rfl) (by decide)
  · rfl

theorem exponentPart?_of_ends {rest : List Char} (h : Ends rest) :
    exponentPart? rest = some ([], rest) := by
  unfold exponentPart?
  split
  · rename_i c rest
    have hall : ∀ c ∈ enders, ¬ (c = 'e' ∨ c = 'E') := by simp [enders]
    rw [if_neg (hall c (h c rfl))]
  · rfl

theorem unsigned?_decimal (negative : Bool) (n : Nat) (hn : negative = true → n ≠ 0)
    {rest : List Char} (h : Ends rest) :
    unsigned? negative (decimal n ++ rest) =
      some (.int (if negative then -(n : Int) else n), rest) := by
  have hz : ¬ (negative = true ∧ n = 0) := fun hx => hn hx.1 hx.2
  simp [unsigned?, wholePart?_decimal n h, fractionPart?_of_ends h, exponentPart?_of_ends h,
    decimalValue?_decimal, hz]

theorem number?_integerText (n : Int) {rest : List Char} (h : Ends rest) :
    number? ((integerText n).toList ++ rest) = some (.int n, rest) := by
  cases n with
  | ofNat n =>
    simp only [integerText, decimalText, String.toList_ofList]
    cases hd : decimal n with
    | nil => exact absurd hd (decimal_ne_nil n)
    | cons c digits =>
      have hc : isDigit c = true := isDigit_of_mem_decimal (n := n) (by rw [hd]; simp)
      have hneg : c ≠ '-' := by
        rintro rfl
        simp [isDigit, digitValue?] at hc
      unfold number?
      split
      · rename_i he
        exact absurd (List.cons.inj he).1 hneg
      · rw [← hd, unsigned?_decimal false n (by simp) h]
        rfl
  | negSucc n =>
    simp only [integerText, String.toList_ofList, List.cons_append, number?]
    rw [unsigned?_decimal true (n + 1) (by simp) h]
    rfl

/-! ## Blanks -/

def IsBlank (s : List Char) : Prop := ∀ c ∈ s, isSpace c = true

theorem isBlank_nil : IsBlank [] := fun _ h => nomatch h

theorem isBlank_blank : IsBlank [' '] := by
  intro c hc
  rw [List.mem_singleton.mp hc]
  rfl

theorem isBlank_newline (level : Nat) : IsBlank (newline level) := by
  intro c hc
  rcases List.mem_cons.mp hc with rfl | hc
  · rfl
  · rw [List.eq_of_mem_replicate hc]
    rfl

theorem skipSpace_append {b : List Char} (h : IsBlank b) (s : List Char) :
    skipSpace (b ++ s) = skipSpace s := List.dropWhile_append_of_pos h

theorem skipSpace_cons {c : Char} (h : isSpace c = false) (s : List Char) :
    skipSpace (c :: s) = c :: s := by
  rw [skipSpace, List.dropWhile_cons_of_neg (by simp [h])]

theorem value?_append {b : List Char} (h : IsBlank b) (fuel : Nat) (s : List Char) :
    value? fuel (b ++ s) = value? fuel s := by
  cases fuel with
  | zero => rfl
  | succ fuel => rw [value?, value?, skipSpace_append h]

/-- Blanks may stand before whatever may follow a value. -/
theorem ends_append {b rest : List Char} (hb : IsBlank b) (h : Ends rest) : Ends (b ++ rest) := by
  cases b with
  | nil => exact h
  | cons c b =>
    intro d hd
    obtain rfl : c = d := by simpa using hd
    have hc := hb c List.mem_cons_self
    simp only [isSpace, Bool.or_eq_true, beq_iff_eq] at hc
    rcases hc with ((rfl | rfl) | rfl) | rfl <;> decide

/-! ## Texts of a value -/

mutual

/-- A text that spells the value; between tokens there may be blanks. -/
inductive Spells : Json → List Char → Prop
  | null : Spells .null (scalarText .null)
  | bool (b : Bool) : Spells (.bool b) (scalarText (.bool b))
  | int (n : Int) : Spells (.int n) (scalarText (.int n))
  | str (s : String) : Spells (.str s) (scalarText (.str s))
  | noItems : Spells (.arr []) ['[', ']']
  | items (l : List Json) (s : List Char) (hl : SpellsItems l s) : Spells (.arr l) ('[' :: s)
  | noFields : Spells (.obj []) ['\x7b', '\x7d']
  | fields (l : List (String × Json)) (s : List Char) (hl : SpellsFields l s) :
    Spells (.obj l) ('\x7b' :: s)

/-- One or more items with the closing bracket. -/
inductive SpellsItems : List Json → List Char → Prop
  | last (j : Json) (before s after : List Char) (hb : IsBlank before) (hs : Spells j s)
    (ha : IsBlank after) : SpellsItems [j] (before ++ s ++ after ++ [']'])
  | cons (j : Json) (l : List Json) (before s rest : List Char) (hb : IsBlank before)
    (hs : Spells j s) (hl : SpellsItems l rest) :
    SpellsItems (j :: l) (before ++ s ++ ',' :: rest)

/-- One or more fields with the closing bracket. -/
inductive SpellsFields : List (String × Json) → List Char → Prop
  | last (k : String) (j : Json) (before between s after : List Char) (hb : IsBlank before)
    (hm : IsBlank between) (hs : Spells j s) (ha : IsBlank after) :
    SpellsFields [(k, j)] (before ++ stringText k ++ ':' :: between ++ s ++ after ++ ['\x7d'])
  | cons (k : String) (j : Json) (l : List (String × Json)) (before between s rest : List Char)
    (hb : IsBlank before) (hm : IsBlank between) (hs : Spells j s) (hl : SpellsFields l rest) :
    SpellsFields ((k, j) :: l) (before ++ stringText k ++ ':' :: between ++ s ++ ',' :: rest)

end

/-- A character that may open the text of a value. -/
def Opens (c : Char) : Prop := isSpace c = false ∧ c ≠ ']' ∧ c ≠ '\x7d'

instance (c : Char) : Decidable (Opens c) :=
  inferInstanceAs (Decidable (isSpace c = false ∧ c ≠ ']' ∧ c ≠ '\x7d'))

theorem opens_of_isDigit {c : Char} (h : isDigit c = true) : Opens c := by
  refine ⟨?_, ?_, ?_⟩
  · cases hs : isSpace c with
    | false => rfl
    | true =>
      simp only [isSpace, Bool.or_eq_true, beq_iff_eq] at hs
      rcases hs with ((rfl | rfl) | rfl) | rfl <;> simp [isDigit, digitValue?] at h
  · rintro rfl
    simp [isDigit, digitValue?] at h
  · rintro rfl
    simp [isDigit, digitValue?] at h

theorem value?_eq_number? {c : Char} (s : List Char) (fuel : Nat) (hc : isDigit c = true ∨ c = '-') :
    value? (fuel + 1) (c :: s) = number? (c :: s) := by
  have hne : ∀ d, isDigit d = false → d ≠ '-' → c ≠ d := by
    rintro d hd hm rfl
    rcases hc with h | h
    · simp [h] at hd
    · exact hm h
  have hspace : isSpace c = false := by
    rcases hc with h | rfl
    · exact (opens_of_isDigit h).1
    · rfl
  rw [value?, skipSpace_cons hspace]
  split
  · rename_i h
    exact absurd (List.cons.inj h).1 (hne _ rfl (by decide))
  · rename_i h
    exact absurd (List.cons.inj h).1 (hne _ rfl (by decide))
  · rename_i h
    exact absurd (List.cons.inj h).1 (hne _ rfl (by decide))
  · rename_i h
    exact absurd (List.cons.inj h).1 (hne _ rfl (by decide))
  · rename_i h
    exact absurd (List.cons.inj h).1 (hne _ rfl (by decide))
  · rename_i h
    exact absurd (List.cons.inj h).1 (hne _ rfl (by decide))
  · rfl

theorem integerText_head (n : Int) :
    ∃ c tail, (integerText n).toList = c :: tail ∧ (isDigit c = true ∨ c = '-') := by
  cases n with
  | negSucc n => exact ⟨'-', decimal (n + 1), by simp [integerText], .inr rfl⟩
  | ofNat n =>
    cases hd : decimal n with
    | nil => exact absurd hd (decimal_ne_nil n)
    | cons c tail =>
      have hc : isDigit c = true := isDigit_of_mem_decimal (n := n) (by rw [hd]; simp)
      exact ⟨c, tail, by simp [integerText, decimalText, hd], .inl hc⟩

theorem value?_integerText (n : Int) (fuel : Nat) {rest : List Char} (h : Ends rest) :
    value? (fuel + 1) ((integerText n).toList ++ rest) = some (.int n, rest) := by
  obtain ⟨c, tail, hn, hc⟩ := integerText_head n
  have := number?_integerText n h
  rw [hn, List.cons_append] at this ⊢
  rw [value?_eq_number? _ _ hc, this]

theorem Spells.opens {j : Json} {s : List Char} (h : Spells j s) :
    ∃ c tail, s = c :: tail ∧ Opens c := by
  cases h with
  | null => exact ⟨'n', "ull".toList, by simp [scalarText], by decide⟩
  | bool b =>
    cases b
    · exact ⟨'f', "alse".toList, by simp [scalarText], by decide⟩
    · exact ⟨'t', "rue".toList, by simp [scalarText], by decide⟩
  | int n =>
    obtain ⟨c, tail, hn, hc | rfl⟩ := integerText_head n
    · exact ⟨c, tail, hn, opens_of_isDigit hc⟩
    · exact ⟨'-', tail, hn, by decide⟩
  | str s => exact ⟨'"', _, rfl, by decide⟩
  | noItems | items => exact ⟨'[', _, rfl, by decide⟩
  | noFields | fields => exact ⟨'\x7b', _, rfl, by decide⟩

theorem ofFields_some (fields : List (String × Json)) :
    ofFields (fields.map fun f => (some f.1, f.2)) = .obj fields := by
  have h : (fields.map fun f => (some f.1, f.2)).mapM
      (fun f : Option String × Json => f.1.map fun k => (k, f.2)) = some fields := by
    induction fields with
    | nil => rfl
    | cons f fields ih => simp [List.mapM_cons, ih]
  rw [ofFields, h]

/-- What the readers make of texts that spell something when they may make so many calls. -/
structure ReadsBack (fuel : Nat) : Prop where
  value : ∀ {j : Json} {s : List Char} (rest : List Char), Spells j s → s.length ≤ fuel →
    Ends rest → value? fuel (s ++ rest) = some (j, rest)
  items : ∀ {l : List Json} {s : List Char} (rest : List Char), SpellsItems l s →
    s.length ≤ fuel → items? fuel (s ++ rest) = some (l, rest)
  fields : ∀ {l : List (String × Json)} {s : List Char} (rest : List Char), SpellsFields l s →
    s.length ≤ fuel → fields? fuel (s ++ rest) = some (l.map fun f => (some f.1, f.2), rest)

theorem readsBack_items {fuel : Nat} (ih : ReadsBack fuel) {l : List Json} {s : List Char}
    (rest : List Char) (hl : SpellsItems l s) (hfuel : s.length ≤ fuel + 1) :
    items? (fuel + 1) (s ++ rest) = some (l, rest) := by
  cases hl with
  | last j before s after hb hs ha =>
    simp only [List.length_append, List.length_cons] at hfuel
    have hv := ih.value (after ++ ([']'] ++ rest)) hs (by omega)
      (ends_append ha (by simp [Ends, enders]))
    simp only [items?, List.append_assoc, value?_append hb, hv, Option.bind_eq_bind,
      Option.bind_some, skipSpace_append ha]
    rfl
  | cons j l before s tail hb hs hl =>
    simp only [List.length_append, List.length_cons] at hfuel
    have hv := ih.value (',' :: (tail ++ rest)) hs (by omega) (by simp [Ends, enders])
    have hi := ih.items rest hl (by omega)
    simp only [items?, List.append_assoc, List.cons_append, value?_append hb, hv,
      Option.bind_eq_bind, Option.bind_some, skipSpace_cons (show isSpace ',' = false by rfl), hi]

theorem readsBack_fields {fuel : Nat} (ih : ReadsBack fuel) {l : List (String × Json)}
    {s : List Char} (rest : List Char) (hl : SpellsFields l s) (hfuel : s.length ≤ fuel + 1) :
    fields? (fuel + 1) (s ++ rest) = some (l.map fun f => (some f.1, f.2), rest) := by
  have hquote : isSpace '"' = false := rfl
  have hcolon : isSpace ':' = false := rfl
  have hcomma : isSpace ',' = false := rfl
  cases hl with
  | last k j before between s after hb hm hs ha =>
    simp only [List.length_append, List.length_cons] at hfuel
    have hv := ih.value (after ++ '\x7d' :: rest) hs (by omega)
      (ends_append ha (by simp [Ends, enders]))
    simp only [fields?, stringText, List.append_assoc, List.cons_append, List.nil_append,
      skipSpace_append hb, skipSpace_cons hquote, skipSpace_cons hcolon, string?_flatMap_charText,
      value?_append hm, hv, Option.bind_eq_bind, Option.bind_some, skipSpace_append ha]
    rfl
  | cons k j l before between s tail hb hm hs hl =>
    simp only [List.length_append, List.length_cons] at hfuel
    have hv := ih.value (',' :: (tail ++ rest)) hs (by omega) (by simp [Ends, enders])
    have hi := ih.fields rest hl (by omega)
    simp only [fields?, stringText, List.append_assoc, List.cons_append, List.nil_append,
      skipSpace_append hb, skipSpace_cons hquote, skipSpace_cons hcolon, skipSpace_cons hcomma,
      string?_flatMap_charText, value?_append hm, hv, hi, Option.bind_eq_bind, Option.bind_some]
    rfl

/-- The first item does not start with the closing bracket. -/
theorem SpellsItems.opens {l : List Json} {s : List Char} (h : SpellsItems l s)
    (rest : List Char) : ∃ c tail, skipSpace (s ++ rest) = c :: tail ∧ Opens c := by
  cases h with
  | last j before s after hb hs _ | cons j l before s after hb hs _ =>
    obtain ⟨c, tail, rfl, hopen⟩ := hs.opens
    simp only [List.append_assoc, skipSpace_append hb, List.cons_append, skipSpace_cons hopen.1]
    exact ⟨_, _, rfl, hopen⟩

theorem SpellsFields.opens {l : List (String × Json)} {s : List Char} (h : SpellsFields l s)
    (rest : List Char) : ∃ tail, skipSpace (s ++ rest) = '"' :: tail := by
  have hquote : isSpace '"' = false := rfl
  cases h with
  | last k j before between s after hb _ _ _ | cons k j l before between s after hb _ _ _ =>
    simp only [List.append_assoc, skipSpace_append hb, stringText, List.cons_append,
      skipSpace_cons hquote]
    exact ⟨_, rfl⟩

theorem readsBack_value {fuel : Nat} (ih : ReadsBack fuel) {j : Json} {s : List Char}
    (rest : List Char) (hs : Spells j s) (hfuel : s.length ≤ fuel + 1) (hr : Ends rest) :
    value? (fuel + 1) (s ++ rest) = some (j, rest) := by
  cases hs with
  | null => simp [scalarText, value?, skipSpace, isSpace, afterWord?]
  | bool b => cases b <;> simp [scalarText, value?, skipSpace, isSpace, afterWord?]
  | int n => exact value?_integerText n fuel hr
  | str s =>
    simp only [scalarText, stringText, List.cons_append, List.append_assoc,
      List.nil_append, value?, skipSpace_cons (show isSpace '"' = false by rfl),
      string?_flatMap_charText, Option.bind_eq_bind, Option.bind_some]
    rfl
  | noItems => simp [value?, skipSpace, isSpace]
  | items l s hl =>
    have hi := ih.items rest hl (by simpa using hfuel)
    obtain ⟨c, tail, htail, hopen⟩ := hl.opens rest
    simp only [List.cons_append, value?, skipSpace_cons (show isSpace '[' = false by rfl), htail, hi]
    split
    · rename_i heq
      exact absurd (List.cons.inj heq).1 hopen.2.1
    · rfl
  | noFields => simp [value?, skipSpace, isSpace]
  | fields l s hl =>
    have hi := ih.fields rest hl (by simpa using hfuel)
    obtain ⟨tail, htail⟩ := hl.opens rest
    simp only [List.cons_append, value?, skipSpace_cons (show isSpace '\x7b' = false by rfl), htail,
      hi, Option.bind_eq_bind, Option.bind_some, ofFields_some]
    rfl

theorem readsBack (fuel : Nat) : ReadsBack fuel := by
  induction fuel with
  | zero =>
    refine ⟨fun rest hs hfuel _ => ?_, fun rest hl hfuel => ?_, fun rest hl hfuel => ?_⟩
    · obtain ⟨c, tail, rfl, -⟩ := hs.opens
      simp at hfuel
    · cases hl <;> simp at hfuel
    · cases hl <;> simp at hfuel
  | succ fuel ih =>
    exact ⟨readsBack_value ih, readsBack_items ih, readsBack_fields ih⟩

theorem ofText?_of_spells {j : Json} {s : List Char} (hs : Spells j s) :
    ofText? (String.ofList s) = some j := by
  have h := (readsBack (s.length + 1)).value [] hs (Nat.le_succ _) (fun _ h => nomatch h)
  rw [List.append_nil] at h
  simp [ofText?, ofChars?, h]

/-! ## What the writers write -/

mutual

/-- Whether a value is made of words, integers, strings, arrays and objects. -/
def IsPlain : Json → Prop
  | .real _ | .unreadable => False
  | .arr items => ArePlain items
  | .obj fields => HasPlainFields fields
  | _ => True

def ArePlain : List Json → Prop
  | [] => True
  | j :: rest => IsPlain j ∧ ArePlain rest

/-- Whether the values of all fields are plain. -/
def HasPlainFields : List (String × Json) → Prop
  | [] => True
  | f :: rest => IsPlain f.2 ∧ HasPlainFields rest

end

mutual

theorem spells_prettyChars (level : Nat) (j : Json) (h : j.IsPlain) :
    Spells j (prettyChars level j) := by
  match j, h with
  | .null, _ => simpa only [prettyChars] using Spells.null
  | .bool b, _ => simpa only [prettyChars] using Spells.bool b
  | .int n, _ => simpa only [prettyChars] using Spells.int n
  | .str s, _ => simpa only [prettyChars] using Spells.str s
  | .arr [], _ => simpa only [prettyChars] using Spells.noItems
  | .arr (j :: l), h =>
    simpa only [prettyChars] using Spells.items _ _ (spells_prettyItems level (j :: l) h (by simp))
  | .obj [], _ => simpa only [prettyChars] using Spells.noFields
  | .obj (f :: l), h =>
    simpa only [prettyChars] using Spells.fields _ _ (spells_prettyFields level (f :: l) h (by simp))

theorem spells_prettyItems (level : Nat) (l : List Json) (h : ArePlain l) (hne : l ≠ []) :
    SpellsItems l (prettyItems level l) := by
  match l, h, hne with
  | [j], h, _ =>
    simpa only [prettyItems, List.append_assoc] using SpellsItems.last _ _ _ _ (isBlank_newline _)
      (spells_prettyChars (level + 1) j h.1) (isBlank_newline _)
  | j :: k :: l, h, _ =>
    simpa only [prettyItems] using SpellsItems.cons _ _ _ _ _ (isBlank_newline _)
      (spells_prettyChars (level + 1) j h.1) (spells_prettyItems level (k :: l) h.2 (by simp))

theorem spells_prettyFields (level : Nat) (l : List (String × Json)) (h : HasPlainFields l)
    (hne : l ≠ []) : SpellsFields l (prettyFields level l) := by
  match l, h, hne with
  | [(k, j)], h, _ =>
    have hf := SpellsFields.last k _ _ _ _ _ (isBlank_newline (level + 1)) isBlank_blank
      (spells_prettyChars (level + 1) j h.1) (isBlank_newline level)
    simpa only [prettyFields, List.append_assoc, List.cons_append, List.nil_append] using hf
  | (k, j) :: f :: l, h, _ =>
    have hf := SpellsFields.cons k _ _ _ _ _ _ (isBlank_newline (level + 1)) isBlank_blank
      (spells_prettyChars (level + 1) j h.1) (spells_prettyFields level (f :: l) h.2 (by simp))
    simpa only [prettyFields, List.append_assoc, List.cons_append, List.nil_append] using hf

end

mutual

theorem spells_compactChars (j : Json) (h : j.IsPlain) : Spells j (compactChars j) := by
  match j, h with
  | .null, _ => simpa only [compactChars] using Spells.null
  | .bool b, _ => simpa only [compactChars] using Spells.bool b
  | .int n, _ => simpa only [compactChars] using Spells.int n
  | .str s, _ => simpa only [compactChars] using Spells.str s
  | .arr [], _ => simpa only [compactChars, compactItems] using Spells.noItems
  | .arr (j :: l), h =>
    simpa only [compactChars] using Spells.items _ _ (spells_compactItems (j :: l) h (by simp))
  | .obj [], _ => simpa only [compactChars, compactFields] using Spells.noFields
  | .obj (f :: l), h =>
    simpa only [compactChars] using Spells.fields _ _ (spells_compactFields (f :: l) h (by simp))

theorem spells_compactItems (l : List Json) (h : ArePlain l) (hne : l ≠ []) :
    SpellsItems l (compactItems l) := by
  match l, h, hne with
  | [j], h, _ =>
    simpa only [compactItems, List.append_nil, List.nil_append] using
      SpellsItems.last _ _ _ _ isBlank_nil (spells_compactChars j h.1) isBlank_nil
  | j :: k :: l, h, _ =>
    simpa only [compactItems, List.nil_append] using SpellsItems.cons _ _ _ _ _ isBlank_nil
      (spells_compactChars j h.1) (spells_compactItems (k :: l) h.2 (by simp))

theorem spells_compactFields (l : List (String × Json)) (h : HasPlainFields l) (hne : l ≠ []) :
    SpellsFields l (compactFields l) := by
  match l, h, hne with
  | [(k, j)], h, _ =>
    have hf := SpellsFields.last k _ _ _ _ _ isBlank_nil isBlank_nil (spells_compactChars j h.1)
      isBlank_nil
    simpa only [compactFields, List.append_assoc, List.cons_append, List.nil_append] using hf
  | (k, j) :: f :: l, h, _ =>
    have hf := SpellsFields.cons k _ _ _ _ _ _ isBlank_nil isBlank_nil (spells_compactChars j h.1)
      (spells_compactFields (f :: l) h.2 (by simp))
    simpa only [compactFields, List.append_assoc, List.cons_append, List.nil_append] using hf

end

theorem ofText?_pretty {j : Json} (hj : j.IsPlain) : ofText? j.pretty = some j :=
  ofText?_of_spells (spells_prettyChars 0 j hj)

theorem ofText?_compact {j : Json} (hj : j.IsPlain) : ofText? j.compact = some j :=
  ofText?_of_spells (spells_compactChars j hj)

end StackKeeper.Json
