/-!
# Blank characters

A character is blank if it has the White_Space property of Unicode. Configuration text that is
blank throughout means all defaults, a tag key must not be blank, and surrounding blanks of a
capability are dropped.

Results:
* `isBlank_of_isWhitespace`: the blanks of ASCII are among them.
* `trim_eq_empty_iff`: nothing is left of a text exactly if it is blank.
-/
namespace StackKeeper.Text

/-- Whether the character has the White_Space property. -/
def isBlank (c : Char) : Bool :=
  let n := c.toNat
  (0x09 ≤ n && n ≤ 0x0D) || n == 0x20 || n == 0x85 || n == 0xA0 || n == 0x1680 ||
    (0x2000 ≤ n && n ≤ 0x200A) || n == 0x2028 || n == 0x2029 || n == 0x202F || n == 0x205F ||
    n == 0x3000

theorem isBlank_of_isWhitespace {c : Char} (h : c.isWhitespace = true) : isBlank c = true := by
  simp only [Char.isWhitespace, Bool.or_eq_true, decide_eq_true_eq] at h
  rcases h with ((rfl | rfl) | rfl) | rfl <;> decide

def trimStart (s : List Char) : List Char := s.dropWhile isBlank

def trimEnd (s : List Char) : List Char := (s.reverse.dropWhile isBlank).reverse

def trim (s : String) : String := String.ofList (trimEnd (trimStart s.toList))

def isBlankText (s : String) : Bool := s.toList.all isBlank

theorem dropWhile_isBlank_eq_nil_iff {s : List Char} :
    s.dropWhile isBlank = [] ↔ s.all isBlank = true := by
  induction s with
  | nil => simp
  | cons c s ih => cases h : isBlank c <;> simp_all

theorem trim_eq_empty_iff {s : String} : trim s = "" ↔ isBlankText s = true := by
  have hof : ∀ l : List Char, String.ofList l = "" ↔ l = [] := fun l =>
    ⟨fun h => by simpa using congrArg String.toList h, fun h => by subst h; rfl⟩
  rw [trim, hof, trimEnd, List.reverse_eq_nil_iff, dropWhile_isBlank_eq_nil_iff, List.all_reverse,
    trimStart, isBlankText]
  constructor
  · intro h
    rw [← List.takeWhile_append_dropWhile (p := isBlank) (l := s.toList), List.all_append, h,
      Bool.and_true, List.all_takeWhile]
  · intro h
    rw [dropWhile_isBlank_eq_nil_iff.mpr h, List.all_nil]

end StackKeeper.Text
