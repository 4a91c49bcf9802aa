/-!
# Characters with their positions

Where a YAML text breaks its lines and how far a line is indented decides what it means. A text is
therefore read as a list of spots: its characters, each with its line and column, and a last spot
that stands for the end. Line breaks are brought to one form first, and a text with characters
outside the printable ones is no YAML.

Results:
* `spotsFrom_ne_nil`: there is always a last spot.
* `length_spotsFrom`: there is one spot more than characters.
-/
namespace StackKeeper.Yaml

/-- A character of a text, or its end, with its position. -/
structure Spot where
  char : Char
  index : Nat
  line : Nat
  column : Nat

/-- The character of the end, which no YAML text contains. -/
def endMark : Char := '\x00'

/-! ## Character classes -/

def isBreak (c : Char) : Bool := c == '\n' || c == '\u2028' || c == '\u2029'

/-- Whether a character separates words inside a line. -/
def isSpacing (c : Char) : Bool := c == ' ' || c == '\t'

/-- Whether a character ends a line or the text. -/
def isLineEnd (c : Char) : Bool := isBreak c || c == endMark

/-- Whether a character is spacing or ends a line or the text. -/
def isBoundary (c : Char) : Bool := isSpacing c || isLineEnd c

def isFlowIndicator (c : Char) : Bool :=
  c == ',' || c == '[' || c == ']' || c == '\x7b' || c == '\x7d'

/-- Whether a character may occur in names of anchors, handles and directives. -/
def isNameChar (c : Char) : Bool :=
  ('0' ≤ c && c ≤ '9') || ('A' ≤ c && c ≤ 'Z') || ('a' ≤ c && c ≤ 'z') || c == '_' || c == '-'

/-- Whether a character may occur in a text at all. -/
def isPrintable (c : Char) : Bool :=
  let n := c.toNat
  n == 0x09 || n == 0x0A || n == 0x0D || (0x20 ≤ n && n ≤ 0x7E) || n == 0x85 ||
    (0xA0 ≤ n && n ≤ 0xD7FF) || (0xE000 ≤ n && n ≤ 0xFFFD) || 0x10000 ≤ n

/-- The mark that may precede a line and is no part of it. -/
def byteOrderMark : Char := '\uFEFF'

/-! ## Spots -/

/-- The text with a single line feed for every line break that has a separate written form. -/
def unifyBreaks : List Char → List Char
  | [] => []
  | '\r' :: '\n' :: rest => '\n' :: unifyBreaks rest
  | c :: rest => (if c == '\r' || c == '\u0085' then '\n' else c) :: unifyBreaks rest

/-- The spots of a text that starts at a position. -/
def spotsFrom (index line column : Nat) : List Char → List Spot
  | [] => [⟨endMark, index, line, column⟩]
  | c :: rest =>
    ⟨c, index, line, column⟩ ::
      (if isBreak c then spotsFrom (index + 1) (line + 1) 0 rest
        else spotsFrom (index + 1) line (column + 1) rest)

/-- The text without a mark before its first line. -/
def dropMark : List Char → List Char
  | [] => []
  | c :: rest => if c == byteOrderMark then rest else c :: rest

/-- The spots of a text, if all its characters are printable. -/
def spots? (s : List Char) : Option (List Spot) :=
  if s.all isPrintable then some (spotsFrom 0 0 0 (unifyBreaks (dropMark s))) else none

def peek : List Spot → Char
  | [] => endMark
  | s :: _ => s.char

def isTriple (c : Char) : List Spot → Bool
  | s :: t :: u :: _ => s.char == c && t.char == c && u.char == c
  | _ => false

def isStartMarker (l : List Spot) : Bool :=
  (l.head?.map Spot.column) == some 0 && isTriple '-' l && isBoundary (peek (l.drop 3))

def isEndMarker (l : List Spot) : Bool :=
  (l.head?.map Spot.column) == some 0 && isTriple '.' l && isBoundary (peek (l.drop 3))

/-- Whether a line starts with a marker of a document's start or end. -/
def isMarker (l : List Spot) : Bool := isStartMarker l || isEndMarker l

def takeChars (p : Char → Bool) (l : List Spot) : List Char :=
  (l.takeWhile fun s => p s.char).map Spot.char

def dropChars (p : Char → Bool) (l : List Spot) : List Spot := l.dropWhile fun s => p s.char

theorem length_spotsFrom (index line column : Nat) (s : List Char) :
    (spotsFrom index line column s).length = s.length + 1 := by
  induction s generalizing index line column with
  | nil => rfl
  | cons c s ih => rw [spotsFrom]; split <;> simp [ih]

theorem spotsFrom_ne_nil (index line column : Nat) (s : List Char) :
    spotsFrom index line column s ≠ [] := by
  intro h
  have := length_spotsFrom index line column s
  simp [h] at this

end StackKeeper.Yaml
