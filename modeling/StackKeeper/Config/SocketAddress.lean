import StackKeeper.Text.Decimal
/-!
# Socket addresses

An address of a network endpoint: an IPv4 address or an IPv6 address in brackets, each with a port.
The written form of an IPv6 address leaves out its longest run of zero groups.
-/
namespace StackKeeper
open StackKeeper.Text

inductive SocketAddress where
  | v4 (octets : List Nat) (port : Nat)
  | v6 (groups : List Nat) (scope port : Nat)
deriving DecidableEq

namespace SocketAddress

/-! ## Reading -/

def digit? (base : Nat) (c : Char) : Option Nat := (hexValue? c).filter (· < base)

/-- The longest run of digits, and what follows. -/
def spanDigits (base : Nat) : List Char → List Nat × List Char
  | [] => ([], [])
  | c :: rest =>
    match digit? base c with
    | some d =>
      let (ds, tail) := spanDigits base rest
      (d :: ds, tail)
    | none => ([], c :: rest)

/-- A number below a bound, written with at least one digit and at most as many as given. -/
def number? (base bound : Nat) (maxDigits : Option Nat) (s : List Char) :
    Option (Nat × List Char) :=
  let (ds, rest) := spanDigits base s
  let n := ds.foldl (fun n d => n * base + d) 0
  if ds.isEmpty ∨ bound ≤ n ∨ (maxDigits.getD ds.length) < ds.length then none else some (n, rest)

/-- An octet: a decimal number below 256 without leading zeros. -/
def octet? (s : List Char) : Option (Nat × List Char) :=
  match s with
  | '0' :: c :: _ => if (digit? 10 c).isSome then none else number? 10 256 (some 3) s
  | _ => number? 10 256 (some 3) s

def after? (c : Char) : List Char → Option (List Char)
  | d :: rest => if d = c then some rest else none
  | [] => none

/-- The four octets of an IPv4 address. -/
def octets? (s : List Char) : Option (List Nat × List Char) := do
  let (a, s) ← octet? s
  let s ← after? '.' s
  let (b, s) ← octet? s
  let s ← after? '.' s
  let (c, s) ← octet? s
  let s ← after? '.' s
  let (d, s) ← octet? s
  some ([a, b, c, d], s)

/-- A colon and a port. -/
def port? (s : List Char) : Option (Nat × List Char) := do
  let s ← after? ':' s
  number? 10 65536 none s

/-- Skips the separator before every group but the first. -/
def separated? (isFirst : Bool) (s : List Char) : Option (List Char) :=
  if isFirst then some s else after? ':' s

/-- The two groups of an IPv4 address at the end of an IPv6 address. -/
def embedded? (isFirst : Bool) (s : List Char) : Option (List Nat × List Char) := do
  let s ← separated? isFirst s
  let (octets, s) ← octets? s
  match octets with
  | [a, b, c, d] => some ([a * 256 + b, c * 256 + d], s)
  | _ => none

/-- A group of up to four hexadecimal digits. -/
def group? (isFirst : Bool) (s : List Char) : Option (Nat × List Char) := do
  let s ← separated? isFirst s
  number? 16 65536 (some 4) s

/-- Groups, at most as many as given, possibly ending in an IPv4 address; the second part says
whether they do. -/
def groups (isFirst : Bool) : Nat → List Char → List Nat × Bool × List Char
  | 0, s => ([], false, s)
  | room + 1, s =>
    let tail? := if room = 0 then none else embedded? isFirst s
    match tail? with
    | some (pair, rest) => (pair, true, rest)
    | none =>
      match group? isFirst s with
      | none => ([], false, s)
      | some (g, rest) =>
        let (gs, embedded, rest) := groups false room rest
        (g :: gs, embedded, rest)

/-- The eight groups of an IPv6 address. -/
def v6Groups? (s : List Char) : Option (List Nat × List Char) :=
  let (head, embedded, rest) := groups true 8 s
  if head.length = 8 then some (head, rest)
  else if embedded then none
  else
    match rest with
    | ':' :: ':' :: rest =>
      let (tail, _, rest) := groups true (7 - head.length) rest
      some (head ++ List.replicate (8 - head.length - tail.length) 0 ++ tail, rest)
    | _ => none

/-- A scope, if the text goes on with one. -/
def scope (s : List Char) : Nat × List Char :=
  match s with
  | '%' :: rest => (number? 10 0x100000000 none rest).getD (0, s)
  | _ => (0, s)

/-- An IPv4 address with its port. -/
def v4? (s : List Char) : Option (SocketAddress × List Char) := do
  let (octets, s) ← octets? s
  let (port, s) ← port? s
  some (.v4 octets port, s)

/-- An IPv6 address with its port. -/
def v6? (s : List Char) : Option (SocketAddress × List Char) := do
  let s ← after? '[' s
  let (gs, s) ← v6Groups? s
  let (scope, s) := scope s
  let s ← after? ']' s
  let (port, s) ← port? s
  some (.v6 gs scope port, s)

/-- Reads an address that is all of a text. -/
def ofText? (s : String) : Option SocketAddress :=
  match (v4? s.toList).or (v6? s.toList) with
  | some (a, []) => some a
  | _ => none

/-! ## Reach -/

def isLocalOctets : List Nat → Bool
  | 127 :: _ => true
  | octets => octets.all (· == 0)

/-- Whether eight groups name this machine, be it in the form of an IPv4 address. -/
def isLocalGroups (gs : List Nat) : Bool :=
  match gs with
  | [0, 0, 0, 0, 0, 0, 0, g] => g ≤ 1
  | [0, 0, 0, 0, 0, 65535, a, b] => isLocalOctets [a / 256, a % 256, b / 256, b % 256]
  | _ => false

/-- Whether the address belongs to this machine, so that an endpoint can be opened there. -/
def isLocal : SocketAddress → Bool
  | v4 octets _ => isLocalOctets octets
  | v6 gs _ _ => isLocalGroups gs

/-! ## Writing -/

def joined (sep : String) (l : List String) : String := sep.intercalate l

def groupText (g : Nat) : String := String.ofList (Nat.toDigits 16 g)

/-- The length of the run of zeros at the start. -/
def zeroRun : List Nat → Nat
  | 0 :: rest => zeroRun rest + 1
  | _ => 0

/-- Where the first of the longest runs of zeros starts, and its length. -/
def longestZeroRun (position : Nat) (best : Nat × Nat) : List Nat → Nat × Nat
  | [] => best
  | g :: rest =>
    let n := zeroRun (g :: rest)
    longestZeroRun (position + 1) (if best.2 < n then (position, n) else best) rest

/-- The text of the groups of an IPv6 address. -/
def groupsText (gs : List Nat) : String :=
  match gs with
  | [0, 0, 0, 0, 0, 0xffff, hi, lo] =>
    "::ffff:" ++ joined "." ([hi / 256, hi % 256, lo / 256, lo % 256].map decimalText)
  | _ =>
    let (start, length) := longestZeroRun 0 (0, 0) gs
    if 1 < length then
      joined ":" ((gs.take start).map groupText) ++ "::" ++
        joined ":" ((gs.drop (start + length)).map groupText)
    else joined ":" (gs.map groupText)

/-- The written form. -/
def text : SocketAddress → String
  | .v4 octets port => joined "." (octets.map decimalText) ++ ":" ++ decimalText port
  | .v6 gs scope port =>
    "[" ++ groupsText gs ++ (if scope = 0 then "" else "%" ++ decimalText scope) ++ "]:" ++
      decimalText port

end SocketAddress
end StackKeeper
