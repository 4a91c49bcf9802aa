import StackKeeper.Sha256
import StackKeeper.Stack.Inputs
/-!
# Fingerprints of stack inputs

The fingerprint of a spec with its effective tags and capabilities changes with every input that is
submitted, and not with the order of the two lists. It is the SHA-256 digest of a byte sequence
(`feed`) in which every text is preceded by its length, so that neighbouring texts cannot run
together, and every variable section after the first is opened by a mark.
-/
namespace StackKeeper.Fingerprint

def utf8 (s : String) : List UInt8 := s.toUTF8.data.toList

/-- A number as eight bytes, the highest first; only its lowest 64 bits count. -/
def eightBytes (n : Nat) : List UInt8 :=
  ([56, 48, 40, 32, 24, 16, 8, 0] : List Nat).map fun shift => UInt8.ofNat (n >>> shift)

/-- A text with its length in bytes before it. -/
def field (s : String) : List UInt8 := eightBytes (utf8 s).length ++ utf8 s

def pairs (m : TextMap) : List UInt8 := m.entries.flatMap fun e => field e.1 ++ field e.2

def sortedFields (l : List String) : List UInt8 :=
  (l.mergeSort fun a b => a ≤ b).flatMap field

/-- A text that may be unset, which counts as empty. -/
def optionalField (o : Option String) : List UInt8 := field (o.getD "")

/-- The bytes that are digested. -/
def feed (spec : Spec) (tags : TextMap) (capabilities : List String) : List UInt8 :=
  optionalField spec.stackName ++ optionalField spec.template ++ optionalField spec.templateUrl ++
    pairs spec.parameters ++ utf8 "|tags" ++ pairs tags ++
    utf8 "|capabilities" ++ sortedFields capabilities ++ optionalField spec.role ++
    utf8 "|notifications" ++ sortedFields spec.notifications ++ optionalField spec.onFailure

/-- The fingerprint as 64 hexadecimal digits. -/
def hash (spec : Spec) (tags : TextMap) (capabilities : List String) : String :=
  Sha256.hexDigest (feed spec tags capabilities)

/-- The fingerprint of the inputs of a resource. -/
def ofResource (p : Policy) (r : Resource) : String :=
  hash r.spec (p.effectiveTags r) (p.effectiveCapabilities r)

/-- The first characters that fill exactly the given number of bytes. -/
def takeBytes? : Nat → List Char → Option (List Char)
  | 0, _ => some []
  | _ + 1, [] => none
  | n + 1, c :: rest =>
    if c.utf8Size ≤ n + 1 then (takeBytes? (n + 1 - c.utf8Size) rest).map (c :: ·) else none
termination_by n => n
decreasing_by
  have := c.utf8Size_pos
  omega

/-- The first eight bytes of a fingerprint, or the whole text if they do not end with a character. -/
def short (hash : String) : String :=
  match takeBytes? 8 hash.toList with
  | some cs => String.ofList cs
  | none => hash

end StackKeeper.Fingerprint
