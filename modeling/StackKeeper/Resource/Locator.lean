import StackKeeper.Text.Parts
/-!
# Locators and uids

A stored resource is named by its namespace and its name. The text of a locator joins the two by a
slash; a text without a slash names a resource of the default namespace. A uid tells the incarnations
under one locator apart. New ones are made of random octets, of which six bits say so.

Results:
* `ofText?_text`: a locator whose parts are non-empty and free of slashes reads back from its text.
-/
namespace StackKeeper
open StackKeeper.Text

def defaultNamespace : String := "default"

structure Locator where
  ns : String
  name : String
deriving DecidableEq, Inhabited

namespace Locator

def text (l : Locator) : String := l.ns ++ "/" ++ l.name

/-- Both parts cut at the first slash, nothing being checked. -/
def split (s : String) : Locator :=
  match splitFirst '/' s.toList with
  | some (ns, name) => ⟨String.ofList ns, String.ofList name⟩
  | none => ⟨defaultNamespace, s⟩

/-- Reads a locator: two non-empty parts, or a name alone, and no further slash. -/
def ofText? (s : String) : Option Locator :=
  match splitFirst '/' s.toList with
  | some (ns, name) =>
    if ns.isEmpty ∨ name.isEmpty ∨ '/' ∈ name then none
    else some ⟨String.ofList ns, String.ofList name⟩
  | none => if s.isEmpty then none else some ⟨defaultNamespace, s⟩

/-- Order by namespace and then by name. -/
def before (a b : Locator) : Bool := a.ns < b.ns || (a.ns == b.ns && a.name ≤ b.name)

/-- Whether a text is non-empty and free of slashes. -/
def isPart (s : String) : Prop := s ≠ "" ∧ '/' ∉ s.toList

theorem ofText?_text {l : Locator} (hns : isPart l.ns) (hname : isPart l.name) :
    ofText? l.text = some l := by
  have hs : splitFirst '/' l.text.toList = some (l.ns.toList, l.name.toList) := by
    rw [splitFirst_eq_some_iff]
    exact ⟨by simp [text, String.toList_append], hns.2⟩
  have h1 : l.ns.toList ≠ [] := by simpa using hns.1
  have h2 : l.name.toList ≠ [] := by simpa using hname.1
  simp [ofText?, hs, h1, h2, hname.2]

end Locator
/-! ## Uids -/

namespace Uid

/-- The octets with the bits set that mark them as random. -/
def tagged (octets : List UInt8) : List UInt8 :=
  octets.mapIdx fun i b => if i = 6 then b % 16 + 64 else if i = 8 then b % 64 + 128 else b

def hexOctet (b : UInt8) : List Char := [Nat.digitChar (b.toNat / 16), Nat.digitChar (b.toNat % 16)]

/-- The uid of sixteen random octets. -/
def ofOctets (octets : List UInt8) : String :=
  let digits := (tagged octets).flatMap hexOctet
  String.ofList
    (digits.take 8 ++ '-' :: ((digits.drop 8).take 4 ++ '-' :: ((digits.drop 12).take 4 ++
      '-' :: ((digits.drop 16).take 4 ++ '-' :: digits.drop 20))))

end Uid
end StackKeeper
