import Mathlib.Algebra.Group.Nat.Defs
import StackKeeper.Fingerprint
/-!
# What the digested bytes say

The byte sequence that is digested for a fingerprint says what the inputs are. A text is preceded by
its length, so it ends where it should. The length of a text below 2^56 bytes begins with a zero byte
and a mark does not, so a section ends where it should.

Results:
* `fields_mark_inj`: texts that are followed by a mark.
* `agree_of_feed_eq`: inputs with the same bytes are the same, up to the order of the two lists.
* `feed_eq_iff_agree`: and inputs that are the same up to this order have the same bytes.
* `hash_ne_empty`: a fingerprint is not the empty text, which stands for none.
-/
namespace StackKeeper.Fingerprint

/-! ## Texts -/

/-- The text is shorter than 2^56 bytes. -/
def Fits (s : String) : Prop := (utf8 s).length < 2 ^ 56

instance (s : String) : Decidable (Fits s) := inferInstanceAs (Decidable (_ < _))

theorem utf8_inj {s t : String} (h : utf8 s = utf8 t) : s = t := by
  have hdata : s.toByteArray.data = t.toByteArray.data := Array.ext' h
  have hbytes : s.toByteArray = t.toByteArray := ByteArray.ext hdata
  exact String.toByteArray_inj.mp hbytes

theorem eightBytes_inj {n m : Nat} (hn : n < 2 ^ 64) (hm : m < 2 ^ 64)
    (h : eightBytes n = eightBytes m) : n = m := by
  -- Numbers with the same higher bytes and the same next byte agree one byte further down.
  have byte : ∀ k, n >>> (k + 8) = m >>> (k + 8) →
      UInt8.ofNat (n >>> k) = UInt8.ofNat (m >>> k) → n >>> k = m >>> k := by
    intro k hhigh hbyte
    have hlow : n >>> k % 256 = m >>> k % 256 := by simpa using congrArg UInt8.toNat hbyte
    rw [Nat.shiftRight_add, Nat.shiftRight_add, Nat.shiftRight_eq_div_pow (n >>> k),
      Nat.shiftRight_eq_div_pow (m >>> k)] at hhigh
    omega
  simp only [eightBytes, List.map_cons, List.map_nil, List.cons.injEq, and_true] at h
  obtain ⟨h₇, h₆, h₅, h₄, h₃, h₂, h₁, h₀⟩ := h
  have h64 : n >>> 64 = m >>> 64 := by
    rw [Nat.shiftRight_eq_zero _ _ hn, Nat.shiftRight_eq_zero _ _ hm]
  have h56 := byte 56 h64 h₇
  have h48 := byte 48 h56 h₆
  have h40 := byte 40 h48 h₅
  have h32 := byte 32 h40 h₄
  have h24 := byte 24 h32 h₃
  have h16 := byte 16 h24 h₂
  have h8 := byte 8 h16 h₁
  exact byte 0 h8 h₀

/-- The length of a short text begins with a zero byte. -/
theorem field_head {s : String} (hs : Fits s) : ∃ rest, field s = 0 :: rest := by
  have hzero : (utf8 s).length >>> 56 = 0 := Nat.shiftRight_eq_zero _ _ hs
  refine ⟨(eightBytes (utf8 s).length).tail ++ utf8 s, ?_⟩
  have hfield : field s = UInt8.ofNat ((utf8 s).length >>> 56) ::
      ((eightBytes (utf8 s).length).tail ++ utf8 s) := rfl
  rw [hfield, hzero]
  rfl

theorem field_append_inj {s t : String} {x y : List UInt8} (hs : Fits s) (ht : Fits t)
    (h : field s ++ x = field t ++ y) : s = t ∧ x = y := by
  simp only [field, List.append_assoc] at h
  obtain ⟨hlength, hrest⟩ := List.append_inj h rfl
  have hbound : ∀ {u : String}, Fits u → (utf8 u).length < 2 ^ 64 := by
    intro u hu
    have : (utf8 u).length < 2 ^ 56 := hu
    omega
  have hlen := eightBytes_inj (hbound hs) (hbound ht) hlength
  obtain ⟨htext, hxy⟩ := List.append_inj hrest hlen
  exact ⟨utf8_inj htext, hxy⟩

/-! ## Lists of texts -/

def fields (l : List String) : List UInt8 := l.flatMap field

theorem fields_cons (s : String) (l : List String) : fields (s :: l) = field s ++ fields l := rfl

theorem fields_append (l m : List String) : fields (l ++ m) = fields l ++ fields m :=
  List.flatMap_append

variable {l m : List String}

/-- Texts that are followed by a mark can be told apart from it. -/
theorem fields_mark_inj {x y : List UInt8} {c : UInt8} (hc : c ≠ 0) (hl : ∀ s ∈ l, Fits s)
    (hm : ∀ s ∈ m, Fits s) (h : fields l ++ c :: x = fields m ++ c :: y) : l = m ∧ x = y := by
  have clash : ∀ {s : String} {l : List String} {x y : List UInt8}, Fits s →
      c :: x ≠ fields (s :: l) ++ y := by
    intro s l x y hs h
    obtain ⟨rest, hr⟩ := field_head hs
    rw [fields_cons, hr] at h
    exact hc (List.cons.inj h).1
  induction l generalizing m with
  | nil =>
    cases m with
    | nil => exact ⟨rfl, (List.cons.inj h).2⟩
    | cons t m => exact absurd h (clash (hm t List.mem_cons_self))
  | cons s l ih =>
    cases m with
    | nil => exact absurd h.symm (clash (hl s List.mem_cons_self))
    | cons t m =>
      rw [fields_cons, fields_cons, List.append_assoc, List.append_assoc] at h
      obtain ⟨rfl, hrest⟩ := field_append_inj (hl s List.mem_cons_self) (hm t List.mem_cons_self) h
      obtain ⟨rfl, hxy⟩ := ih (fun u hu => hl u (List.mem_cons_of_mem _ hu))
        (fun u hu => hm u (List.mem_cons_of_mem _ hu)) hrest
      exact ⟨rfl, hxy⟩

theorem fields_inj (hl : ∀ s ∈ l, Fits s) (hm : ∀ s ∈ m, Fits s) (h : fields l = fields m) :
    l = m := by
  -- A mark after both makes no difference.
  have hmark : fields l ++ 1 :: [] = fields m ++ 1 :: [] := by rw [h]
  exact (fields_mark_inj (by decide) hl hm hmark).1

/-! ## Sections -/

def keysAndValues (m : TextMap) : List String := m.entries.flatMap fun e => [e.1, e.2]

theorem pairs_eq_fields (m : TextMap) : pairs m = fields (keysAndValues m) := by
  rw [pairs, fields, keysAndValues, List.flatMap_assoc]
  simp

theorem keysAndValues_inj {m n : TextMap} (h : keysAndValues m = keysAndValues n) : m = n := by
  have entries : ∀ {a b : List (String × String)},
      (a.flatMap fun e => [e.1, e.2]) = (b.flatMap fun e => [e.1, e.2]) → a = b := by
    intro a
    induction a with
    | nil =>
      intro b hb
      cases b with
      | nil => rfl
      | cons e b => cases hb
    | cons e a ih =>
      intro b hb
      cases b with
      | nil => cases hb
      | cons d b =>
        simp only [List.flatMap_cons, List.cons_append, List.nil_append, List.cons.injEq] at hb
        rw [ih hb.2.2, Prod.ext hb.1 hb.2.1]
  cases m
  cases n
  simpa using entries h

/-- The texts before the tags. -/
def leadingTexts (spec : Spec) : List String :=
  spec.stackName.getD "" :: spec.template.getD "" :: spec.templateUrl.getD "" ::
    keysAndValues spec.parameters

/-- Texts in sorted order, and a last one. -/
def sortedTexts (l : List String) (last : Option String) : List String :=
  (l.mergeSort fun a b => a ≤ b) ++ [last.getD ""]

theorem feed_eq_fields (spec : Spec) (tags : TextMap) (capabilities : List String) :
    feed spec tags capabilities =
      fields (leadingTexts spec) ++ 124 :: (utf8 "tags" ++
        (fields (keysAndValues tags) ++ 124 :: (utf8 "capabilities" ++
          (fields (sortedTexts capabilities spec.role) ++ 124 :: (utf8 "notifications" ++
            fields (sortedTexts spec.notifications spec.onFailure)))))) := by
  have htags : utf8 "|tags" = 124 :: utf8 "tags" := by decide
  have hcapabilities : utf8 "|capabilities" = 124 :: utf8 "capabilities" := by decide
  have hnotifications : utf8 "|notifications" = 124 :: utf8 "notifications" := by decide
  have hsorted : ∀ l last, fields (sortedTexts l last) = sortedFields l ++ optionalField last := by
    intro l last
    rw [sortedTexts, fields_append, sortedFields, optionalField]
    simp [fields]
  simp only [feed, hsorted, pairs_eq_fields, htags, hcapabilities, hnotifications, leadingTexts,
    fields_cons, optionalField, List.append_assoc, List.cons_append]

/-- Every text of the inputs is shorter than 2^56 bytes. -/
structure AllFit (spec : Spec) (tags : TextMap) (capabilities : List String) : Prop where
  leading : ∀ s ∈ leadingTexts spec, Fits s
  tags : ∀ s ∈ keysAndValues tags, Fits s
  capabilities : ∀ s ∈ capabilities, Fits s
  role : Fits (spec.role.getD "")
  notifications : ∀ s ∈ spec.notifications, Fits s
  onFailure : Fits (spec.onFailure.getD "")

/-- The inputs are the same, but for the order of the two lists; an unset text is the empty one. -/
structure Agree (spec spec' : Spec) (tags tags' : TextMap) (capabilities capabilities' : List String) :
    Prop where
  stackName : spec.stackName.getD "" = spec'.stackName.getD ""
  template : spec.template.getD "" = spec'.template.getD ""
  templateUrl : spec.templateUrl.getD "" = spec'.templateUrl.getD ""
  parameters : spec.parameters = spec'.parameters
  tags : tags = tags'
  capabilities : capabilities.Perm capabilities'
  role : spec.role.getD "" = spec'.role.getD ""
  notifications : spec.notifications.Perm spec'.notifications
  onFailure : spec.onFailure.getD "" = spec'.onFailure.getD ""

theorem sortedTexts_inj {last last' : Option String} (h : sortedTexts l last = sortedTexts m last') :
    l.Perm m ∧ last.getD "" = last'.getD "" := by
  obtain ⟨hsorted, hlast⟩ := List.append_inj' h rfl
  have hperm : l.Perm (m.mergeSort fun a b => a ≤ b) := hsorted ▸ (List.mergeSort_perm l _).symm
  exact ⟨hperm.trans (List.mergeSort_perm m _), (List.cons.inj hlast).1⟩

theorem fits_sortedTexts {last : Option String} (hl : ∀ s ∈ l, Fits s) (hlast : Fits (last.getD "")) :
    ∀ s ∈ sortedTexts l last, Fits s := by
  intro s hs
  rcases List.mem_append.mp hs with hs | hs
  · exact hl s ((List.mergeSort_perm l _).mem_iff.mp hs)
  · rw [List.mem_singleton.mp hs]
    exact hlast

theorem agree_of_feed_eq {spec spec' : Spec} {tags tags' : TextMap}
    {capabilities capabilities' : List String} (hf : AllFit spec tags capabilities)
    (hf' : AllFit spec' tags' capabilities')
    (h : feed spec tags capabilities = feed spec' tags' capabilities') :
    Agree spec spec' tags tags' capabilities capabilities' := by
  have hbar : (124 : UInt8) ≠ 0 := by decide
  rw [feed_eq_fields, feed_eq_fields] at h
  obtain ⟨hleading, h⟩ := fields_mark_inj hbar hf.leading hf'.leading h
  have h := List.append_cancel_left h
  obtain ⟨htags, h⟩ := fields_mark_inj hbar hf.tags hf'.tags h
  have h := List.append_cancel_left h
  obtain ⟨hcap, h⟩ := fields_mark_inj hbar (fits_sortedTexts hf.capabilities hf.role)
    (fits_sortedTexts hf'.capabilities hf'.role) h
  have h := List.append_cancel_left h
  have hnot := fields_inj (fits_sortedTexts hf.notifications hf.onFailure)
    (fits_sortedTexts hf'.notifications hf'.onFailure) h
  simp only [leadingTexts, List.cons.injEq] at hleading
  obtain ⟨hname, htemplate, hurl, hparameters⟩ := hleading
  obtain ⟨hcap, hrole⟩ := sortedTexts_inj hcap
  obtain ⟨hnot, hfail⟩ := sortedTexts_inj hnot
  exact ⟨hname, htemplate, hurl, keysAndValues_inj hparameters, keysAndValues_inj htags, hcap, hrole,
    hnot, hfail⟩

/-- Texts in sorted order do not show the order that they had. -/
theorem mergeSort_eq_of_perm (h : l.Perm m) :
    (l.mergeSort fun a b => a ≤ b) = m.mergeSort fun a b => a ≤ b := by
  have hsorted : ∀ l : List String, (l.mergeSort fun a b => a ≤ b).Pairwise fun a b => a ≤ b := by
    intro l
    have htrans : ∀ a b c : String, decide (a ≤ b) = true → decide (b ≤ c) = true →
        decide (a ≤ c) = true := by
      intro a b c hab hbc
      exact decide_eq_true (String.le_trans (of_decide_eq_true hab) (of_decide_eq_true hbc))
    have htotal : ∀ a b : String, (decide (a ≤ b) || decide (b ≤ a)) = true := by
      intro a b
      simpa using String.le_total a b
    simpa using List.pairwise_mergeSort htrans htotal l
  have hperm : (l.mergeSort fun a b => a ≤ b).Perm (m.mergeSort fun a b => a ≤ b) :=
    ((List.mergeSort_perm l _).trans h).trans (List.mergeSort_perm m _).symm
  exact hperm.eq_of_pairwise (fun _ _ _ _ => String.le_antisymm) (hsorted l) (hsorted m)

theorem feed_eq_of_agree {spec spec' : Spec} {tags tags' : TextMap}
    {capabilities capabilities' : List String}
    (h : Agree spec spec' tags tags' capabilities capabilities') :
    feed spec tags capabilities = feed spec' tags' capabilities' := by
  simp only [feed, optionalField, sortedFields, h.stackName, h.template, h.templateUrl, h.parameters,
    h.tags, mergeSort_eq_of_perm h.capabilities, h.role, mergeSort_eq_of_perm h.notifications,
    h.onFailure]

/-- The digested bytes say exactly what the inputs are, up to the order of the two lists and to an unset
text being the empty one; so inputs that agree have the same fingerprint. -/
theorem feed_eq_iff_agree {spec spec' : Spec} {tags tags' : TextMap}
    {capabilities capabilities' : List String} (hf : AllFit spec tags capabilities)
    (hf' : AllFit spec' tags' capabilities') :
    (feed spec tags capabilities = feed spec' tags' capabilities' ↔
      Agree spec spec' tags tags' capabilities capabilities') ∧
    (Agree spec spec' tags tags' capabilities capabilities' →
      hash spec tags capabilities = hash spec' tags' capabilities') :=
  ⟨⟨agree_of_feed_eq hf hf', feed_eq_of_agree⟩, fun h => congrArg Sha256.hexDigest (feed_eq_of_agree h)⟩

/-- A role that reads like the last of the capabilities. -/
def roleSpec : Spec := { Spec.empty with role := some "CAPABILITY_IAM" }

/-- The order of two capabilities does not show, and a capability is not taken for the role after it. -/
theorem feed_roleSpec :
    feed Spec.empty .empty ["CAPABILITY_IAM", ""] = feed Spec.empty .empty ["", "CAPABILITY_IAM"] ∧
      feed Spec.empty .empty ["CAPABILITY_IAM", ""] ≠ feed roleSpec .empty [""] := by
  have hone : AllFit Spec.empty .empty ["CAPABILITY_IAM", ""] := by
    constructor <;> decide
  have hother : AllFit Spec.empty .empty ["", "CAPABILITY_IAM"] := by
    constructor <;> decide
  have hrole : AllFit roleSpec .empty [""] := by
    constructor <;> decide
  constructor
  · exact (feed_eq_iff_agree hone hother).1.mpr
      ⟨rfl, rfl, rfl, rfl, rfl, .swap _ _ _, rfl, .refl _, rfl⟩
  · intro h
    have hagree := (feed_eq_iff_agree hone hrole).1.mp h
    exact absurd hagree.role (by decide)

theorem hash_ne_empty (spec : Spec) (tags : TextMap) (capabilities : List String) :
    hash spec tags capabilities ≠ "" := by
  intro h
  have hlist := congrArg String.toList h
  simp [hash, Sha256.hexDigest, Sha256.digest, Sha256.hexWord] at hlist

end StackKeeper.Fingerprint
