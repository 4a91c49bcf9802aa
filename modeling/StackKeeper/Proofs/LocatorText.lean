import StackKeeper.Resource.Locator
/-!
# The texts of locators

A text names a resource in one of two ways: by the name alone, or by namespace and name with one slash
between them. These are all the texts that are read, and each is read in one way only. Of the texts of
a locator the long one is its written form.

Results:
* `ofText?_eq_some_iff`: what a text is read as.
* `parts_of_ofText?`: both parts of a locator that was read are non-empty and free of slashes.
* `text_inj`: locators with such parts differ in their written form.
* `reading_exact`: which texts are read, as what, and that reading undoes writing.
-/
namespace StackKeeper.Locator
open StackKeeper.Text

variable {s : String} {l l' : Locator}

/-- The texts that name a locator. -/
inductive Names : String → Locator → Prop
  /-- A name alone means the default namespace. -/
  | alone {name : String} (hname : isPart name) : Names name ⟨defaultNamespace, name⟩
  | joined {ns name : String} (hns : isPart ns) (hname : isPart name) :
    Names (ns ++ "/" ++ name) ⟨ns, name⟩

theorem isPart_defaultNamespace : isPart defaultNamespace := ⟨by decide, by decide⟩

theorem isPart_ofList {cs : List Char} : isPart (String.ofList cs) ↔ cs ≠ [] ∧ '/' ∉ cs := by
  rw [isPart, String.toList_ofList]
  refine and_congr_left' (not_congr ⟨fun h => ?_, fun h => ?_⟩)
  · simpa using congrArg String.toList h
  · rw [h]

theorem splitFirst_eq_none_iff {sep : Char} {cs : List Char} :
    splitFirst sep cs = none ↔ sep ∉ cs := by
  induction cs with
  | nil => simp [splitFirst]
  | cons c cs ih =>
    rw [splitFirst]
    by_cases hc : c = sep
    · simp [hc]
    · simp [hc, ih, Ne.symm hc]

/-- Without a slash the whole text is the name. -/
theorem ofText?_of_not_mem (h : '/' ∉ s.toList) :
    ofText? s = if s = "" then none else some ⟨defaultNamespace, s⟩ := by
  rw [ofText?, splitFirst_eq_none_iff.mpr h]
  simp

/-- Cut at its first slash, a text is read exactly if both sides are parts. -/
theorem ofText?_of_split {ns name : List Char} (hs : s.toList = ns ++ '/' :: name) (hns : '/' ∉ ns) :
    ofText? s = some l ↔ isPart (String.ofList ns) ∧ isPart (String.ofList name) ∧
      l = ⟨String.ofList ns, String.ofList name⟩ := by
  rw [ofText?, splitFirst_eq_some_iff.mpr ⟨hs, hns⟩, isPart_ofList, isPart_ofList]
  simp only [List.isEmpty_iff]
  split
  · rename_i h
    constructor
    · intro hnone
      cases hnone
    · rintro ⟨⟨hne, -⟩, ⟨hne', hslash⟩, -⟩
      rcases h with h | h | h
      · exact absurd h hne
      · exact absurd h hne'
      · exact absurd h hslash
  · rename_i h
    obtain ⟨hne, hne', hslash⟩ : ns ≠ [] ∧ name ≠ [] ∧ '/' ∉ name := by simpa using h
    rw [Option.some.injEq, eq_comm]
    exact ⟨fun h => ⟨⟨hne, hns⟩, ⟨hne', hslash⟩, h⟩, fun h => h.2.2⟩

theorem ofText?_eq_some_iff : ofText? s = some l ↔ Names s l := by
  constructor
  · intro h
    by_cases hslash : '/' ∈ s.toList
    · cases hsplit : splitFirst '/' s.toList with
      | none => exact absurd hslash (splitFirst_eq_none_iff.mp hsplit)
      | some cut =>
        obtain ⟨hs, hns⟩ := splitFirst_eq_some_iff.mp hsplit
        obtain ⟨hpart, hpart', rfl⟩ := (ofText?_of_split hs hns).mp h
        have htext : s = String.ofList cut.1 ++ "/" ++ String.ofList cut.2 := by
          apply String.toList_injective
          simp [hs]
        exact htext ▸ .joined hpart hpart'
    · rw [ofText?_of_not_mem hslash] at h
      split at h
      · cases h
      · cases h
        rename_i hne
        exact .alone ⟨hne, hslash⟩
  · intro h
    cases h with
    | alone hname => rw [ofText?_of_not_mem hname.2, if_neg hname.1]
    | @joined ns name hns hname =>
      have hread : ofText? (text ⟨ns, name⟩) = some ⟨ns, name⟩ := ofText?_text hns hname
      rwa [text] at hread

theorem parts_of_ofText? (h : ofText? s = some l) : isPart l.ns ∧ isPart l.name := by
  cases ofText?_eq_some_iff.mp h with
  | alone hname => exact ⟨isPart_defaultNamespace, hname⟩
  | joined hns hname => exact ⟨hns, hname⟩

/-- The written form tells locators apart, since it reads back. -/
theorem text_inj (hns : isPart l.ns) (hname : isPart l.name) (hns' : isPart l'.ns)
    (hname' : isPart l'.name) (h : l.text = l'.text) : l = l' := by
  have hread := ofText?_text hns hname
  rw [h, ofText?_text hns' hname'] at hread
  exact (Option.some.inj hread).symm

/-- A text is read exactly if it is a part, or two parts with one slash between them; it is read as the
locator that it names, whose written form is read as the same locator. Every locator made of two parts
is read from its written form, which is that of no other such locator. -/
theorem reading_exact :
    (∀ s, (∃ l, ofText? s = some l) ↔
      isPart s ∨ ∃ ns name, isPart ns ∧ isPart name ∧ s = ns ++ "/" ++ name) ∧
    (∀ s l, ofText? s = some l ↔ Names s l) ∧
    (∀ s l, ofText? s = some l → ofText? l.text = some l) ∧
    ∀ l, isPart l.ns → isPart l.name → ofText? l.text = some l ∧
      ∀ l', isPart l'.ns → isPart l'.name → l.text = l'.text → l = l' := by
  refine ⟨fun s => ⟨?_, ?_⟩, fun _ _ => ofText?_eq_some_iff, fun s l h => ?_,
    fun l hns hname => ⟨ofText?_text hns hname, fun l' hns' hname' => text_inj hns hname hns' hname'⟩⟩
  · rintro ⟨l, h⟩
    cases ofText?_eq_some_iff.mp h with
    | alone hname => exact .inl hname
    | joined hns hname => exact .inr ⟨_, _, hns, hname, rfl⟩
  · rintro (hname | ⟨ns, name, hns, hname, rfl⟩)
    · exact ⟨_, ofText?_eq_some_iff.mpr (.alone hname)⟩
    · exact ⟨_, ofText?_eq_some_iff.mpr (.joined hns hname)⟩
  · obtain ⟨hns, hname⟩ := parts_of_ofText? h
    exact ofText?_text hns hname

/-- A bare name, a text with both parts, and two texts with a separator too many. -/
theorem reading_exact_web :
    Names "wéb" ⟨"default", "wéb"⟩ ∧ ofText? "default/wéb" = some ⟨"default", "wéb"⟩ ∧
      isPart "team-a" ∧ isPart "web" ∧ ofText? "team-a/web" = some ⟨"team-a", "web"⟩ ∧
      ofText? "/web" = none ∧ ofText? "a/b/c" = none := by
  obtain ⟨-, hnames, hagain, hback⟩ := reading_exact
  have hbare : ofText? "wéb" = some ⟨"default", "wéb"⟩ := by decide
  have hns : isPart "team-a" := ⟨by decide, by decide⟩
  have hname : isPart "web" := ⟨by decide, by decide⟩
  exact ⟨(hnames _ _).mp hbare, hagain _ _ hbare, hns, hname, (hback ⟨"team-a", "web"⟩ hns hname).1,
    by decide, by decide⟩

end StackKeeper.Locator
