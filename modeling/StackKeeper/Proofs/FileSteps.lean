import StackKeeper.Files.Tree
/-!
# What file steps leave

A step on a file never makes or removes a directory, so it changes neither where other paths lead
nor what they lead to. A file is replaced by writing its new text to a neighbour and moving that
into place.

Results:
* `follow_of_sameDirectories`: where a path leads depends on the directories alone.
* `makeDirectories_of_follow`: nothing is made along a path that leads to a directory.
* `applyAll_replace`: replacing a file either gives it the new text or changes nothing.
* `read_remove`: a removed file is missing.
-/
namespace StackKeeper

namespace Path

@[simp] theorem parent_withFileName (p : Path) (name : String) :
    (p.withFileName name).parent = p.parent := by simp [withFileName, parent]

@[simp] theorem fileName_withFileName (p : Path) (name : String) :
    (p.withFileName name).fileName = name := by simp [withFileName, fileName]

/-- Whether a name stands for itself, not for a directory seen from where it stands. -/
def IsOrdinary (name : String) : Prop := name ≠ "" ∧ name ≠ "." ∧ name ≠ ".."

end Path

namespace FileTree
open StackKeeper.Path

variable {t t' : FileTree} {p q dir : Path} {e : FileEntry}

/-- Two trees have the same directories. -/
def SameDirectories (t t' : FileTree) : Prop :=
  ∀ p, t.entryAt? p = some .directory ↔ t'.entryAt? p = some .directory

/-- Every directory of the one tree is one of the other. -/
def KeepsDirectories (t t' : FileTree) : Prop :=
  ∀ p, t.entryAt? p = some .directory → t'.entryAt? p = some .directory

theorem SameDirectories.symm (h : SameDirectories t t') : SameDirectories t' t :=
  fun p => (h p).symm

theorem SameDirectories.keeps (h : SameDirectories t t') : KeepsDirectories t t' :=
  fun p => (h p).mp

theorem follow_of_keepsDirectories (h : KeepsDirectories t t') {start : Path}
    (hf : t.follow start p = .ok dir) : t'.follow start p = .ok dir := by
  fun_induction follow t start p with
  | case1 start => exact hf
  | case2 start rest ih =>
    rw [follow, if_pos rfl]
    exact ih hf
  | case3 start rest hdot ih =>
    rw [follow, if_neg hdot, if_pos rfl]
    exact ih hf
  | case4 start c rest hdot hdots hn => cases hf
  | case5 start c rest hdot hdots hn hd ih =>
    rw [follow, if_neg hdot, if_neg hdots, if_neg hn, h _ hd]
    exact ih hf
  | case6 start c rest hdot hdots hn e hd => cases hf
  | case7 start c rest hdot hdots hn hd => cases hf

theorem follow_of_sameDirectories (h : SameDirectories t t') {start : Path}
    (hf : t.follow start p = .ok dir) : t'.follow start p = .ok dir :=
  follow_of_keepsDirectories h.keeps hf

theorem makeDirectories_of_follow {start : Path} (hf : t.follow start p = .ok dir) :
    t.makeDirectories start p = (.ok (), t) := by
  fun_induction follow t start p with
  | case1 start => rfl
  | case2 start rest ih =>
    rw [makeDirectories, if_pos rfl]
    exact ih hf
  | case3 start rest hdot ih =>
    rw [makeDirectories, if_neg hdot, if_pos rfl]
    exact ih hf
  | case4 start c rest hdot hdots hn => cases hf
  | case5 start c rest hdot hdots hn hd ih =>
    rw [makeDirectories, if_neg hdot, if_neg hdots, if_neg hn, hd]
    exact ih hf
  | case6 start c rest hdot hdots hn e hd => cases hf
  | case7 start c rest hdot hdots hn hd => cases hf

theorem entryAt?_erase_self (hq : q ≠ [] ∧ q ≠ [Path.root]) : (t.erase q).entryAt? q = none := by
  rw [entryAt?, if_neg (by simp [hq.1, hq.2]), Option.map_eq_none_iff, List.find?_eq_none]
  intro e he
  have := (List.mem_filter.mp he).2
  simpa using this

/-- What is no directory is none of the starting points. -/
theorem ne_start_of_entryAt? (h : t.entryAt? q ≠ some .directory) : q ≠ [] ∧ q ≠ [Path.root] := by
  constructor
  · rintro rfl
    exact h rfl
  · rintro rfl
    exact h rfl

theorem sameDirectories_put (hq : t.entryAt? q ≠ some .directory) (he : e ≠ .directory) :
    SameDirectories t (t.put q e) := by
  intro p
  rw [entryAt?_put (ne_start_of_entryAt? hq)]
  split
  · rename_i hp
    subst hp
    simp [hq, he]
  · rfl

theorem sameDirectories_erase (hq : t.entryAt? q ≠ some .directory) :
    SameDirectories t (t.erase q) := by
  intro p
  by_cases hp : p = q
  · subst hp
    rw [entryAt?_erase_self (ne_start_of_entryAt? hq)]
    simp [hq]
  · rw [entryAt?_erase hp]

theorem SameDirectories.trans {t'' : FileTree} (h : SameDirectories t t')
    (h' : SameDirectories t' t'') : SameDirectories t t'' :=
  fun p => (h p).trans (h' p)

/-! ## Files in a directory -/

theorem locate_of_follow (hf : t.follow [] p.parent = .ok dir) (ho : IsOrdinary p.fileName) :
    t.locate p = if isName p.fileName then .ok (dir ++ [p.fileName])
      else .error (.refused (unnameable p.fileName)) := by
  simp only [locate, hf, ho.1, ho.2.1, ho.2.2, or_self, if_false]

/-- A path with an ordinary last component can be read exactly if it names a file of a directory. -/
theorem read_eq_ok_iff (ho : IsOrdinary p.fileName) {text : String} :
    t.read p = .ok text ↔ ∃ dir, t.follow [] p.parent = .ok dir ∧ isName p.fileName = true ∧
      t.entryAt? (dir ++ [p.fileName]) = some (.file text) := by
  cases hf : t.follow [] p.parent with
  | error f => simp [read, find, locate, hf]
  | ok dir =>
    rw [read, find, locate_of_follow hf ho]
    cases hn : isName p.fileName with
    | false => simp
    | true =>
      simp only [if_true]
      cases he : t.entryAt? (dir ++ [p.fileName]) with
      | none => simp [he]
      | some e => cases e <;> simp [he]

theorem putFile_of_follow {text : String} (hf : t.follow [] p.parent = .ok dir)
    (ho : IsOrdinary p.fileName) (hn : isName p.fileName = true)
    (he : t.entryAt? (dir ++ [p.fileName]) ≠ some .directory) :
    t.putFile p text = (.ok (), t.put (dir ++ [p.fileName]) (.file text)) := by
  rw [putFile, locate_of_follow hf ho, if_pos hn]
  split
  · rename_i hd
    cases hd
  · rename_i q hq
    cases hq
    split
    · rename_i hd
      exact absurd hd he
    · rfl

theorem putFile_refused {text : String} (hf : t.follow [] p.parent = .ok dir)
    (ho : IsOrdinary p.fileName)
    (he : ¬ (isName p.fileName = true ∧ t.entryAt? (dir ++ [p.fileName]) ≠ some .directory)) :
    ∃ why, t.putFile p text = (.error (.refused why), t) := by
  rw [putFile, locate_of_follow hf ho]
  cases hn : isName p.fileName with
  | false => exact ⟨_, rfl⟩
  | true =>
    have hd : t.entryAt? (dir ++ [p.fileName]) = some .directory := by simpa [hn] using he
    simp only [if_true, hd]
    exact ⟨_, rfl⟩

/-- A file is moved over its neighbour, whatever they hold. -/
theorem renameFile_of_follow {name : String} (hf : t.follow [] p.parent = .ok dir)
    (ho : IsOrdinary p.fileName) (hp : isName p.fileName = true) (hn : IsOrdinary name)
    (hname : isName name = true) (hw : t.entryAt? (dir ++ [name]) = some e) (he : e ≠ .directory)
    (hold : t.entryAt? (dir ++ [p.fileName]) ≠ some .directory) :
    t.renameFile (p.withFileName name) p =
      (.ok (), (t.erase (dir ++ [name])).put (dir ++ [p.fileName]) e) := by
  have hfw : t.follow [] (p.withFileName name).parent = .ok dir := by simpa using hf
  have hlw : t.locate (p.withFileName name) = .ok (dir ++ [name]) := by
    rw [locate_of_follow hfw (by simpa using hn)]
    simp [hname]
  have hlp : t.locate p = .ok (dir ++ [p.fileName]) := by
    rw [locate_of_follow hf ho, if_pos hp]
  rw [renameFile, hlw, hlp]
  simp only [hw]

/-- The neighbour of a file is written twice, first empty and then with its text. -/
theorem putFile_neighbour {name old : String} (text : String)
    (hf : t.follow [] p.parent = .ok dir) (hn : IsOrdinary name) (hname : isName name = true)
    (hne : name ≠ p.fileName) (hw : t.entryAt? (dir ++ [name]) ≠ some .directory)
    (hold : t.entryAt? (dir ++ [p.fileName]) = some (.file old)) :
    ∃ t₁ t₂, t.putFile (p.withFileName name) "" = (.ok (), t₁) ∧
      t₁.putFile (p.withFileName name) text = (.ok (), t₂) ∧ SameDirectories t t₂ ∧
      t₂.entryAt? (dir ++ [name]) = some (.file text) ∧
      t₂.entryAt? (dir ++ [p.fileName]) = some (.file old) := by
  have hstart := ne_start_of_entryAt? hw
  have hneq : dir ++ [p.fileName] ≠ dir ++ [name] := by simpa using hne.symm
  have put : ∀ {t : FileTree} (text : String), t.follow [] p.parent = .ok dir →
      t.entryAt? (dir ++ [name]) ≠ some .directory →
      t.putFile (p.withFileName name) text = (.ok (), t.put (dir ++ [name]) (.file text)) := by
    intro t text hf hw
    have hf' : t.follow [] (p.withFileName name).parent = .ok dir := by simpa using hf
    have h := @putFile_of_follow _ _ _ text hf' (by simpa using hn) (by simpa using hname)
      (by simpa using hw)
    simpa using h
  have hs := sameDirectories_put (e := .file "") hw (by simp)
  have hw₁ : (t.put (dir ++ [name]) (.file "")).entryAt? (dir ++ [name]) ≠ some .directory :=
    fun h => hw ((hs _).mpr h)
  refine ⟨_, _, put "" hf hw, put text (follow_of_sameDirectories hs hf) hw₁,
    hs.trans (sameDirectories_put hw₁ (by simp)), ?_, ?_⟩
  · rw [entryAt?_put hstart, if_pos rfl]
  · rw [entryAt?_put hstart, if_neg hneq, entryAt?_put hstart, if_neg hneq, hold]

/-- The steps that replace a file by way of a neighbour. -/
def replaceSteps (p : Path) (name text : String) : List Step :=
  [.makeDirectory p.parent, .truncate (p.withFileName name), .write (p.withFileName name) text,
    .sync (p.withFileName name), .rename (p.withFileName name) p]

/-- A neighbour that can be written lets a file be replaced. -/
theorem applyAll_replace_ok {name old : String} (text : String) (ho : IsOrdinary p.fileName)
    (hn : IsOrdinary name) (hne : name ≠ p.fileName) (hf : t.follow [] p.parent = .ok dir)
    (hp : isName p.fileName = true) (hold : t.entryAt? (dir ++ [p.fileName]) = some (.file old))
    (hname : isName name = true) (hw : t.entryAt? (dir ++ [name]) ≠ some .directory) :
    ∃ t', t.applyAll (replaceSteps p name text) = (.ok (), t') ∧ t'.read p = .ok text ∧
      SameDirectories t t' := by
  have hneq : dir ++ [p.fileName] ≠ dir ++ [name] := by simpa using hne.symm
  obtain ⟨t₁, t₂, hput₁, hput₂, hs, hw₂, hold₂⟩ :=
    putFile_neighbour text hf hn hname hne hw hold
  have hf₂ := follow_of_sameDirectories hs hf
  have hrename := renameFile_of_follow hf₂ ho hp hn hname hw₂ (by simp) (by simp [hold₂])
  have hs₃ : SameDirectories t₂ (t₂.erase (dir ++ [name])) :=
    sameDirectories_erase (by rw [hw₂]; simp)
  have hold₃ : (t₂.erase (dir ++ [name])).entryAt? (dir ++ [p.fileName]) = some (.file old) := by
    rw [entryAt?_erase hneq, hold₂]
  have hs₄ := sameDirectories_put (e := .file text) (by rw [hold₃]; simp) (by simp)
  refine ⟨(t₂.erase (dir ++ [name])).put (dir ++ [p.fileName]) (.file text), ?_,
    (read_eq_ok_iff ho).mpr ⟨dir, ?_, hp, ?_⟩, hs.trans (hs₃.trans hs₄)⟩
  · simp only [replaceSteps, applyAll, apply, makeDirectories_of_follow hf, hput₁, hput₂, hrename]
  · exact follow_of_sameDirectories hs₄ (follow_of_sameDirectories hs₃ hf₂)
  · rw [entryAt?_put (ne_start_of_entryAt? (by rw [hold]; simp)), if_pos rfl]

theorem applyAll_replace {name old : String} (text : String) (ho : IsOrdinary p.fileName)
    (hn : IsOrdinary name) (hne : name ≠ p.fileName) (hr : t.read p = .ok old) :
    (∃ t', t.applyAll (replaceSteps p name text) = (.ok (), t') ∧ t'.read p = .ok text) ∨
      ∃ f, t.applyAll (replaceSteps p name text) = (.error f, t) := by
  obtain ⟨dir, hf, hp, hold⟩ := (read_eq_ok_iff ho).mp hr
  by_cases hok : isName name = true ∧ t.entryAt? (dir ++ [name]) ≠ some .directory
  · obtain ⟨t', ht', hread, -⟩ := applyAll_replace_ok text ho hn hne hf hp hold hok.1 hok.2
    exact .inl ⟨t', ht', hread⟩
  · obtain ⟨why, hput⟩ : ∃ why, t.putFile (p.withFileName name) "" = (.error (.refused why), t) :=
      putFile_refused (by simpa using hf) (by simpa using hn) (by simpa using hok)
    exact .inr ⟨(.truncate (p.withFileName name), .refused why), by
      simp only [replaceSteps, applyAll, apply, makeDirectories_of_follow hf, hput]⟩

theorem applyAll_remove {old : String} (ho : IsOrdinary p.fileName) (hr : t.read p = .ok old) :
    ∃ t', t.applyAll [.remove p] = (.ok (), t') ∧ t'.read p = .error .missing := by
  obtain ⟨dir, hf, hp, hold⟩ := (read_eq_ok_iff ho).mp hr
  have hd : t.entryAt? (dir ++ [p.fileName]) ≠ some .directory := by
    rw [hold]
    simp
  have hf' := follow_of_sameDirectories (sameDirectories_erase hd) hf
  refine ⟨t.erase (dir ++ [p.fileName]), ?_, ?_⟩
  · simp [applyAll, apply, removeFile, locate_of_follow hf ho, hp, hold]
  · simp [read, find, locate_of_follow hf' ho, hp, entryAt?_erase_self (ne_start_of_entryAt? hd)]

end FileTree
end StackKeeper
