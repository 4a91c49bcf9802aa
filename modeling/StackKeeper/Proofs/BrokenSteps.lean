import StackKeeper.Files.Shared
import StackKeeper.Proofs.TreeShape
/-!
# Steps that break

A step can fail for reasons that the tree does not show: the disk is full, or a directory may not be
written to. What it leaves is little all the same. Directories that were to be made may be there in
part, and a file that was open may be cut off or spoiled; a move or a removal that fails has not
happened. So replacing a file, wherever it is cut off, leaves directories on the way to that file and
its neighbour, and removing it leaves nothing.

That is so as long as the failure is noticed. The content of a file is handed over in pieces and
written behind the back of the writer, who learns with the next piece what became of the one before.
Nobody asks what became of the last one. When it fails the step counts as done, and the steps after it
are taken: the file that was cut off is moved into place.

Results:
* `cutOff_of_applyAll`, `cutOff_of_mem`: steps that fail by themselves are cut off, and any of them can
  be seen to fail.
* `CutOff.keeps`, `Slips.keeps`: what each step keeps is kept wherever steps are cut off, and when a
  loss goes unnoticed. So is the shape of the tree: `IsTree.cutOff`, `IsTree.slips`,
  `HasOnePaths.cutOff`, `HasOnePaths.slips`.
* `made_on_way`: directories are made on the way to where a path leads, unless it climbs.
* `alters_of_replace`, `alters_of_cutOff_replace`, `alters_of_slips_replace`: what replacing a file
  alters when it is done, cut off, or done with a part of the content lost.
* `slips_of_applyAll_replace`: wherever a file can be replaced, its content can be lost unnoticed.
* `read_of_alters`: what could be read or was refused answers as before when nothing is taken away.
-/
namespace StackKeeper

namespace Path

variable {start p q : Path}

theorem resolve_append_of_straight (h : ∀ c ∈ q, c ≠ "..") : start <+: resolve start q := by
  induction q generalizing start with
  | nil => exact List.prefix_rfl
  | cons c q ih =>
    obtain ⟨hc, hq⟩ := List.forall_mem_cons.mp h
    rw [resolve, if_neg hc]
    split
    · exact ih hq
    · exact (List.prefix_append start [c]).trans (ih hq)

theorem IsWritten.of_prefix (h : p.IsWritten) (hq : q <+: p) : q.IsWritten := by
  obtain ⟨rest, rfl⟩ := hq
  rcases h with h | ⟨p', hp, h⟩
  · exact .inl (isRelative_append.mp h).1
  · cases q with
    | nil => exact .inl (by simp [IsRelative])
    | cons c q =>
      obtain ⟨rfl, rfl⟩ := List.cons.inj hp
      exact .inr ⟨q, rfl, (isRelative_append.mp h).1⟩

end Path

namespace FileTree
open StackKeeper.Path

variable {t t₁ t' : FileTree} {p q x y dir start : Path} {e : FileEntry} {step failing : Step}
  {steps : List Step} {names : List String} {name : String} {f : FileFault} {piece : Nat}

/-! ## What a failure leaves -/

/-- The file that a step opens or has open. -/
def Step.opened? : Step → Option Path
  | .truncate p | .write p _ | .sync p => some p
  | .makeDirectory _ | .rename _ _ | .remove _ => none

/-- A file of which only the first bytes were written. -/
def cut (text : String) (n : Nat) : FileEntry :=
  match SharedFiles.text? ((SharedFiles.bytes text).take n) with
  | some head => .file head
  | none => .binary

/-- Where the last piece of a text starts. -/
def lastPiece (piece : Nat) (text : String) : Nat := (text.utf8ByteSize - 1) / piece * piece

/-- The trees differ in the file that a path leads to. -/
def Fills (p : Path) (e : FileEntry) (t t' : FileTree) : Prop :=
  ∃ q, t.locate p = .ok q ∧ t.entryAt? q ≠ some .directory ∧ e ≠ .directory ∧ t' = t.put q e

/-- What a step that fails may leave, whatever it fails for. A write is told of its failure if another
piece was to follow. -/
inductive Breaks (piece : Nat) (t : FileTree) : Step → FileTree → Prop
  | untouched (step : Step) : Breaks piece t step t
  | halfway {p q : Path} (h : q <+: p) :
    Breaks piece t (.makeDirectory p) (t.makeDirectories [] q).2
  | opening {p : Path} {e : FileEntry} {t' : FileTree} (h : Fills p e t t') :
    Breaks piece t (.truncate p) t'
  | writing {p : Path} {text : String} {n : Nat} {t' : FileTree} (hn : n < lastPiece piece text)
      (h : Fills p (cut text n) t t') : Breaks piece t (.write p text) t'
  | syncing {p : Path} {e : FileEntry} {t' : FileTree} (h : Fills p e t t') :
    Breaks piece t (.sync p) t'

/-- What a step leaves that failed and counts as done. -/
inductive Loses (piece : Nat) (t : FileTree) : Step → FileTree → Prop
  | writing {p : Path} {text : String} {n : Nat} {t' : FileTree} (hpiece : lastPiece piece text ≤ n)
      (hn : n < text.utf8ByteSize) (h : Fills p (cut text n) t t') :
    Loses piece t (.write p text) t'

/-- What a step leaves that counts as done. -/
def Passes (piece : Nat) (t : FileTree) (step : Step) (t' : FileTree) : Prop :=
  t.apply step = (.ok (), t') ∨ t.Loses piece step t'

/-- What steps one after another may leave when one of them is seen to fail. -/
inductive CutOff (piece : Nat) : FileTree → List Step → Step → FileTree → Prop
  | here {t t' : FileTree} {step : Step} (rest : List Step) (h : t.Breaks piece step t') :
    CutOff piece t (step :: rest) step t'
  | later {t t₁ t' : FileTree} {step failing : Step} {rest : List Step}
      (h : t.Passes piece step t₁) (hrest : CutOff piece t₁ rest failing t') :
    CutOff piece t (step :: rest) failing t'

/-- What steps one after another may leave when one of them fails and all count as done. -/
inductive Slips (piece : Nat) : FileTree → List Step → FileTree → Prop
  | here {t t₁ t' : FileTree} {step : Step} {rest : List Step} (h : t.Loses piece step t₁)
      (hrest : t₁.applyAll rest = (.ok (), t')) : Slips piece t (step :: rest) t'
  | later {t t₁ t' : FileTree} {step : Step} {rest : List Step} (h : t.apply step = (.ok (), t₁))
      (hrest : Slips piece t₁ rest t') : Slips piece t (step :: rest) t'

theorem cut_ne_directory (text : String) (n : Nat) : cut text n ≠ .directory := by
  rw [cut]
  split <;> simp

theorem cut_zero (text : String) : cut text 0 = .file "" := rfl

/-- A file is put where it leads, or nothing happens. -/
theorem putFile_ends (t : FileTree) (p : Path) (text : String) :
    (∃ f, t.putFile p text = (.error f, t)) ∨
      ∃ t', t.putFile p text = (.ok (), t') ∧ Fills p (.file text) t t' := by
  rw [putFile]
  cases hl : t.locate p with
  | error f => exact .inl ⟨f, rfl⟩
  | ok q =>
    dsimp only
    split
    · exact .inl ⟨_, rfl⟩
    · rename_i hq
      exact .inr ⟨_, rfl, q, hl, hq, by simp, rfl⟩

theorem Breaks.fills (h : t.Breaks piece step t') (ho : step.opened? = some p) :
    t' = t ∨ ∃ e, Fills p e t t' := by
  cases h with
  | untouched => exact .inl rfl
  | halfway => cases ho
  | opening h =>
    cases ho
    exact .inr ⟨_, h⟩
  | writing hn h =>
    cases ho
    exact .inr ⟨_, h⟩
  | syncing h =>
    cases ho
    exact .inr ⟨_, h⟩

theorem Passes.fills (h : t.Passes piece step t') (ho : step.opened? = some p) :
    t' = t ∨ ∃ e, Fills p e t t' := by
  have putFile : ∀ {text : String}, t.putFile p text = (.ok (), t') → ∃ e, Fills p e t t' := by
    intro text h
    rcases putFile_ends t p text with ⟨f, hput⟩ | ⟨t₁, hput, hfills⟩
    · cases hput.symm.trans h
    · cases hput.symm.trans h
      exact ⟨_, hfills⟩
  rcases h with h | ⟨-, -, h⟩
  · cases step <;> cases ho
    · exact .inr (putFile h)
    · exact .inr (putFile h)
    · cases h
      exact .inl rfl
  · cases ho
    exact .inr ⟨_, h⟩

theorem breaks_of_apply (h : t.apply step = (.error f, t')) : t.Breaks piece step t' := by
  have putFile : ∀ {p : Path} {text : String}, t.putFile p text = (.error f, t') → t' = t := by
    intro p text h
    rcases putFile_ends t p text with ⟨f', hput⟩ | ⟨t₁, hput, -⟩
    · exact (Prod.mk.inj (hput.symm.trans h)).2.symm
    · cases hput.symm.trans h
  cases step with
  | makeDirectory p =>
    rw [apply] at h
    rw [show t' = (t.makeDirectories [] p).2 by rw [h]]
    exact .halfway List.prefix_rfl
  | truncate p =>
    rw [putFile h]
    exact .untouched _
  | write p text =>
    rw [putFile h]
    exact .untouched _
  | sync p => cases h
  | rename source target =>
    rw [apply, renameFile] at h
    split at h
    · split at h <;> cases h <;> exact .untouched _
    · cases h
      exact .untouched _
    · cases h
      exact .untouched _
  | remove p =>
    rw [apply, removeFile] at h
    split at h
    · cases h
    · cases h
      exact .untouched _
    · split at h <;> cases h
      exact .untouched _

/-- Steps that fail by themselves are cut off. -/
theorem cutOff_of_applyAll (h : t.applyAll steps = (.error (failing, f), t')) :
    t.CutOff piece steps failing t' := by
  induction steps generalizing t with
  | nil => cases h
  | cons step steps ih =>
    rw [applyAll] at h
    split at h
    · rename_i t₁ heq
      exact .later (.inl heq) (ih h)
    · rename_i f' t₁ heq
      cases h
      exact .here _ (breaks_of_apply heq)

theorem applyAll_cons_eq_ok_iff {rest : List Step} : t.applyAll (step :: rest) = (.ok (), t') ↔
    ∃ t₁, t.apply step = (.ok (), t₁) ∧ t₁.applyAll rest = (.ok (), t') := by
  rw [applyAll]
  rcases t.apply step with ⟨answer, t₁⟩
  cases answer <;> simp

/-- Any step can be seen to fail. -/
theorem cutOff_of_mem (h : t.applyAll steps = (.ok (), t')) (hmem : failing ∈ steps) :
    ∃ t'', t.CutOff piece steps failing t'' := by
  induction steps generalizing t with
  | nil => cases hmem
  | cons step steps ih =>
    obtain ⟨t₁, happly, hrest⟩ := applyAll_cons_eq_ok_iff.mp h
    rcases List.mem_cons.mp hmem with rfl | hmem
    · exact ⟨t, .here _ (.untouched _)⟩
    · obtain ⟨t'', hc⟩ := ih hrest hmem
      exact ⟨t'', .later (.inl happly) hc⟩

/-! ## The shape that is kept -/

section Keeps

variable {P : FileTree → Prop}

theorem keeps_of_applyAll
    (hpass : ∀ step ∈ steps, ∀ t t' : FileTree, P t → t.Passes piece step t' → P t') (ht : P t)
    (h : t.applyAll steps = (.ok (), t')) : P t' := by
  induction steps generalizing t with
  | nil =>
    cases h
    exact ht
  | cons step steps ih =>
    obtain ⟨hstep, hsteps⟩ := List.forall_mem_cons.mp hpass
    obtain ⟨t₁, happly, hrest⟩ := applyAll_cons_eq_ok_iff.mp h
    exact ih hsteps (hstep t t₁ ht (.inl happly)) hrest

/-- What each step keeps, passed or broken, is kept wherever the steps are cut off. -/
theorem CutOff.keeps
    (hpass : ∀ step ∈ steps, ∀ t t' : FileTree, P t → t.Passes piece step t' → P t')
    (hbreak : ∀ step ∈ steps, ∀ t t' : FileTree, P t → t.Breaks piece step t' → P t') (ht : P t)
    (hc : t.CutOff piece steps failing t') : P t' := by
  induction hc with
  | here rest hb => exact hbreak _ List.mem_cons_self _ _ ht hb
  | later hstep _ ih =>
    obtain ⟨hpass, hpass'⟩ := List.forall_mem_cons.mp hpass
    exact ih hpass' (List.forall_mem_cons.mp hbreak).2 (hpass _ _ ht hstep)

/-- What each step keeps that passes is kept when a loss goes unnoticed. -/
theorem Slips.keeps
    (hpass : ∀ step ∈ steps, ∀ t t' : FileTree, P t → t.Passes piece step t' → P t') (ht : P t)
    (hs : t.Slips piece steps t') : P t' := by
  induction hs with
  | here hlost hrest =>
    obtain ⟨hpass, hpass'⟩ := List.forall_mem_cons.mp hpass
    exact keeps_of_applyAll hpass' (hpass _ _ ht (.inr hlost)) hrest
  | later hstep _ ih =>
    obtain ⟨hpass, hpass'⟩ := List.forall_mem_cons.mp hpass
    exact ih hpass' (hpass _ _ ht (.inl hstep))

end Keeps

theorem IsTree.fills (h : t.IsTree) (hp : p.IsWritten) (hf : Fills p e t t') : t'.IsTree := by
  obtain ⟨q, hl, hq, -, rfl⟩ := hf
  exact h.putLocated hp hl hq

theorem IsTree.breaks (h : t.IsTree) (hw : step.IsWritten) (hb : t.Breaks piece step t') :
    t'.IsTree := by
  cases hb with
  | untouched => exact h
  | @halfway p q hq =>
    have hq' : (Step.makeDirectory q).IsWritten := IsWritten.of_prefix hw hq
    exact h.apply hq'
  | opening hf => exact h.fills hw hf
  | writing _ hf => exact h.fills hw hf
  | syncing hf => exact h.fills hw hf

theorem IsTree.passes (h : t.IsTree) (hw : step.IsWritten) (hp : t.Passes piece step t') :
    t'.IsTree := by
  rcases hp with happly | ⟨-, -, hf⟩
  · have hnext := h.apply hw
    rwa [happly] at hnext
  · exact h.fills hw hf

theorem IsTree.cutOff (h : t.IsTree) (hw : ∀ step ∈ steps, step.IsWritten)
    (hc : t.CutOff piece steps failing t') : t'.IsTree :=
  hc.keeps (fun step hmem _ _ ht => ht.passes (hw step hmem))
    (fun step hmem _ _ ht => ht.breaks (hw step hmem)) h

theorem IsTree.slips (h : t.IsTree) (hw : ∀ step ∈ steps, step.IsWritten)
    (hs : t.Slips piece steps t') : t'.IsTree :=
  hs.keeps (fun step hmem _ _ ht => ht.passes (hw step hmem)) h

/-- No path has two entries. -/
def HasOnePaths (t : FileTree) : Prop := (t.entries.map (·.1)).Nodup

namespace HasOnePaths

theorem erase (h : t.HasOnePaths) (p : Path) : (t.erase p).HasOnePaths :=
  h.sublist (List.filter_sublist.map _)

theorem put (h : t.HasOnePaths) (p : Path) (e : FileEntry) : (t.put p e).HasOnePaths := by
  rw [HasOnePaths, FileTree.put, List.map_cons, List.nodup_cons]
  refine ⟨fun hmem => ?_, h.erase p⟩
  obtain ⟨a, ha, hp⟩ := List.mem_map.mp hmem
  simpa [hp] using (List.mem_filter.mp ha).2

theorem fills (h : t.HasOnePaths) (hf : Fills p e t t') : t'.HasOnePaths := by
  obtain ⟨q, -, -, -, rfl⟩ := hf
  exact h.put q e

theorem makeDirectories (h : t.HasOnePaths) (start p : Path) :
    (t.makeDirectories start p).2.HasOnePaths := by
  fun_induction FileTree.makeDirectories t start p with
  | case1 t start => exact h
  | case2 t start rest ih => exact ih h
  | case3 t start rest hdot ih => exact ih h
  | case4 t start c rest hdot hdots hn => exact h
  | case5 t start c rest hdot hdots hn hd ih => exact ih h
  | case6 t start c rest hdot hdots hn e hd => exact h
  | case7 t start c rest hdot hdots hn hnone ih => exact ih (h.put _ _)

theorem apply (h : t.HasOnePaths) (step : Step) : (t.apply step).2.HasOnePaths := by
  have putFile : ∀ (p : Path) (text : String), (t.putFile p text).2.HasOnePaths := by
    intro p text
    rcases putFile_ends t p text with ⟨f, hput⟩ | ⟨t', hput, hfills⟩
    · rwa [hput]
    · rw [hput]
      exact h.fills hfills
  cases step with
  | makeDirectory p => exact h.makeDirectories [] p
  | truncate p => exact putFile p ""
  | write p text => exact putFile p text
  | sync p => exact h
  | rename source target =>
    rw [FileTree.apply, renameFile]
    split
    · split
      · exact h
      · exact h
      · exact h
      · exact (h.erase _).put _ _
    · exact h
    · exact h
  | remove p =>
    rw [FileTree.apply, removeFile]
    split
    · exact h
    · exact h
    · split
      · exact h
      · exact h
      · exact h.erase _

theorem applyAll (h : t.HasOnePaths) (steps : List Step) : (t.applyAll steps).2.HasOnePaths := by
  induction steps generalizing t with
  | nil => exact h
  | cons step steps ih =>
    have hnext := h.apply step
    rw [FileTree.applyAll]
    split
    · rename_i heq
      rw [heq] at hnext
      exact ih hnext
    · rename_i heq
      rwa [heq] at hnext

theorem passes (h : t.HasOnePaths) (hp : t.Passes piece step t') : t'.HasOnePaths := by
  rcases hp with happly | ⟨-, -, hf⟩
  · have hnext := h.apply step
    rwa [happly] at hnext
  · exact h.fills hf

theorem breaks (h : t.HasOnePaths) (hb : t.Breaks piece step t') : t'.HasOnePaths := by
  cases hb with
  | untouched => exact h
  | halfway => exact h.makeDirectories _ _
  | opening hf => exact h.fills hf
  | writing _ hf => exact h.fills hf
  | syncing hf => exact h.fills hf

theorem cutOff (h : t.HasOnePaths) (hc : t.CutOff piece steps failing t') : t'.HasOnePaths :=
  hc.keeps (fun _ _ _ _ ht => ht.passes) (fun _ _ _ _ ht => ht.breaks) h

theorem slips (h : t.HasOnePaths) (hs : t.Slips piece steps t') : t'.HasOnePaths :=
  hs.keeps (fun _ _ _ _ ht => ht.passes) h

end HasOnePaths

/-- Below what is missing nothing is there. -/
theorem IsTree.none_of_prefix (h : t.IsTree) (hx : t.entryAt? x = none) (hp : x <+: p) :
    t.entryAt? p = none := by
  obtain ⟨rest, rfl⟩ := hp
  induction rest generalizing x with
  | nil => rwa [List.append_nil]
  | cons c rest ih =>
    have hnext : t.entryAt? (x ++ [c]) = none := by
      cases he : t.entryAt? (x ++ [c]) with
      | none => rfl
      | some e =>
        have hdir := h.lies _ _ he
        rw [List.dropLast_concat, hx] at hdir
        cases hdir
    simpa using ih hnext

/-! ## Paths that lead nowhere -/

theorem follow_append_error (h : t.follow start p = .error f) (q : Path) :
    t.follow start (p ++ q) = .error f := by
  fun_induction follow t start p with
  | case1 start => cases h
  | case2 start rest ih =>
    rw [List.cons_append, follow, if_pos rfl]
    exact ih h
  | case3 start rest hdot ih =>
    rw [List.cons_append, follow, if_neg hdot, if_pos rfl]
    exact ih h
  | case4 start c rest hdot hdots hn =>
    cases h
    rw [List.cons_append, follow, if_neg hdot, if_neg hdots, if_pos hn]
  | case5 start c rest hdot hdots hn hd ih =>
    rw [List.cons_append, follow, if_neg hdot, if_neg hdots, if_neg hn, hd]
    exact ih h
  | case6 start c rest hdot hdots hn e hdir hd =>
    cases h
    rw [List.cons_append, follow, if_neg hdot, if_neg hdots, if_neg hn]
    split
    · rename_i hd'
      exact absurd (Option.some.inj (hd.symm.trans hd')) hdir
    · rfl
    · rename_i hd'
      cases hd.symm.trans hd'
  | case7 start c rest hdot hdots hn hd =>
    cases h
    rw [List.cons_append, follow, if_neg hdot, if_neg hdots, if_neg hn, hd]

/-- Where a path leads nowhere, there is a first name on it that is missing. -/
theorem exists_of_missing (h : t.follow start p = .error .missing) :
    ∃ q c rest dir, p = q ++ c :: rest ∧ t.follow start q = .ok dir ∧ c ≠ "." ∧ c ≠ ".." ∧
      isName c = true ∧ t.entryAt? (dir ++ [c]) = none := by
  fun_induction follow t start p with
  | case1 start => cases h
  | case2 start rest ih =>
    obtain ⟨q, c, rest', dir, rfl, hq, hc⟩ := ih h
    exact ⟨"." :: q, c, rest', dir, rfl, by rw [follow, if_pos rfl, hq], hc⟩
  | case3 start rest hdot ih =>
    obtain ⟨q, c, rest', dir, rfl, hq, hc⟩ := ih h
    exact ⟨".." :: q, c, rest', dir, rfl, by rw [follow, if_neg hdot, if_pos rfl, hq], hc⟩
  | case4 start c rest hdot hdots hn => cases h
  | case5 start c rest hdot hdots hn hd ih =>
    obtain ⟨q, c', rest', dir, rfl, hq, hc⟩ := ih h
    exact ⟨c :: q, c', rest', dir, rfl,
      by rw [follow, if_neg hdot, if_neg hdots, if_neg hn, hd]; exact hq, hc⟩
  | case6 start c rest hdot hdots hn e hdir hd => cases h
  | case7 start c rest hdot hdots hn hd =>
    exact ⟨[], c, rest, start, rfl, rfl, hdot, hdots, by simpa using hn, hd⟩

theorem makeDirectories_of_refused {why : Refusal} (h : t.follow start p = .error (.refused why)) :
    ∃ why', t.makeDirectories start p = (.error (.refused why'), t) := by
  fun_induction follow t start p with
  | case1 start => cases h
  | case2 start rest ih =>
    rw [makeDirectories, if_pos rfl]
    exact ih h
  | case3 start rest hdot ih =>
    rw [makeDirectories, if_neg hdot, if_pos rfl]
    exact ih h
  | case4 start c rest hdot hdots hn =>
    rw [makeDirectories, if_neg hdot, if_neg hdots, if_pos hn]
    exact ⟨_, rfl⟩
  | case5 start c rest hdot hdots hn hd ih =>
    rw [makeDirectories, if_neg hdot, if_neg hdots, if_neg hn, hd]
    exact ih h
  | case6 start c rest hdot hdots hn e hdir hd =>
    rw [makeDirectories, if_neg hdot, if_neg hdots, if_neg hn]
    split
    · rename_i hd'
      exact absurd (Option.some.inj (hd.symm.trans hd')) hdir
    · exact ⟨_, rfl⟩
    · rename_i hd'
      cases hd.symm.trans hd'
  | case7 start c rest hdot hdots hn hd => cases h

/-- Along a path that does not climb, directories are made on the way to where it leads. -/
theorem made_of_straight (hp : ∀ c ∈ p, c ≠ "..") (hx : t.entryAt? x = none)
    (hd : (t.makeDirectories start p).2.entryAt? x = some .directory) : x <+: resolve start p := by
  fun_induction makeDirectories t start p with
  | case1 t start => cases hx.symm.trans hd
  | case2 t start rest ih =>
    rw [resolve, if_pos rfl]
    exact ih (fun c hc => hp c (List.mem_cons_of_mem _ hc)) hx hd
  | case3 t start rest hdot ih => exact absurd rfl (hp ".." List.mem_cons_self)
  | case4 t start c rest hdot hdots hn => cases hx.symm.trans hd
  | case5 t start c rest hdot hdots hn hd' ih =>
    rw [resolve, if_neg hdot, if_neg hdots]
    exact ih (fun c hc => hp c (List.mem_cons_of_mem _ hc)) hx hd
  | case6 t start c rest hdot hdots hn e hd' => cases hx.symm.trans hd
  | case7 t start c rest hdot hdots hn hnone ih =>
    have hrest : ∀ c ∈ rest, c ≠ ".." := fun c hc => hp c (List.mem_cons_of_mem _ hc)
    rw [resolve, if_neg hdot, if_neg hdots]
    by_cases hxc : x = start ++ [c]
    · rw [hxc]
      exact resolve_append_of_straight hrest
    · refine ih hrest ?_ hd
      rw [entryAt?_put (ne_start_of_entryAt? (t := t) (by simp [hnone])), if_neg hxc, hx]

/-- Whether a path, from where it leads nowhere, does not climb. -/
def NeverClimbs (t : FileTree) (p : Path) : Prop :=
  ∀ q c rest, p = q ++ c :: rest → t.follow [] q = .error .missing → c ≠ ".."

/-- A part of a path that leads nowhere is followed by names alone. -/
theorem NeverClimbs.straight (h : t.NeverClimbs p) {c : String} {rest : Path}
    (hp : p = q ++ c :: rest) (hc : c ≠ "..") (hq : t.follow [] (q ++ [c]) = .error .missing) :
    ∀ c' ∈ c :: rest, c' ≠ ".." := by
  rintro c' hc'
  rcases List.mem_cons.mp hc' with rfl | hmem
  · exact hc
  · obtain ⟨r₁, r₂, rfl⟩ := List.append_of_mem hmem
    refine h (q ++ [c] ++ r₁) c' r₂ (by simp [hp]) ?_
    exact follow_append_error hq r₁

/-- Directories are made on the way to where a path leads, unless it climbs. -/
theorem made_on_way (hp : t.NeverClimbs p) (hq : q <+: p) (hx : t.entryAt? x = none)
    (hd : (t.makeDirectories [] q).2.entryAt? x = some .directory) : x <+: resolve [] p := by
  obtain ⟨more, rfl⟩ := hq
  cases hf : t.follow [] q with
  | ok dir =>
    rw [makeDirectories_of_follow hf, hx] at hd
    cases hd
  | error f =>
    cases f with
    | refused =>
      obtain ⟨_, hmade⟩ := makeDirectories_of_refused hf
      rw [hmade, hx] at hd
      cases hd
    | missing =>
      obtain ⟨q₀, c, rest, dir, rfl, hq₀, hdot, hdots, hn, hnone⟩ := exists_of_missing hf
      have hmissing : t.follow [] (q₀ ++ [c]) = .error .missing := by
        rw [follow_append hq₀, follow, if_neg hdot, if_neg hdots, hn, hnone]
        rfl
      have hstraight : ∀ c' ∈ c :: (rest ++ more), c' ≠ ".." :=
        hp.straight (by simp) hdots hmissing
      rw [← List.cons_append] at hstraight
      obtain ⟨hrest, hmore⟩ := List.forall_mem_append.mp hstraight
      rw [makeDirectories_append hq₀] at hd
      rw [resolve_append, resolve_append, ← eq_resolve_of_follow hq₀]
      exact (made_of_straight hrest hx hd).trans (resolve_append_of_straight hmore)

/-! ## What replacing a file alters -/

/-- The trees differ in directories that were made on the way to a directory, and in files of the
given names in it. -/
def Alters (dir : Path) (names : List String) (t t' : FileTree) : Prop :=
  ∀ p, t'.entryAt? p = t.entryAt? p ∨
    (t.entryAt? p = none ∧ t'.entryAt? p = some .directory ∧ p <+: dir) ∨
    ((∃ name ∈ names, p = dir ++ [name]) ∧ t.entryAt? p ≠ some .directory ∧
      t'.entryAt? p ≠ some .directory)

/-- Nothing is missing from the one tree that is in the other. -/
def KeepsEntries (t t' : FileTree) : Prop := ∀ p, t.entryAt? p ≠ none → t'.entryAt? p ≠ none

namespace KeepsEntries

theorem refl (t : FileTree) : KeepsEntries t t := fun _ => id

theorem trans (h : KeepsEntries t t₁) (h' : KeepsEntries t₁ t') : KeepsEntries t t' :=
  fun p hp => h' p (h p hp)

end KeepsEntries

theorem Grows.keepsEntries (h : Grows t t') : KeepsEntries t t' := by
  intro p hp
  rcases h p with he | ⟨-, hd⟩
  · rwa [he]
  · simp [hd]

theorem keepsEntries_put (hq : t.entryAt? q ≠ some .directory) : KeepsEntries t (t.put q e) := by
  intro p hp
  rw [entryAt?_put (ne_start_of_entryAt? hq)]
  split
  · simp
  · exact hp

theorem Alters.keepsDirectories (h : Alters dir names t t') : KeepsDirectories t t' := by
  intro p hp
  rcases h p with he | ⟨-, hd, -⟩ | ⟨-, hno, -⟩
  · rw [he, hp]
  · exact hd
  · exact absurd hp hno

/-- Directories are made first, and then files are touched. -/
theorem alters_of_touches (hp : t.NeverClimbs p) (hq : q <+: p) (hdir : resolve [] p = dir)
    (h : TouchesOnly (names.map fun name => dir ++ [name]) (t.makeDirectories [] q).2 t') :
    Alters dir names t t' := by
  intro x
  rcases h x with hx | ⟨hmem, hno, hno'⟩
  · rcases grows_makeDirectories t [] q x with he | ⟨hnone, hd⟩
    · exact .inl (hx.trans he)
    · exact .inr (.inl ⟨hnone, hx.trans hd, hdir ▸ made_on_way hp hq hnone hd⟩)
  · obtain ⟨name, hname, rfl⟩ := List.mem_map.mp hmem
    refine .inr (.inr ⟨⟨name, hname, rfl⟩, fun hd => hno ?_, hno'⟩)
    exact (grows_makeDirectories t [] q).keeps _ hd

theorem touches_of_fills (hf : t.follow [] p.parent = .ok dir) (hn : IsOrdinary p.fileName)
    (h : Fills p e t t') :
    TouchesOnly [dir ++ [p.fileName]] t t' ∧ KeepsEntries t t' := by
  obtain ⟨q, hl, hq, he, rfl⟩ := h
  rw [locate_of_follow hf hn] at hl
  split at hl
  · cases hl
    exact ⟨touchesOnly_put hq he, keepsEntries_put hq⟩
  · cases hl

/-- What a step with one file open leaves, passed or broken. -/
theorem touches_of_opened (ho : step.opened? = some p) (hf : t.follow [] p.parent = .ok dir)
    (hn : IsOrdinary p.fileName) (h : t.Passes piece step t' ∨ t.Breaks piece step t') :
    TouchesOnly [dir ++ [p.fileName]] t t' ∧ KeepsEntries t t' := by
  have hfills : t' = t ∨ ∃ e, Fills p e t t' := h.elim (·.fills ho) (·.fills ho)
  rcases hfills with rfl | ⟨e, hfills⟩
  · exact ⟨.refl _ _, .refl _⟩
  · exact touches_of_fills hf hn hfills

/-- Cut off while one file is open and before that is moved, steps have touched it alone. -/
theorem touches_of_cutOff {target : Path} (ho : ∀ step ∈ steps, step.opened? = some p)
    (hf : t.follow [] p.parent = .ok dir) (hn : IsOrdinary p.fileName)
    (h : t.CutOff piece (steps ++ [.rename p target]) failing t') :
    TouchesOnly [dir ++ [p.fileName]] t t' ∧ KeepsEntries t t' := by
  induction steps generalizing t with
  | nil =>
    cases h with
    | here _ hb =>
      cases hb
      exact ⟨.refl _ _, .refl _⟩
    | later _ hrest => cases hrest
  | cons step steps ih =>
    obtain ⟨hstep, hsteps⟩ := List.forall_mem_cons.mp ho
    cases h with
    | here _ hb => exact touches_of_opened hstep hf hn (.inr hb)
    | later hpass hrest =>
      obtain ⟨htouch, hkeeps⟩ := touches_of_opened hstep hf hn (.inl hpass)
      obtain ⟨htouch', hkeeps'⟩ :=
        ih hsteps (follow_of_sameDirectories htouch.sameDirectories hf) hrest
      exact ⟨htouch.trans htouch', hkeeps.trans hkeeps'⟩

/-- Replacing a file alters it and its neighbour. -/
theorem alters_of_replace {text : String} (hp : t.NeverClimbs p.parent) (ho : IsOrdinary p.fileName)
    (hn : IsOrdinary name) (hne : name ≠ p.fileName)
    (h : t.applyAll (replaceSteps p name text) = (.ok (), t')) :
    Alters (resolve [] p.parent) [name, p.fileName] t t' := by
  obtain ⟨t₁, rfl, ⟨t₂, happly, htouch, -⟩ | ⟨f, t₂, happly, -⟩⟩ :=
    replace_cases (t := t) text ho hn hne rfl
  · cases happly.symm.trans h
    exact alters_of_touches hp List.prefix_rfl rfl htouch
  · cases happly.symm.trans h

/-- Replacing a file that is cut off alters its neighbour alone, and takes nothing away. -/
theorem alters_of_cutOff_replace {text : String} (hp : t.NeverClimbs p.parent)
    (hn : IsOrdinary name) (h : t.CutOff piece (replaceSteps p name text) failing t') :
    Alters (resolve [] p.parent) [name] t t' ∧ KeepsEntries t t' := by
  have halfway : ∀ {q : Path}, q <+: p.parent →
      Alters (resolve [] p.parent) [name] t (t.makeDirectories [] q).2 ∧
        KeepsEntries t (t.makeDirectories [] q).2 := fun hq =>
    ⟨alters_of_touches hp hq rfl (.refl _ _), (grows_makeDirectories t [] _).keepsEntries⟩
  rw [replaceSteps] at h
  cases h with
  | here _ hb =>
    cases hb with
    | untouched => exact halfway (List.nil_prefix)
    | halfway hq => exact halfway hq
  | @later _ t₁ _ _ _ _ hpass hrest =>
    have happly : t.makeDirectories [] p.parent = (.ok (), t₁) := by
      rcases hpass with happly | hlost
      · exact happly
      · cases hlost
    have hmade : t₁ = (t.makeDirectories [] p.parent).2 := by rw [happly]
    have hf : t₁.follow [] (p.withFileName name).parent = .ok (resolve [] p.parent) := by
      rw [parent_withFileName, hmade]
      exact follow_makeDirectories (by rw [happly])
    obtain ⟨htouch, hkeeps⟩ := touches_of_cutOff
      (show ∀ step ∈ [Step.truncate _, .write _ text, .sync _], _ by simp [Step.opened?]) hf
      (by simpa using hn) hrest
    rw [fileName_withFileName] at htouch
    rw [hmade] at htouch hkeeps
    exact ⟨alters_of_touches hp List.prefix_rfl rfl htouch,
      (grows_makeDirectories t [] p.parent).keepsEntries.trans hkeeps⟩

/-- A removal that is cut off has not happened. -/
theorem eq_of_cutOff_remove (h : t.CutOff piece [.remove p] failing t') : t' = t := by
  cases h with
  | here _ hb =>
    cases hb
    rfl
  | later _ hrest => cases hrest

/-! ## What a loss leaves -/

/-- Replacing a file passes unnoticed what is lost of the text, exactly if all else is done. -/
theorem slips_replace_iff {text : String} : t.Slips piece (replaceSteps p name text) t' ↔
    ∃ t₁ t₂ t₃ n, t.apply (.makeDirectory p.parent) = (.ok (), t₁) ∧
      t₁.apply (.truncate (p.withFileName name)) = (.ok (), t₂) ∧
      lastPiece piece text ≤ n ∧ n < text.utf8ByteSize ∧
      Fills (p.withFileName name) (cut text n) t₂ t₃ ∧
      t₃.apply (.rename (p.withFileName name) p) = (.ok (), t') := by
  constructor
  · intro h
    rw [replaceSteps] at h
    cases h with
    | here hlost _ => cases hlost
    | @later _ t₁ _ _ _ hmade h =>
      cases h with
      | here hlost _ => cases hlost
      | @later _ t₂ _ _ _ hopened h =>
        cases h with
        | @here _ t₃ _ _ _ hlost hrest =>
          cases hlost with
          | @writing _ _ n _ hpiece hn hfills =>
            rw [applyAll_cons_ok (.sync _) rfl] at hrest
            obtain ⟨t₄, hrename, hend⟩ := applyAll_cons_eq_ok_iff.mp hrest
            cases hend
            exact ⟨t₁, t₂, t₃, n, hmade, hopened, hpiece, hn, hfills, hrename⟩
        | later _ h =>
          -- Past the content nothing can be lost.
          cases h with
          | here hlost _ => cases hlost
          | later _ h =>
            cases h with
            | here hlost _ => cases hlost
            | later _ h => cases h
  · rintro ⟨t₁, t₂, t₃, n, hmade, hopened, hpiece, hn, hfills, hrename⟩
    refine .later hmade (.later hopened (.here (.writing hpiece hn hfills) ?_))
    rw [applyAll_cons_ok (.sync _) rfl, applyAll_cons_ok (.rename _ _) hrename, applyAll]

/-- The neighbour that is open before its content is written. -/
theorem opened_of_apply (hn : IsOrdinary name)
    (hmade : t.apply (.makeDirectory p.parent) = (.ok (), t₁)) {t₂ : FileTree}
    (hopened : t₁.apply (.truncate (p.withFileName name)) = (.ok (), t₂)) :
    t₁ = (t.makeDirectories [] p.parent).2 ∧ isName name = true ∧
      t₂.follow [] (p.withFileName name).parent = .ok (resolve [] p.parent) ∧
      TouchesOnly [resolve [] p.parent ++ [name]] t₁ t₂ := by
  rw [apply] at hmade
  have ht₁ : t₁ = (t.makeDirectories [] p.parent).2 := by rw [hmade]
  have hf : t₁.follow [] (p.withFileName name).parent = .ok (resolve [] p.parent) := by
    rw [parent_withFileName, ht₁]
    exact follow_makeDirectories (by rw [hmade])
  rcases putFile_cases "" hf (by simpa using hn) with ⟨hname, hw, hput⟩ | ⟨why, hput⟩
  · cases hput.symm.trans hopened
    rw [fileName_withFileName] at hname hw
    rw [fileName_withFileName]
    have htouch := touchesOnly_put (e := .file "") hw (by simp)
    exact ⟨ht₁, hname, follow_of_sameDirectories htouch.sameDirectories hf, htouch⟩
  · cases hput.symm.trans hopened

/-- Replacing a file with a part of the text lost alters what replacing it alters, and leaves the
part that was not lost. -/
theorem alters_of_slips_replace {text : String} (hp : t.NeverClimbs p.parent)
    (ho : IsOrdinary p.fileName) (hn : IsOrdinary name) (hne : name ≠ p.fileName)
    (h : t.Slips piece (replaceSteps p name text) t') :
    Alters (resolve [] p.parent) [name, p.fileName] t t' ∧
      ∃ n, lastPiece piece text ≤ n ∧ n < text.utf8ByteSize ∧
        t'.entryAt? (resolve [] p.parent ++ [p.fileName]) = some (cut text n) := by
  obtain ⟨t₁, t₂, t₃, n, hmade, hopened, hpiece, hlt, hfills, hrename⟩ := slips_replace_iff.mp h
  obtain ⟨rfl, hname, hf₂, htouch₂⟩ := opened_of_apply hn hmade hopened
  obtain ⟨htouch₃, -⟩ := touches_of_fills hf₂ (by simpa using hn) hfills
  rw [fileName_withFileName] at htouch₃
  have hw : t₃.entryAt? (resolve [] p.parent ++ [name]) = some (cut text n) := by
    obtain ⟨q, hl, hq, -, rfl⟩ := hfills
    rw [locate_of_follow hf₂ (by simpa using hn), fileName_withFileName, if_pos hname] at hl
    cases hl
    rw [entryAt?_put (ne_start_of_entryAt? hq), if_pos rfl]
  have hf₃ : t₃.follow [] p.parent = .ok (resolve [] p.parent) := by
    have := follow_of_sameDirectories htouch₃.sameDirectories hf₂
    rwa [parent_withFileName] at this
  obtain ⟨hmoved, -, hnew⟩ :=
    touchesOnly_rename hf₃ ho hn hname hne hw (cut_ne_directory text n) hrename
  refine ⟨alters_of_touches hp List.prefix_rfl rfl ?_, n, hpiece, hlt, hnew⟩
  exact ((htouch₂.trans htouch₃).mono (by simp)).trans hmoved

/-- Whatever a file holds, it can be moved as if it held something else. -/
theorem exists_renameFile_of_put {e' : FileEntry} (hf : t.follow [] p.parent = .ok dir)
    (ho : IsOrdinary p.fileName) (hn : IsOrdinary name) (hne : name ≠ p.fileName)
    (hname : isName name = true) (hw : t.entryAt? (dir ++ [name]) ≠ some .directory)
    (he : e ≠ .directory) (he' : e' ≠ .directory)
    (h : (t.put (dir ++ [name]) e).renameFile (p.withFileName name) p = (.ok (), t')) :
    ∃ t'', (t.put (dir ++ [name]) e').renameFile (p.withFileName name) p = (.ok (), t'') ∧
      t''.find p = .ok e' := by
  have hthere : ∀ e : FileEntry, (t.put (dir ++ [name]) e).entryAt? (dir ++ [name]) = some e := by
    intro e
    rw [entryAt?_put (ne_start_of_entryAt? hw), if_pos rfl]
  have hs := sameDirectories_put hw he
  have hs' := sameDirectories_put hw he'
  rcases renameFile_cases (follow_of_sameDirectories hs hf) ho hn hname (hthere e) he with
    ⟨hp, hold, -⟩ | ⟨why, hfails⟩
  · have hold' : (t.put (dir ++ [name]) e').entryAt? (dir ++ [p.fileName]) ≠ some .directory :=
      fun hd => hold ((hs _).mp ((hs' _).mpr hd))
    have hf' := follow_of_sameDirectories hs' hf
    have hmoved := renameFile_of_follow hf' ho hp hn hname (hthere e') he' hold'
    obtain ⟨htouch, -, hnew⟩ := touchesOnly_rename hf' ho hn hname hne (hthere e') he' hmoved
    refine ⟨_, hmoved, ?_⟩
    rw [find, locate_of_follow (follow_of_sameDirectories htouch.sameDirectories hf') ho, if_pos hp]
    simp only [hnew]
  · cases hfails.symm.trans h

/-- Wherever a file can be replaced, its content can be lost unnoticed. -/
theorem slips_of_applyAll_replace {text : String} {n : Nat} (ho : IsOrdinary p.fileName)
    (hn : IsOrdinary name) (hne : name ≠ p.fileName) (hpiece : lastPiece piece text ≤ n)
    (hlt : n < text.utf8ByteSize) (h : t.applyAll (replaceSteps p name text) = (.ok (), t')) :
    ∃ t'', t.Slips piece (replaceSteps p name text) t'' ∧ t''.find p = .ok (cut text n) := by
  rw [replaceSteps] at h
  obtain ⟨t₁, hmade, h⟩ := applyAll_cons_eq_ok_iff.mp h
  obtain ⟨t₂, hopened, h⟩ := applyAll_cons_eq_ok_iff.mp h
  obtain ⟨t₃, hwritten, h⟩ := applyAll_cons_eq_ok_iff.mp h
  rw [applyAll_cons_ok (.sync _) rfl] at h
  obtain ⟨t₄, hrename, -⟩ := applyAll_cons_eq_ok_iff.mp h
  obtain ⟨-, hname, hf, -⟩ := opened_of_apply hn hmade hopened
  rcases putFile_cases text hf (by simpa using hn) with ⟨-, hw, hput⟩ | ⟨why, hput⟩
  · cases hput.symm.trans hwritten
    rw [fileName_withFileName] at hw hrename
    have hcut := cut_ne_directory text n
    obtain ⟨t'', hmoved, hnew⟩ := @exists_renameFile_of_put _ _ _ _ (.file text) _ _
      (by simpa using hf) ho hn hne hname hw (by simp) hcut hrename
    refine ⟨t'', slips_replace_iff.mpr
      ⟨t₁, t₂, _, n, hmade, hopened, hpiece, hlt, ⟨_, ?_, hw, hcut, rfl⟩, hmoved⟩, hnew⟩
    rw [locate_of_follow hf (by simpa using hn), fileName_withFileName, if_pos hname]
  · cases hput.symm.trans hwritten

/-- Nothing is lost of a removal. -/
theorem not_slips_remove : ¬ t.Slips piece [.remove p] t' := by
  intro h
  cases h with
  | here hlost _ => cases hlost
  | later _ hrest => cases hrest

/-! ## What is read afterwards -/

theorem follow_refused_of_alters {why : Refusal} (h : Alters dir names t t')
    (hk : KeepsEntries t t') (hf : t.follow start p = .error (.refused why)) :
    t'.follow start p = .error (.refused why) := by
  fun_induction follow t start p with
  | case1 start => cases hf
  | case2 start rest ih =>
    rw [follow, if_pos rfl]
    exact ih hf
  | case3 start rest hdot ih =>
    rw [follow, if_neg hdot, if_pos rfl]
    exact ih hf
  | case4 start c rest hdot hdots hn => rwa [follow, if_neg hdot, if_neg hdots, if_pos hn]
  | case5 start c rest hdot hdots hn hd ih =>
    rw [follow, if_neg hdot, if_neg hdots, if_neg hn, h.keepsDirectories _ hd]
    exact ih hf
  | case6 start c rest hdot hdots hn e hdir hd =>
    have hthere := hk (start ++ [c]) (by simp [hd])
    have hfile : t'.entryAt? (start ++ [c]) ≠ some .directory := by
      rcases h (start ++ [c]) with he | ⟨hnone, -⟩ | ⟨-, -, hno⟩
      · rw [he, hd]
        exact fun he' => hdir (Option.some.inj he')
      · cases hd.symm.trans hnone
      · exact hno
    rw [follow, if_neg hdot, if_neg hdots, if_neg hn]
    split
    · rename_i hd'
      exact absurd hd' hfile
    · exact hf
    · rename_i hd'
      exact absurd hd' hthere
  | case7 start c rest hdot hdots hn hd => cases hf

/-- What could be read or was refused answers as before, as long as nothing is taken away. -/
theorem read_of_alters (h : Alters dir names t t') (hk : KeepsEntries t t')
    (ho : IsOrdinary p.fileName) (hn : p.fileName ∉ names) (hr : t.read p ≠ .error .missing) :
    t'.read p = t.read p := by
  cases hf : t.follow [] p.parent with
  | error f =>
    cases f with
    | missing => exact absurd (by simp [read, find, locate, hf]) hr
    | refused =>
      have hf' := follow_refused_of_alters h hk hf
      simp [read, find, locate, hf, hf']
  | ok d =>
    have hf' := follow_of_keepsDirectories h.keepsDirectories hf
    have hsame : t'.entryAt? (d ++ [p.fileName]) = t.entryAt? (d ++ [p.fileName]) ∨
        t.entryAt? (d ++ [p.fileName]) = none := by
      rcases h (d ++ [p.fileName]) with he | ⟨hnone, -⟩ | ⟨⟨name, hname, heq⟩, -⟩
      · exact .inl he
      · exact .inr hnone
      · rw [(List.cons.inj (List.append_inj' heq rfl).2).1] at hn
        exact absurd hname hn
    rw [read, find, locate_of_follow hf ho] at hr
    rw [read, find, locate_of_follow hf' ho, read, find, locate_of_follow hf ho]
    cases hname : isName p.fileName with
    | false => rfl
    | true =>
      rcases hsame with he | hnone
      · simp only [if_true, he]
      · simp [hname, hnone] at hr

end FileTree
end StackKeeper
