import StackKeeper.Proofs.FileSteps
/-!
# What file steps leave alone

Where a path leads is decided by its text alone, as long as it leads anywhere. Making directories
turns paths with nothing at them into directories, writing, moving and removing files changes
the entries at the files they name, and a directory stays one for ever.

Results:
* `eq_resolve_of_follow`, `follow_of_append`: where a path leads, and that it leads there in parts.
* `grows_makeDirectories`, `follow_makeDirectories`: what making directories changes.
* `replace_cases`, `remove_cases`: what replacing and removing a file change, done or cut off.
* `read_of_replace`, `read_of_remove`: what can be read along any path after it.
-/
namespace StackKeeper

namespace Path

/-- Where a path leads from a directory if everything on its way is there. -/
def resolve (start : Path) : Path → Path
  | [] => start
  | c :: rest =>
    if c = "." then resolve start rest
    else if c = ".." then resolve (above start) rest
    else resolve (start ++ [c]) rest

theorem resolve_append (start p q : Path) :
    resolve start (p ++ q) = resolve (resolve start p) q := by
  fun_induction resolve start p with
  | case1 start => rfl
  | case2 start rest ih => rw [List.cons_append, resolve, if_pos rfl, ih]
  | case3 start rest hdot ih => rw [List.cons_append, resolve, if_neg hdot, if_pos rfl, ih]
  | case4 start c rest hdot hdots ih =>
    rw [List.cons_append, resolve, if_neg hdot, if_neg hdots, ih]

theorem resolve_single {start : Path} {c : String} (hdot : c ≠ ".") (hdots : c ≠ "..") :
    resolve start [c] = start ++ [c] := by
  rw [resolve, if_neg hdot, if_neg hdots, resolve]

end Path

namespace FileTree
open StackKeeper.Path

variable {t t' t'' : FileTree} {p q dir start : Path} {e : FileEntry} {Q : List Path}

/-! ## Where paths lead -/

theorem eq_resolve_of_follow (h : t.follow start p = .ok dir) : dir = resolve start p := by
  fun_induction follow t start p with
  | case1 start => exact (Except.ok.inj h).symm
  | case2 start rest ih =>
    rw [resolve, if_pos rfl]
    exact ih h
  | case3 start rest hdot ih =>
    rw [resolve, if_neg hdot, if_pos rfl]
    exact ih h
  | case4 start c rest hdot hdots hn => cases h
  | case5 start c rest hdot hdots hn hd ih =>
    rw [resolve, if_neg hdot, if_neg hdots]
    exact ih h
  | case6 start c rest hdot hdots hn e hd => cases h
  | case7 start c rest hdot hdots hn hd => cases h

/-- A path that leads somewhere leads somewhere on its way. -/
theorem follow_of_append (h : t.follow start (p ++ q) = .ok dir) :
    t.follow start p = .ok (resolve start p) := by
  fun_induction resolve start p with
  | case1 start => rfl
  | case2 start rest ih =>
    rw [List.cons_append, follow, if_pos rfl] at h
    rw [follow, if_pos rfl]
    exact ih h
  | case3 start rest hdot ih =>
    rw [List.cons_append, follow, if_neg hdot, if_pos rfl] at h
    rw [follow, if_neg hdot, if_pos rfl]
    exact ih h
  | case4 start c rest hdot hdots ih =>
    rw [List.cons_append, follow, if_neg hdot, if_neg hdots] at h
    rw [follow, if_neg hdot, if_neg hdots]
    split at h
    · cases h
    · rename_i hn
      rw [if_neg hn]
      split at h
      · exact ih h
      · cases h
      · cases h

/-! ## Making directories -/

/-- The trees differ in directories that were made where nothing was. -/
def Grows (t t' : FileTree) : Prop :=
  ∀ p, t'.entryAt? p = t.entryAt? p ∨
    (t.entryAt? p = none ∧ t'.entryAt? p = some .directory)

theorem Grows.refl (t : FileTree) : Grows t t := fun _ => .inl rfl

theorem Grows.trans (h : Grows t t') (h' : Grows t' t'') : Grows t t'' := by
  intro p
  rcases h' p with hp' | ⟨hnone, hd⟩
  · rw [hp']
    exact h p
  · rcases h p with hp | ⟨-, hd'⟩
    · exact .inr ⟨hp ▸ hnone, hd⟩
    · rw [hd'] at hnone
      cases hnone

theorem Grows.keeps (h : Grows t t') : KeepsDirectories t t' := by
  intro p hp
  rcases h p with he | ⟨-, hd⟩
  · rw [he, hp]
  · exact hd

theorem grows_put_directory (h : t.entryAt? p = none) : Grows t (t.put p .directory) := by
  intro q
  have hstart := ne_start_of_entryAt? (t := t) (q := p) (by simp [h])
  rw [entryAt?_put hstart]
  by_cases hq : q = p
  · subst hq
    exact .inr ⟨h, if_pos rfl⟩
  · exact .inl (if_neg hq)

theorem grows_makeDirectories (t : FileTree) (start p : Path) :
    Grows t (t.makeDirectories start p).2 := by
  fun_induction makeDirectories t start p with
  | case1 t start => exact Grows.refl t
  | case2 t start rest ih => exact ih
  | case3 t start rest hdot ih => exact ih
  | case4 t start c rest hdot hdots hn => exact Grows.refl t
  | case5 t start c rest hdot hdots hn hd ih => exact ih
  | case6 t start c rest hdot hdots hn e hd => exact Grows.refl t
  | case7 t start c rest hdot hdots hn hnone ih => exact (grows_put_directory hnone).trans ih

theorem follow_makeDirectories (h : (t.makeDirectories start p).1 = .ok ()) :
    (t.makeDirectories start p).2.follow start p = .ok (resolve start p) := by
  fun_induction makeDirectories t start p with
  | case1 t start => rfl
  | case2 t start rest ih =>
    rw [follow, if_pos rfl, resolve, if_pos rfl]
    exact ih h
  | case3 t start rest hdot ih =>
    rw [follow, if_neg hdot, if_pos rfl, resolve, if_neg hdot, if_pos rfl]
    exact ih h
  | case4 t start c rest hdot hdots hn => cases h
  | case5 t start c rest hdot hdots hn hd ih =>
    have hkept := (grows_makeDirectories t (start ++ [c]) rest).keeps _ hd
    rw [follow, if_neg hdot, if_neg hdots, if_neg hn, hkept, resolve, if_neg hdot, if_neg hdots]
    exact ih h
  | case6 t start c rest hdot hdots hn e hd => cases h
  | case7 t start c rest hdot hdots hn hnone ih =>
    have hmade : (t.put (start ++ [c]) .directory).entryAt? (start ++ [c]) = some .directory := by
      rw [entryAt?_put (ne_start_of_entryAt? (t := t) (by simp [hnone])), if_pos rfl]
    have hkept := (grows_makeDirectories _ (start ++ [c]) rest).keeps _ hmade
    rw [follow, if_neg hdot, if_neg hdots, if_neg hn, hkept, resolve, if_neg hdot, if_neg hdots]
    exact ih h

/-- Nothing is made along the part of a path that leads somewhere. -/
theorem makeDirectories_append (h : t.follow start p = .ok dir) (q : Path) :
    t.makeDirectories start (p ++ q) = t.makeDirectories dir q := by
  fun_induction follow t start p with
  | case1 start =>
    cases h
    rfl
  | case2 start rest ih =>
    rw [List.cons_append, makeDirectories, if_pos rfl]
    exact ih h
  | case3 start rest hdot ih =>
    rw [List.cons_append, makeDirectories, if_neg hdot, if_pos rfl]
    exact ih h
  | case4 start c rest hdot hdots hn => cases h
  | case5 start c rest hdot hdots hn hd ih =>
    rw [List.cons_append, makeDirectories, if_neg hdot, if_neg hdots, if_neg hn, hd]
    exact ih h
  | case6 start c rest hdot hdots hn e hd => cases h
  | case7 start c rest hdot hdots hn hd => cases h

/-- Making one more directory makes nothing else. -/
theorem entryAt?_makeDirectories_single {c : String} (hdot : c ≠ ".") (hdots : c ≠ "..")
    (hp : p ≠ start ++ [c]) : (t.makeDirectories start [c]).2.entryAt? p = t.entryAt? p := by
  rw [makeDirectories, if_neg hdot, if_neg hdots]
  split
  · rfl
  · split
    · rfl
    · rfl
    · rename_i hnone
      rw [makeDirectories, entryAt?_put (ne_start_of_entryAt? (t := t) (by simp [hnone])), if_neg hp]

/-! ## Changing files -/

/-- The trees differ in what is at the given paths, none of which is a directory in either. -/
def TouchesOnly (Q : List Path) (t t' : FileTree) : Prop :=
  ∀ p, t'.entryAt? p = t.entryAt? p ∨
    (p ∈ Q ∧ t.entryAt? p ≠ some .directory ∧ t'.entryAt? p ≠ some .directory)

namespace TouchesOnly

theorem refl (Q : List Path) (t : FileTree) : TouchesOnly Q t t := fun _ => .inl rfl

theorem trans (h : TouchesOnly Q t t') (h' : TouchesOnly Q t' t'') : TouchesOnly Q t t'' := by
  intro p
  rcases h p with hp | ⟨hq, hd, hd'⟩
  · rw [← hp]
    exact h' p
  · rcases h' p with hp' | ⟨-, -, hd''⟩
    · exact .inr ⟨hq, hd, by rwa [hp']⟩
    · exact .inr ⟨hq, hd, hd''⟩

theorem mono {Q' : List Path} (h : TouchesOnly Q t t') (hq : Q ⊆ Q') : TouchesOnly Q' t t' :=
  fun p => (h p).imp_right fun ⟨hp, hd⟩ => ⟨hq hp, hd⟩

theorem sameDirectories (h : TouchesOnly Q t t') : SameDirectories t t' := by
  intro p
  rcases h p with hp | ⟨-, hd, hd'⟩
  · rw [hp]
  · simp [hd, hd']

theorem entryAt?_eq (h : TouchesOnly Q t t') (hp : p ∉ Q) : t'.entryAt? p = t.entryAt? p :=
  (h p).resolve_right fun hq => hp hq.1

end TouchesOnly

theorem touchesOnly_put (hq : t.entryAt? q ≠ some .directory) (he : e ≠ .directory) :
    TouchesOnly [q] t (t.put q e) := by
  intro p
  have hput := entryAt?_put (t := t) (q := p) (e := e) (ne_start_of_entryAt? hq)
  by_cases hp : p = q
  · subst hp
    rw [if_pos rfl] at hput
    exact .inr ⟨by simp, hq, by simpa [hput] using he⟩
  · rw [if_neg hp] at hput
    exact .inl hput

theorem touchesOnly_erase (hq : t.entryAt? q ≠ some .directory) :
    TouchesOnly [q] t (t.erase q) := by
  intro p
  by_cases hp : p = q
  · subst hp
    have hnone := entryAt?_erase_self (t := t) (ne_start_of_entryAt? hq)
    exact .inr ⟨by simp, hq, by simp [hnone]⟩
  · exact .inl (entryAt?_erase hp)

theorem putFile_cases (text : String) (hf : t.follow [] p.parent = .ok dir)
    (ho : IsOrdinary p.fileName) :
    (isName p.fileName = true ∧ t.entryAt? (dir ++ [p.fileName]) ≠ some .directory ∧
        t.putFile p text = (.ok (), t.put (dir ++ [p.fileName]) (.file text))) ∨
      ∃ why, t.putFile p text = (.error (.refused why), t) := by
  by_cases h : isName p.fileName = true ∧ t.entryAt? (dir ++ [p.fileName]) ≠ some .directory
  · exact .inl ⟨h.1, h.2, putFile_of_follow hf ho h.1 h.2⟩
  · exact .inr (putFile_refused hf ho h)

theorem renameFile_cases {name : String} (hf : t.follow [] p.parent = .ok dir)
    (ho : IsOrdinary p.fileName) (hn : IsOrdinary name) (hname : isName name = true)
    (hw : t.entryAt? (dir ++ [name]) = some e) (he : e ≠ .directory) :
    (isName p.fileName = true ∧ t.entryAt? (dir ++ [p.fileName]) ≠ some .directory ∧
        t.renameFile (p.withFileName name) p =
          (.ok (), (t.erase (dir ++ [name])).put (dir ++ [p.fileName]) e)) ∨
      ∃ why, t.renameFile (p.withFileName name) p = (.error (.refused why), t) := by
  by_cases hp : isName p.fileName = true ∧ t.entryAt? (dir ++ [p.fileName]) ≠ some .directory
  · exact .inl ⟨hp.1, hp.2, renameFile_of_follow hf ho hp.1 hn hname hw he hp.2⟩
  · right
    have hfw : t.follow [] (p.withFileName name).parent = .ok dir := by simpa using hf
    have hlw : t.locate (p.withFileName name) = .ok (dir ++ [name]) := by
      rw [locate_of_follow hfw (by simpa using hn)]
      simp [hname]
    rw [renameFile, hlw, locate_of_follow hf ho]
    cases hname' : isName p.fileName with
    | false => exact ⟨unnameable p.fileName, rfl⟩
    | true =>
      have hd : t.entryAt? (dir ++ [p.fileName]) = some .directory := by simpa [hname'] using hp
      refine ⟨.isDirectory, ?_⟩
      cases e with
      | directory => exact absurd rfl he
      | file _ => simp [hw, hd]
      | binary => simp [hw, hd]

/-- A file that was moved over its neighbour is there now, and both are touched alone. -/
theorem touchesOnly_rename {name : String} (hf : t.follow [] p.parent = .ok dir)
    (ho : IsOrdinary p.fileName) (hn : IsOrdinary name) (hname : isName name = true)
    (hne : name ≠ p.fileName) (hw : t.entryAt? (dir ++ [name]) = some e) (he : e ≠ .directory)
    (h : t.renameFile (p.withFileName name) p = (.ok (), t')) :
    TouchesOnly [dir ++ [name], dir ++ [p.fileName]] t t' ∧ isName p.fileName = true ∧
      t'.entryAt? (dir ++ [p.fileName]) = some e := by
  rcases renameFile_cases hf ho hn hname hw he with ⟨hp, hold, hrename⟩ | ⟨why, hrename⟩
  · cases hrename.symm.trans h
    have hneq : dir ++ [p.fileName] ≠ dir ++ [name] := by simpa using hne.symm
    have hgone := touchesOnly_erase (t := t) (q := dir ++ [name])
      (by rw [hw]; exact fun h => he (Option.some.inj h))
    have hmoved := touchesOnly_put (t := t.erase (dir ++ [name])) (e := e)
      (by rwa [entryAt?_erase hneq]) he
    refine ⟨(hgone.mono (by simp)).trans (hmoved.mono (by simp)), hp, ?_⟩
    rw [entryAt?_put (ne_start_of_entryAt? hold), if_pos rfl]
  · cases hrename.symm.trans h

theorem applyAll_cons_ok (step : Step) {steps : List Step} (h : t.apply step = (.ok (), t')) :
    t.applyAll (step :: steps) = t'.applyAll steps := by
  rw [applyAll, h]

theorem applyAll_cons_error (step : Step) {steps : List Step} {f : FileFault}
    (h : t.apply step = (.error f, t')) : t.applyAll (step :: steps) = (.error (step, f), t') := by
  rw [applyAll, h]

/-- The neighbour is emptied, written and made durable, or the steps are cut off in between. -/
theorem neighbour_cases {name : String} (text : String) (hf : t.follow [] p.parent = .ok dir)
    (hn : IsOrdinary name) (rest : List Step) :
    (∃ t', t.applyAll (.truncate (p.withFileName name) :: .write (p.withFileName name) text ::
          .sync (p.withFileName name) :: rest) = t'.applyAll rest ∧ isName name = true ∧
        TouchesOnly [dir ++ [name]] t t' ∧ t'.entryAt? (dir ++ [name]) = some (.file text)) ∨
      ∃ f t', t.applyAll (.truncate (p.withFileName name) :: .write (p.withFileName name) text ::
          .sync (p.withFileName name) :: rest) = (.error f, t') ∧
        TouchesOnly [dir ++ [name]] t t' := by
  have put : ∀ {t : FileTree} (text : String), t.follow [] p.parent = .ok dir →
      (isName name = true ∧ t.entryAt? (dir ++ [name]) ≠ some .directory ∧
        t.putFile (p.withFileName name) text = (.ok (), t.put (dir ++ [name]) (.file text))) ∨
      ∃ why, t.putFile (p.withFileName name) text = (.error (.refused why), t) := by
    intro t text hf
    have hf' : t.follow [] (p.withFileName name).parent = .ok dir := by simpa using hf
    simpa using putFile_cases text hf' (by simpa using hn)
  rcases put "" hf with ⟨hname, hw, hput⟩ | ⟨why, hput⟩
  · have ht := touchesOnly_put (e := .file "") hw (by simp)
    have hf' := follow_of_sameDirectories ht.sameDirectories hf
    rcases put text hf' with ⟨-, hw', hput'⟩ | ⟨why, hput'⟩
    · have ht' := touchesOnly_put (e := .file text) hw' (by simp)
      refine .inl ⟨_, ?_, hname, ht.trans ht', ?_⟩
      · rw [applyAll_cons_ok (.truncate _) hput, applyAll_cons_ok (.write _ _) hput',
          applyAll_cons_ok (.sync _) rfl]
      · rw [entryAt?_put (ne_start_of_entryAt? hw'), if_pos rfl]
    · refine .inr ⟨(.write (p.withFileName name) text, .refused why), _, ?_, ht⟩
      rw [applyAll_cons_ok (.truncate _) hput, applyAll_cons_error (.write _ _) hput']
  · exact .inr ⟨_, t, applyAll_cons_error (.truncate (p.withFileName name)) hput, .refl _ t⟩

/-- Replacing a file makes its directory first and touches two files of it then; cut off, it has
touched the neighbour alone. -/
theorem replace_cases {name : String} (text : String) (ho : IsOrdinary p.fileName)
    (hn : IsOrdinary name) (hne : name ≠ p.fileName) (hdir : resolve [] p.parent = dir) :
    ∃ t₁, t₁ = (t.makeDirectories [] p.parent).2 ∧
      ((∃ t', t.applyAll (replaceSteps p name text) = (.ok (), t') ∧
          TouchesOnly [dir ++ [name], dir ++ [p.fileName]] t₁ t' ∧
          t'.follow [] p.parent = .ok dir ∧ isName p.fileName = true ∧
          t'.entryAt? (dir ++ [p.fileName]) = some (.file text)) ∨
        ∃ f t', t.applyAll (replaceSteps p name text) = (.error f, t') ∧
          TouchesOnly [dir ++ [name]] t₁ t') := by
  rcases hm : t.makeDirectories [] p.parent with ⟨made, t₁⟩
  refine ⟨t₁, rfl, ?_⟩
  cases made with
  | error f => exact .inr ⟨_, t₁, applyAll_cons_error (.makeDirectory _) hm, .refl _ _⟩
  | ok _ =>
    have hf : t₁.follow [] p.parent = .ok dir := by
      have hfollow := @follow_makeDirectories t p.parent [] (by rw [hm])
      rwa [hm, hdir] at hfollow
    unfold replaceSteps
    rw [applyAll_cons_ok (.makeDirectory _) hm]
    rcases neighbour_cases text hf hn [.rename (p.withFileName name) p] with
      ⟨t₂, hsteps, hname, ht, hw⟩ | ⟨f, t₂, hsteps, ht⟩
    · rw [hsteps]
      have hf₂ := follow_of_sameDirectories ht.sameDirectories hf
      rcases hrename : t₂.renameFile (p.withFileName name) p with ⟨moved, t₃⟩
      cases moved with
      | ok _ =>
        obtain ⟨htouch, hp, hnew⟩ := touchesOnly_rename hf₂ ho hn hname hne hw (by simp) hrename
        have hall : TouchesOnly [dir ++ [name], dir ++ [p.fileName]] t₁ t₃ :=
          (ht.mono (by simp)).trans htouch
        exact .inl ⟨t₃, applyAll_cons_ok (.rename _ _) hrename, hall,
          follow_of_sameDirectories hall.sameDirectories hf, hp, hnew⟩
      | error f =>
        rcases renameFile_cases hf₂ ho hn hname hw (by simp) with ⟨-, -, hdone⟩ | ⟨why, hfails⟩
        · cases hdone.symm.trans hrename
        · cases hfails.symm.trans hrename
          exact .inr ⟨_, t₂, applyAll_cons_error (.rename _ _) hfails, ht⟩
    · exact .inr ⟨f, t₂, hsteps, ht⟩

/-- Removing a file touches it alone. -/
theorem remove_cases {old : String} (ho : IsOrdinary p.fileName) (hr : t.read p = .ok old)
    (hdir : resolve [] p.parent = dir) :
    ∃ t', t.applyAll [.remove p] = (.ok (), t') ∧ TouchesOnly [dir ++ [p.fileName]] t t' ∧
      t'.entryAt? (dir ++ [p.fileName]) = none := by
  obtain ⟨dir', hf, hp, hold⟩ := (read_eq_ok_iff ho).mp hr
  rw [(eq_resolve_of_follow hf).trans hdir] at hold
  have hd : t.entryAt? (dir ++ [p.fileName]) ≠ some .directory := by
    rw [hold]
    simp
  refine ⟨t.erase (dir ++ [p.fileName]), ?_, touchesOnly_erase hd, ?_⟩
  · rw [(eq_resolve_of_follow hf).trans hdir] at hf
    simp [applyAll, apply, removeFile, locate_of_follow hf ho, hp, hold]
  · exact entryAt?_erase_self (ne_start_of_entryAt? hd)

/-- Removing what may not be there touches it alone. -/
theorem touchesOnly_remove (ho : IsOrdinary p.fileName) :
    TouchesOnly [resolve [] p.parent ++ [p.fileName]] t (t.applyAll [.remove p]).2 := by
  have happly : (t.applyAll [.remove p]).2 = (t.removeFile p).2 := by
    rw [applyAll, apply]
    rcases t.removeFile p with ⟨x, t'⟩
    cases x <;> rfl
  rw [happly, removeFile]
  split
  · exact .refl _ t
  · exact .refl _ t
  · rename_i q hq
    split
    · exact .refl _ t
    · exact .refl _ t
    · rename_i e hdirectory he
      have hplace : q = resolve [] p.parent ++ [p.fileName] := by
        cases hf : t.follow [] p.parent with
        | error f => simp [locate, hf] at hq
        | ok dir =>
          rw [locate_of_follow hf ho] at hq
          split at hq
          · rw [← eq_resolve_of_follow hf]
            exact (Except.ok.inj hq).symm
          · cases hq
      subst hplace
      exact touchesOnly_erase (by rw [he]; exact fun h => hdirectory (Option.some.inj h))

/-! ## What can be read afterwards -/

/-- Where only some files were touched, a text is read as before unless its path leads to one of them. -/
theorem TouchesOnly.read_cases {text : String} (h : TouchesOnly Q t t') (ho : IsOrdinary p.fileName)
    (hr : t'.read p = .ok text) : t.read p = .ok text ∨
      ∃ dir, t.follow [] p.parent = .ok dir ∧ isName p.fileName = true ∧
        dir ++ [p.fileName] ∈ Q ∧ t'.entryAt? (dir ++ [p.fileName]) = some (.file text) := by
  obtain ⟨dir, hf', hname, he⟩ := (read_eq_ok_iff ho).mp hr
  have hf := follow_of_sameDirectories h.sameDirectories.symm hf'
  by_cases hq : dir ++ [p.fileName] ∈ Q
  · exact .inr ⟨dir, hf, hname, hq, he⟩
  · exact .inl ((read_eq_ok_iff ho).mpr ⟨dir, hf, hname, h.entryAt?_eq hq ▸ he⟩)

/-- After a file was replaced, a path reads as before, or it leads to the file and reads its new text.
The neighbour is left out. -/
theorem read_of_replace {name old text text' : String} (ho : IsOrdinary p.fileName)
    (hn : IsOrdinary name) (hne : name ≠ p.fileName) (hold : t.read p = .ok old)
    (hq : IsOrdinary q.fileName) (hqn : name ≠ q.fileName)
    (hr : (t.applyAll (replaceSteps p name text)).2.read q = .ok text') :
    t.read q = .ok text' ∨ (text' = text ∧ t.read q = .ok old) := by
  obtain ⟨dir, hf, hp, he⟩ := (read_eq_ok_iff ho).mp hold
  have notNeighbour : ∀ d : Path, d ++ [q.fileName] ≠ dir ++ [name] := fun d h =>
    hqn (List.cons.inj (List.append_inj' h rfl).2).1.symm
  obtain ⟨t₁, ht₁, hcases⟩ :=
    replace_cases (t := t) text ho hn hne (eq_resolve_of_follow hf).symm
  -- The file is there, so no directory is made.
  rw [makeDirectories_of_follow hf] at ht₁
  subst ht₁
  rcases hcases with ⟨t₂, happly₂, htouch, -, -, hnew⟩ | ⟨f, t₂, happly₂, htouch⟩
  · rw [happly₂] at hr
    rcases htouch.read_cases hq hr with hsame | ⟨d, hd, hname, hmem, hfile⟩
    · exact .inl hsame
    · rcases List.mem_cons.mp hmem with h | h
      · exact absurd h (notNeighbour d)
      · rw [List.mem_singleton] at h
        rw [h] at hfile
        refine .inr ⟨?_, (read_eq_ok_iff hq).mpr ⟨d, hd, hname, h ▸ he⟩⟩
        cases hfile.symm.trans hnew
        rfl
  · rw [happly₂] at hr
    rcases htouch.read_cases hq hr with hsame | ⟨d, -, -, hmem, -⟩
    · exact .inl hsame
    · exact absurd (List.mem_singleton.mp hmem) (notNeighbour d)

/-- What can be read after a file was removed could be read before. -/
theorem read_of_remove {old text' : String} (ho : IsOrdinary p.fileName)
    (hold : t.read p = .ok old) (hq : IsOrdinary q.fileName)
    (hr : (t.applyAll [.remove p]).2.read q = .ok text') : t.read q = .ok text' := by
  obtain ⟨dir, hf, -, -⟩ := (read_eq_ok_iff ho).mp hold
  obtain ⟨t₂, happly₂, htouch, hnone⟩ := remove_cases ho hold (eq_resolve_of_follow hf).symm
  rw [happly₂] at hr
  rcases htouch.read_cases hq hr with hsame | ⟨d, -, -, hmem, hfile⟩
  · exact hsame
  · rw [List.mem_singleton.mp hmem, hnone] at hfile
    cases hfile

end FileTree
end StackKeeper
