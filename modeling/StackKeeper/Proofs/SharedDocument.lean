import StackKeeper.Files.Shared
import StackKeeper.Proofs.StoredDocument
/-!
# A document with several writers

Everyone who writes a document goes through the same temporary file. A writer that opens it takes it
away from the one that opened it before: the content so far is gone, and what either of them writes from
then on goes into one file. As long as no writer that has it open goes on after another one opened it,
the document is replaced as a whole, however the steps of the writers fall and wherever they are
cut off. Within one process the lock of the store sees to that. Nothing does between processes.

Results:
* `IsOrderly.move`, `isOrderly_of_runs`: what one move preserves, and what a run does.
* `inTurn_of_unlocked`: the writers of one process take turns.
* `written_alone`: a writer that is left alone does what its steps do on a tree of its own.
* `replaced_as_a_whole`: what readers of the document find, and what a failed writer leaves.
* `torn_of_overlap`: what they find when nothing keeps two writers apart.
-/
namespace StackKeeper.SharedFiles
open FileTree (Step replaceSteps)
open StackKeeper.Path

variable {v v' : Volume} {w w' : Writer} {s t t' : State} {d q p : Path} {name : String}
  {texts : Nat → String} {text : String} {i j n k : Nat} {b : Bytes}

/-! ## Files and names -/

namespace Volume

@[simp] theorem fileAt_fill : (v.fill n b).fileAt = v.fileAt := rfl

@[simp] theorem next_fill : (v.fill n b).next = v.next := rfl

@[simp] theorem content_fill : (v.fill n b).content k = if k = n then b else v.content k := rfl

@[simp] theorem content_name {file : Option Nat} : (v.name p file).content = v.content := rfl

@[simp] theorem next_name {file : Option Nat} : (v.name p file).next = v.next := rfl

@[simp] theorem fileAt_name {file : Option Nat} :
    (v.name p file).fileAt q = if q = p then file else v.fileAt q := rfl

/-- What is written into one file is not read in another. -/
theorem read_fill (h : v.fileAt d ≠ some n) : (v.fill n b).read d = v.read d := by
  cases hd : v.fileAt d with
  | none => simp [read, hd]
  | some m =>
    have hother : m ≠ n := fun he => h (he ▸ hd)
    simp [read, hd, hother]

/-- Whether a document and the file by way of which it is written are two files. -/
structure IsSound (v : Volume) (d q : Path) : Prop where
  used : ∀ p n, v.fileAt p = some n → n < v.next
  apart : ∀ n, v.fileAt q = some n → v.fileAt d ≠ some n

theorem create_of_fileAt (h : v.fileAt q = some n) : v.create q = (n, v.fill n []) := by
  rw [create, h]

theorem create_self (v : Volume) (q : Path) :
    (v.create q).2.fileAt q = some (v.create q).1 ∧ (v.create q).2.content (v.create q).1 = [] := by
  rw [create]
  cases hq : v.fileAt q with
  | some n => exact ⟨hq, by simp⟩
  | none => simp

/-- Making or emptying a temporary file leaves the document alone. -/
theorem create_spec (h : v.IsSound d q) (hne : d ≠ q) :
    (v.create q).2.IsSound d q ∧ (v.create q).2.read d = v.read d := by
  rw [create]
  cases hq : v.fileAt q with
  | some n => exact ⟨⟨h.used, h.apart⟩, read_fill (h.apart n hq)⟩
  | none =>
    have hfresh : v.fileAt d ≠ some v.next := fun hd => Nat.lt_irrefl _ (h.used d _ hd)
    refine ⟨⟨?_, ?_⟩, ?_⟩
    · intro p n hp
      simp only [fileAt_fill, fileAt_name] at hp
      split at hp
      · cases hp
        exact Nat.lt_succ_self _
      · exact Nat.lt_succ_of_lt (h.used p n hp)
    · intro n hn
      simp only [fileAt_fill, fileAt_name, if_true, Option.some.injEq, if_neg hne] at hn ⊢
      exact hn ▸ hfresh
    · have hname : (v.name q (some v.next)).read d = v.read d := by simp [read, hne]
      rw [← hname]
      exact read_fill (by simpa [hne] using hfresh)

end Volume

/-! ## How far a writer can have come -/

/-- The states of a writer on its way through the steps that replace a document. -/
inductive Writer.Progress (d : Path) (name text : String) : Writer → Prop
  | fresh : Progress d name text (.ofSteps (replaceSteps d name text))
  | placed : Progress d name text ⟨(replaceSteps d name text).drop 1, none, 0, false⟩
  | opened (n k : Nat) (hk : k ≤ (bytes text).length) :
      Progress d name text ⟨(replaceSteps d name text).drop 2, some n, k, false⟩
  | filled (n : Nat) :
      Progress d name text ⟨(replaceSteps d name text).drop 3, some n, (bytes text).length, false⟩
  | synced (n : Nat) :
      Progress d name text ⟨(replaceSteps d name text).drop 4, some n, (bytes text).length, false⟩
  | ended (file : Option Nat) (k : Nat) (failed : Bool) : Progress d name text ⟨[], file, k, failed⟩

/-- What a move of a writer can do: nothing that others notice, open the temporary file, add to its
content, move it into place, or fail. -/
inductive Writer.Effect (d : Path) (name text : String) (v : Volume) :
    Writer → Volume → Writer → Prop
  | quiet {w w' : Writer} (hw : w.todo ≠ []) (hw' : w'.todo ≠ [])
      (hp : Writer.Progress d name text w') (hfile : w'.file = w.file)
      (hwritten : w'.written = w.written) : Effect d name text v w v w'
  | opens {w : Writer} (hfile : w.file = none) :
      Effect d name text v w (v.create (d.withFileName name)).2
        ⟨(replaceSteps d name text).drop 2, some (v.create (d.withFileName name)).1, 0, false⟩
  | writes {n k : Nat} {piece : Bytes} (hk : k ≤ (bytes text).length)
      (hpiece : piece <+: (bytes text).drop k) :
      Effect d name text v ⟨(replaceSteps d name text).drop 2, some n, k, false⟩
        (v.fill n (overlay (v.content n) k piece))
        ⟨(replaceSteps d name text).drop 2, some n, k + piece.length, false⟩
  | moves {n n' : Nat} (hsource : v.fileAt (d.withFileName name) = some n') :
      Effect d name text v
        ⟨(replaceSteps d name text).drop 4, some n, (bytes text).length, false⟩
        ((v.name (d.withFileName name) none).name d (some n'))
        ⟨[], some n, (bytes text).length, false⟩
  | fails {w : Writer} (hw : w.todo ≠ []) :
      Effect d name text v w v { w with todo := [], failed := true }

theorem Writer.todo_of_move {m : Move} (hm : w.move v m = some (v', w')) : w.todo ≠ [] := by
  intro hover
  cases m <;> simp [Writer.move, hover] at hm

theorem Writer.Effect.of_fail (hm : w.move v .fail = some (v', w')) :
    Writer.Effect d name text v w v' w' := by
  have hw := Writer.todo_of_move hm
  cases ht : w.todo with
  | nil => exact absurd ht hw
  | cons step rest =>
    simp only [Writer.move, ht, Option.some.injEq, Prod.mk.injEq] at hm
    obtain ⟨rfl, rfl⟩ := hm
    exact .fails hw

theorem Writer.Progress.effect (hp : Writer.Progress d name text w) {m : Move}
    (hm : w.move v m = some (v', w')) : Writer.Effect d name text v w v' w' := by
  cases m with
  | fail => exact .of_fail hm
  | piece count =>
    cases hp with
    | opened n k hk =>
      cases hm
      exact .writes hk (List.take_prefix _ _)
    | fresh => cases hm
    | placed => cases hm
    | filled n => cases hm
    | synced n => cases hm
    | ended file k failed => cases hm
  | proceed =>
    cases hp with
    | fresh =>
      cases hm
      exact .quiet (by simp [Writer.ofSteps, replaceSteps])
        (by simp [Writer.ofSteps, Writer.advance, replaceSteps]) .placed rfl rfl
    | placed =>
      cases hm
      exact .opens rfl
    | opened n k hk =>
      -- The writer goes on once all bytes are written.
      simp only [Writer.move, replaceSteps, List.drop_succ_cons, List.drop_zero] at hm
      split at hm
      · rename_i hdone
        cases hm
        subst hdone
        exact .quiet (by simp [replaceSteps]) (by simp [Writer.advance]) (.filled n) rfl rfl
      · cases hm
    | filled n =>
      cases hm
      exact .quiet (by simp [replaceSteps]) (by simp [Writer.advance, replaceSteps]) (.synced n)
        rfl rfl
    | synced n =>
      obtain ⟨n', hsource, hm⟩ := Option.map_eq_some_iff.mp hm
      cases hm
      exact .moves hsource
    | ended file k failed => cases hm

/-! ## Taking turns -/

/-- The document is that of the last writer that finished, and the last one that opened the temporary
file has it for itself. -/
structure IsOrderly (v₀ : Volume) (d : Path) (name : String) (texts : Nat → String) (s : State) :
    Prop where
  sound : s.volume.IsSound d (d.withFileName name)
  progress : ∀ i, Writer.Progress d name (texts i) (s.writers i)
  own : ∀ i, s.opener = some i → (s.writers i).todo ≠ [] → ∃ n, (s.writers i).file = some n ∧
    s.volume.fileAt (d.withFileName name) = some n ∧
      s.volume.content n = (bytes (texts i)).take (s.writers i).written
  document : s.volume.read d =
    match s.finished.getLast? with
    | none => v₀.read d
    | some i => some (bytes (texts i))
  ended : ∀ i ∈ s.finished, (s.writers i).todo = [] ∧ (s.writers i).failed = false

theorem State.move_eq_some_iff {m : Move} : s.move i m = some t ↔
    ∃ v w, (s.writers i).move s.volume m = some (v, w) ∧ t = s.advanced i v w := by
  rw [State.move, Option.map_eq_some_iff]
  constructor
  · rintro ⟨⟨v, w⟩, hm, rfl⟩
    exact ⟨v, w, hm, rfl⟩
  · rintro ⟨v, w, hm, rfl⟩
    exact ⟨(v, w), hm, rfl⟩

namespace IsOrderly

variable {v₀ : Volume} (h : IsOrderly v₀ d name texts s)
include h

theorem progress_advanced (hp : Writer.Progress d name (texts i) w) (j : Nat) :
    Writer.Progress d name (texts j) ((s.advanced i v w).writers j) := by
  by_cases hj : j = i
  · subst hj
    simpa [State.advanced] using hp
  · simpa [State.advanced, hj] using h.progress j

/-- A writer with steps left has not finished, and so it is with the writers after its move. -/
theorem ended_advanced (hw : (s.writers i).todo ≠ []) :
    ∀ j ∈ (s.advanced i v w).finished,
      ((s.advanced i v w).writers j).todo = [] ∧ ((s.advanced i v w).writers j).failed = false := by
  have hother : ∀ j ∈ s.finished, j ≠ i := fun j hj he => hw (he ▸ (h.ended j hj).1)
  intro j hj
  by_cases hdone : w.todo = [] ∧ w.failed = false
  · simp only [State.advanced, if_pos hdone, List.mem_append, List.mem_singleton] at hj
    by_cases hji : j = i
    · simpa [State.advanced, hji] using hdone
    · simpa [State.advanced, hji] using h.ended j (hj.resolve_right hji)
  · simp only [State.advanced, if_neg hdone] at hj
    simpa [State.advanced, hother j hj] using h.ended j hj

/-- The writer that has the file open has it for itself if it is in turn. -/
theorem own_of_inTurn (turn : s.InTurn i) (hfile : (s.writers i).file = some n)
    (hw : (s.writers i).todo ≠ []) : s.opener = some i ∧
      s.volume.fileAt (d.withFileName name) = some n ∧
      s.volume.content n = (bytes (texts i)).take (s.writers i).written := by
  have hopener : s.opener = some i := turn.resolve_left (by simp [hfile])
  obtain ⟨n', hn', hq, hcontent⟩ := h.own i hopener hw
  cases hfile.symm.trans hn'
  exact ⟨hopener, hq, hcontent⟩

/-- What is left to show of a move that neither opens a file nor finishes. -/
theorem of_kept (hw : (s.writers i).todo ≠ []) (hp : Writer.Progress d name (texts i) w)
    (hfile : w.file = (s.writers i).file) (hnot : ¬ (w.todo = [] ∧ w.failed = false))
    (hsound : v.IsSound d (d.withFileName name)) (hread : v.read d = s.volume.read d)
    (hown : ∀ j, s.opener = some j → ((s.advanced i v w).writers j).todo ≠ [] →
      ∃ n, ((s.advanced i v w).writers j).file = some n ∧
        v.fileAt (d.withFileName name) = some n ∧
        v.content n = (bytes (texts j)).take ((s.advanced i v w).writers j).written) :
    IsOrderly v₀ d name texts (s.advanced i v w) where
  sound := hsound
  progress := h.progress_advanced hp
  own := by
    intro j hj
    rw [State.advanced, if_pos hfile] at hj
    exact hown j hj
  document := by
    have hfinished : (s.advanced i v w).finished = s.finished := if_neg hnot
    rw [hfinished]
    exact hread.trans h.document
  ended := h.ended_advanced hw

/-- A move that nobody notices, a failure among them. -/
theorem of_unnoticed (hw : (s.writers i).todo ≠ []) (hp : Writer.Progress d name (texts i) w)
    (hfile : w.file = (s.writers i).file) (hnot : ¬ (w.todo = [] ∧ w.failed = false))
    (hwritten : w.written = (s.writers i).written) :
    IsOrderly v₀ d name texts (s.advanced i s.volume w) := by
  refine h.of_kept hw hp hfile hnot h.sound rfl fun j hj htodo => ?_
  by_cases hji : j = i
  · subst hji
    obtain ⟨n, hn, hq, hcontent⟩ := h.own j hj hw
    exact ⟨n, by simpa [State.advanced, hfile] using hn, hq,
      by simpa [State.advanced, hwritten] using hcontent⟩
  · simp only [State.advanced, if_neg hji] at htodo ⊢
    exact h.own j hj htodo

theorem of_writes {k : Nat} {piece : Bytes} (turn : s.InTurn i)
    (hold : s.writers i = ⟨(replaceSteps d name (texts i)).drop 2, some n, k, false⟩)
    (hk : k ≤ (bytes (texts i)).length) (hpiece : piece <+: (bytes (texts i)).drop k) :
    IsOrderly v₀ d name texts
      (s.advanced i (s.volume.fill n (overlay (s.volume.content n) k piece))
        ⟨(replaceSteps d name (texts i)).drop 2, some n, k + piece.length, false⟩) := by
  have hw : (s.writers i).todo ≠ [] := by simp [hold, replaceSteps]
  obtain ⟨hopener, hq, hcontent⟩ := h.own_of_inTurn turn (n := n) (by rw [hold]) hw
  rw [hold] at hcontent
  have hlength := hpiece.length_le
  rw [List.length_drop] at hlength
  refine h.of_kept hw (.opened n _ (by omega)) (by rw [hold]) (by simp [replaceSteps])
    ⟨h.sound.used, h.sound.apart⟩ ?_ fun j hj _ => ?_
  · exact Volume.read_fill (h.sound.apart n hq)
  · cases hopener.symm.trans hj
    refine ⟨n, by simp [State.advanced], hq, ?_⟩
    -- What was there is the part before the piece, so the piece goes to the end of it.
    have hkept : (s.volume.content n).length = k := by
      rw [hcontent, List.length_take, Nat.min_eq_left hk]
    have hoverlay : overlay (s.volume.content n) k piece = s.volume.content n ++ piece := by
      conv => lhs; rw [← hkept]
      exact overlay_length _ _
    obtain ⟨rest, hrest⟩ := hpiece
    have htake : piece = ((bytes (texts i)).drop k).take piece.length := by simp [← hrest]
    simp only [Volume.content_fill, if_true, State.advanced]
    rw [hoverlay, hcontent, List.take_add, ← htake]

theorem of_opens (hne : d ≠ d.withFileName name) (hfile : (s.writers i).file = none)
    (hw : (s.writers i).todo ≠ []) :
    IsOrderly v₀ d name texts (s.advanced i (s.volume.create (d.withFileName name)).2
      ⟨(replaceSteps d name (texts i)).drop 2,
        some (s.volume.create (d.withFileName name)).1, 0, false⟩) := by
  obtain ⟨hsound, hread⟩ := Volume.create_spec h.sound hne
  obtain ⟨hq, hempty⟩ := Volume.create_self s.volume (d.withFileName name)
  refine ⟨hsound, h.progress_advanced (.opened _ 0 (Nat.zero_le _)), fun j hj _ => ?_, ?_,
    h.ended_advanced hw⟩
  · simp only [State.advanced, hfile, reduceCtorEq, if_false, Option.some.injEq] at hj
    subst hj
    exact ⟨_, by simp [State.advanced], hq, by simpa [State.advanced] using hempty⟩
  · have hfinished : (s.advanced i (s.volume.create (d.withFileName name)).2
        ⟨(replaceSteps d name (texts i)).drop 2,
          some (s.volume.create (d.withFileName name)).1, 0, false⟩).finished = s.finished := by
      simp [State.advanced, replaceSteps]
    rw [hfinished]
    exact hread.trans h.document

theorem of_moves (hne : d ≠ d.withFileName name) (turn : s.InTurn i) {n' : Nat}
    (hold : s.writers i =
      ⟨(replaceSteps d name (texts i)).drop 4, some n, (bytes (texts i)).length, false⟩)
    (hsource : s.volume.fileAt (d.withFileName name) = some n') :
    IsOrderly v₀ d name texts
      (s.advanced i ((s.volume.name (d.withFileName name) none).name d (some n'))
        ⟨[], some n, (bytes (texts i)).length, false⟩) := by
  have hw : (s.writers i).todo ≠ [] := by simp [hold, replaceSteps]
  obtain ⟨hopener, hq, hcontent⟩ := h.own_of_inTurn turn (n := n) (by rw [hold]) hw
  cases hsource.symm.trans hq
  rw [hold, List.take_length] at hcontent
  refine ⟨⟨?_, ?_⟩, h.progress_advanced (.ended _ _ _), fun j hj htodo => ?_, ?_,
    h.ended_advanced hw⟩
  · intro p m hp
    simp only [State.advanced, Volume.fileAt_name] at hp
    split at hp
    · exact h.sound.used _ m (hp ▸ hq)
    · split at hp
      · cases hp
      · exact h.sound.used p m hp
  · intro m hm
    simp [State.advanced, hne.symm] at hm
  · simp only [State.advanced, hold, if_true] at hj htodo
    cases hopener.symm.trans hj
    simp at htodo
  · have hlast : (s.advanced i ((s.volume.name (d.withFileName name) none).name d (some n))
        ⟨[], some n, (bytes (texts i)).length, false⟩).finished = s.finished ++ [i] := by
      simp [State.advanced]
    rw [hlast, List.getLast?_concat]
    simp [State.advanced, Volume.read, hcontent]

/-- A writer may only change what it has opened itself, or open a file for itself. -/
theorem move (hne : d ≠ d.withFileName name) (turn : s.InTurn i) {m : Move}
    (hm : State.move s i m = some t) : IsOrderly v₀ d name texts t := by
  obtain ⟨v, w, hmove, rfl⟩ := State.move_eq_some_iff.mp hm
  have heffect := (h.progress i).effect hmove
  generalize hold : s.writers i = old at heffect
  cases heffect with
  | quiet hw hw' hp hfile hwritten =>
    subst hold
    exact h.of_unnoticed hw hp hfile (fun hdone => hw' hdone.1) hwritten
  | opens hfile =>
    subst hold
    exact h.of_opens hne hfile (Writer.todo_of_move hmove)
  | writes hk hpiece => exact h.of_writes turn hold hk hpiece
  | moves hsource => exact h.of_moves hne turn hold hsource
  | fails hw =>
    subst hold
    exact h.of_unnoticed hw (.ended _ _ _) rfl (by simp) rfl

end IsOrderly

theorem isOrderly_start (h : v.IsSound d (d.withFileName name)) :
    IsOrderly v d name texts (.start v fun i => replaceSteps d name (texts i)) where
  sound := h
  progress _ := .fresh
  own _ hi := by cases hi
  document := rfl
  ended i hi := by cases hi

/-- A run of writers that take turns leaves the document whole at every point. -/
theorem isOrderly_of_runs {v₀ : Volume} (h : IsOrderly v₀ d name texts s)
    (hne : d ≠ d.withFileName name) (hr : State.Runs State.InTurn s t) :
    IsOrderly v₀ d name texts t := by
  induction hr with
  | start => exact h
  | move hr turn m hm ih => exact ih.move hne turn hm

/-! ## One process -/

/-- The writers of one process take turns: a writer that has the file open was the last to open one,
since the lock keeps all others from moving. -/
theorem inTurn_of_unlocked {process : Nat → Nat} (hone : ∀ i j, process i = process j)
    (hs : ∀ i, (s.writers i).IsHolding → s.opener = some i)
    (hr : State.Runs (State.Unlocked process) s t) :
    State.Runs State.InTurn s t ∧ ∀ i, (t.writers i).IsHolding → t.opener = some i := by
  induction hr with
  | start => exact ⟨.start, hs⟩
  | @move t t' i hr may m hm ih =>
    obtain ⟨hruns, hheld⟩ := ih
    obtain ⟨v, w, hmove, rfl⟩ := State.move_eq_some_iff.mp hm
    have htodo := Writer.todo_of_move hmove
    have turn : t.InTurn i := by
      by_cases hfile : (t.writers i).file = none
      · exact .inl hfile
      · exact .inr (hheld i ⟨hfile, htodo⟩)
    refine ⟨.move hruns turn m hm, fun j hj => ?_⟩
    by_cases hji : j = i
    · subst hji
      simp only [State.advanced, if_true] at hj ⊢
      split
      · rename_i hsame
        exact hheld j ⟨hsame ▸ hj.1, htodo⟩
      · rfl
    · simp only [State.advanced, if_neg hji] at hj
      exact absurd hj (may j hji (hone j i))

/-! ## Moves in a row -/

theorem State.Runs.trans {mayMove : State → Nat → Prop} (h : State.Runs mayMove s t)
    (h' : State.Runs mayMove t t') : State.Runs mayMove s t' := by
  induction h' with
  | start => exact h
  | move _ may m hm ih => exact .move ih may m hm

/-- The moves of one writer lead from one state to another. -/
structure State.Leads (mayMove : State → Nat → Prop) (i : Nat) (s t : State) (v : Volume) (w : Writer) :
    Prop where
  runs : State.Runs mayMove s t
  volume : t.volume = v
  writer : t.writers i = w
  others : ∀ j, j ≠ i → t.writers j = s.writers j
  finished : t.finished = s.finished

namespace State.Leads

variable {mayMove : State → Nat → Prop}

theorem start (hv : s.volume = v) (hw : s.writers i = w) : Leads mayMove i s s v w :=
  ⟨.start, hv, hw, fun _ _ => rfl, rfl⟩

-- The others stay where they are, so it is enough that the writer may move there.
variable (hmay : ∀ t : State, (∀ j, j ≠ i → t.writers j = s.writers j) → mayMove t i)
include hmay

theorem move (h : Leads mayMove i s t v w) {m : Move} (hm : w.move v m = some (v', w'))
    (hw' : w'.todo ≠ []) : Leads mayMove i s (t.advanced i v' w') v' w' where
  runs := .move h.runs (hmay t h.others) m
    (State.move_eq_some_iff.mpr ⟨v', w', by rw [h.writer, h.volume, hm], rfl⟩)
  volume := rfl
  writer := if_pos rfl
  others j hj := (if_neg hj).trans (h.others j hj)
  finished := (if_neg fun hdone => hw' hdone.1).trans h.finished

/-- A writer that has done nothing gets to open the temporary file. -/
theorem opened (h : Leads mayMove i s t v (.ofSteps (replaceSteps d name text))) :
    ∃ t', Leads mayMove i s t' (v.create (d.withFileName name)).2
      ⟨(replaceSteps d name text).drop 2, some (v.create (d.withFileName name)).1, 0, false⟩ := by
  have hplaced := h.move hmay (m := .proceed) rfl (by simp [Writer.ofSteps, Writer.advance, replaceSteps])
  exact ⟨_, hplaced.move hmay (m := .proceed) rfl (by simp [replaceSteps])⟩

/-- A writer that has opened the temporary file gets to move it. -/
theorem synced (h : Leads mayMove i s t v ⟨(replaceSteps d name text).drop 2, some n, 0, false⟩) :
    ∃ t', Leads mayMove i s t' (v.fill n (overlay (v.content n) 0 (bytes text)))
      ⟨(replaceSteps d name text).drop 4, some n, (bytes text).length, false⟩ := by
  have hpiece : Writer.move v ⟨(replaceSteps d name text).drop 2, some n, 0, false⟩
      (.piece (bytes text).length) = some (v.fill n (overlay (v.content n) 0 (bytes text)),
        ⟨(replaceSteps d name text).drop 2, some n, (bytes text).length, false⟩) := by
    simp [Writer.move, replaceSteps]
  have hdone : ∀ v : Volume, Writer.move v
      ⟨(replaceSteps d name text).drop 2, some n, (bytes text).length, false⟩ .proceed =
        some (v, ⟨(replaceSteps d name text).drop 3, some n, (bytes text).length, false⟩) := by
    intro v
    simp [Writer.move, replaceSteps, Writer.advance]
  have hwritten := (h.move hmay hpiece (by simp [replaceSteps])).move hmay (hdone _)
    (by simp [replaceSteps])
  exact ⟨_, hwritten.move hmay (m := .proceed) rfl (by simp [replaceSteps])⟩

/-- A writer that has come to its last step ends without a failure if there is a file to move. -/
theorem moved {k : Nat} (h : Leads mayMove i s t v
      ⟨(replaceSteps d name text).drop 4, some n, (bytes text).length, false⟩)
    (hsource : v.fileAt (d.withFileName name) = some k) :
    ∃ t', State.Runs mayMove s t' ∧
      t'.volume = (v.name (d.withFileName name) none).name d (some k) ∧
      t'.finished = s.finished ++ [i] ∧ ∀ j, j ≠ i → t'.writers j = s.writers j := by
  have hm : Writer.move v ⟨(replaceSteps d name text).drop 4, some n, (bytes text).length, false⟩
      .proceed = some ((v.name (d.withFileName name) none).name d (some k),
        ⟨[], some n, (bytes text).length, false⟩) := by
    simp [Writer.move, replaceSteps, Writer.advance, hsource]
  have hmove := (State.move_eq_some_iff (s := t) (i := i)).mpr
    ⟨_, _, by rw [h.writer, h.volume, hm], rfl⟩
  refine ⟨_, .move h.runs (hmay t h.others) .proceed hmove, rfl, ?_,
    fun j hj => (if_neg hj).trans (h.others j hj)⟩
  rw [← h.finished]
  simp [State.advanced]

/-- A writer whose document cannot be moved fails. -/
theorem failed (h : Leads mayMove i s t v w) (hw : w.todo ≠ []) :
    ∃ t', State.Runs mayMove s t' ∧ t'.volume = v ∧ (t'.writers i).failed = true ∧
      t'.finished = s.finished := by
  have hm : w.move v .fail = some (v, { w with todo := [], failed := true }) := by
    cases ht : w.todo with
    | nil => exact absurd ht hw
    | cons step rest => simp [Writer.move, ht]
  have hmove := (State.move_eq_some_iff (s := t) (i := i)).mpr
    ⟨_, _, by rw [h.writer, h.volume, hm], rfl⟩
  refine ⟨_, .move h.runs (hmay t h.others) .fail hmove, rfl, ?_, ?_⟩
  · simp [State.advanced]
  · rw [← h.finished]
    simp [State.advanced]

/-- A writer that nobody comes in between replaces the document. -/
theorem replaced (hs : s.writers i = .ofSteps (replaceSteps d name text)) :
    ∃ t, State.Runs mayMove s t ∧ t.finished = s.finished ++ [i] ∧
      t.volume.read d = some (bytes text) ∧ ∀ j, j ≠ i → t.writers j = s.writers j := by
  obtain ⟨t₁, hopened⟩ := (start rfl hs).opened hmay
  obtain ⟨t₂, hsynced⟩ := hopened.synced hmay
  obtain ⟨hself, hempty⟩ := Volume.create_self s.volume (d.withFileName name)
  obtain ⟨t₃, hruns, hvolume, hfinished, hothers⟩ := hsynced.moved hmay (k := _) hself
  refine ⟨t₃, hruns, hfinished, ?_, hothers⟩
  rw [hvolume]
  simp [Volume.read, hempty, overlay_all]

end State.Leads

/-- Two writers that nothing keeps apart. The second opens the temporary file before the first has moved
it, and empties it; so the document is empty once the first has ended without a failure. What the second
then writes goes into the document, although it fails in the end. -/
theorem torn_of_overlap {mayMove : State → Nat → Prop} {a b : String} (hij : i ≠ j)
    (hmay : ∀ s, mayMove s i ∧ mayMove s j)
    (hi : s.writers i = .ofSteps (replaceSteps d name a))
    (hj : s.writers j = .ofSteps (replaceSteps d name b)) :
    ∃ t t', State.Runs mayMove s t ∧ t.finished = s.finished ++ [i] ∧ t.volume.read d = some [] ∧
      State.Runs mayMove t t' ∧ (t'.writers j).failed = true ∧ t'.finished = t.finished ∧
        t'.volume.read d = some (bytes b) := by
  obtain ⟨t₁, hopened⟩ := (State.Leads.start rfl hi).opened fun t _ => (hmay t).1
  obtain ⟨t₂, hsynced⟩ := hopened.synced fun t _ => (hmay t).1
  have hsource := (Volume.create_self s.volume (d.withFileName name)).1
  generalize (s.volume.create _).1 = n at hsynced hsource
  have hnamed : t₂.volume.fileAt (d.withFileName name) = some n := by
    rw [hsynced.volume]
    exact hsource
  -- The second writer opens the file that the first one is about to move.
  have hfresh := (hsynced.others j hij.symm).trans hj
  obtain ⟨t₃, hemptied⟩ := (State.Leads.start rfl hfresh).opened fun t _ => (hmay t).2
  rw [Volume.create_of_fileAt hnamed] at hemptied
  have hwaiting := (hemptied.others i hij).trans hsynced.writer
  obtain ⟨t₄, hruns, hvolume, hfinished, hothers⟩ :=
    (State.Leads.start hemptied.volume hwaiting).moved (fun t _ => (hmay t).1) (k := n) hnamed
  have hdone : t₄.finished = s.finished ++ [i] := by
    rw [hfinished, hemptied.finished, hsynced.finished]
  -- The second writer goes on in what is the document by now.
  have hopen := (hothers j hij.symm).trans hemptied.writer
  obtain ⟨t₅, hwritten⟩ := (State.Leads.start rfl hopen).synced fun t _ => (hmay t).2
  obtain ⟨t₆, hruns', hvolume', hfailed, hfinished'⟩ :=
    hwritten.failed (fun t _ => (hmay t).2) (by simp [replaceSteps])
  refine ⟨t₄, t₆, (hsynced.runs.trans hemptied.runs).trans hruns, hdone, ?_, hruns', hfailed,
    hfinished', ?_⟩
  · rw [hvolume]
    simp [Volume.read]
  · rw [hvolume', hvolume]
    simp [Volume.read, overlay_all]

/-! ## The document of a resource -/

/-- The resource that a reader of a document gets. -/
def Volume.resource? (v : Volume) (d : Path) : Option Resource :=
  (v.read d).bind fun b => (text? b).bind Document.ofText?

theorem Volume.resource?_of_read {r : Resource} (hg : r.metadata.generation ≤ maxGeneration)
    (h : v.read d = some (bytes (Document.text r))) : v.resource? d = some r := by
  simp [Volume.resource?, h, text?_bytes, Document.ofText?_text hg]

theorem documentPath_ne_temporaryPath (base : Path) (l : Locator) :
    Store.documentPath base l ≠ Store.temporaryPath (Store.documentPath base l) := by
  intro h
  have hname := congrArg Path.fileName h
  rw [Store.temporaryPath, fileName_withFileName] at hname
  exact Store.temporaryName_ne_fileName _ base l hname.symm

/-- Whether only the given writer moves. -/
def State.Alone (i : Nat) (_ : State) (j : Nat) : Prop := j = i

/-- A writer that is left alone leaves the document as the steps on a tree of its own do. -/
theorem written_alone {st st' : Store} {r : Resource}
    (hs : s.writers i = .ofSteps (Store.writeSteps st.base r))
    (h : st.perform (Store.writeSteps st.base r) = (.ok (), st')) :
    ∃ t, State.Runs (State.Alone i) s t ∧ i ∈ t.finished ∧
      (t.volume.read (Store.documentPath st.base r.locator)).bind text? =
        (st'.files.read (Store.documentPath st'.base r.locator)).toOption := by
  have hmay : ∀ t : State, (∀ j, j ≠ i → t.writers j = s.writers j) → State.Alone i t i :=
    fun _ _ => rfl
  obtain ⟨t, hruns, hfinished, hread, -⟩ := State.Leads.replaced hmay hs
  refine ⟨t, hruns, by simp [hfinished], ?_⟩
  rw [Store.read_of_written h, hread, Option.bind_some, text?_bytes]
  rfl

/-- The readers of a document find what it was at first, or the whole of what the last writer gave it that
ended without a failure, as long as the writers take turns with the temporary file; and all writers of
one process do. -/
theorem replaced_as_a_whole {base : Path} {l : Locator} {r : Nat → Resource}
    (hl : ∀ i, (r i).locator = l) (hg : ∀ i, (r i).metadata.generation ≤ maxGeneration)
    (hv : v.IsSound (Store.documentPath base l) (Store.temporaryPath (Store.documentPath base l)))
    (hr : State.Runs State.InTurn (.start v fun i => Store.writeSteps base (r i)) t ∨
      ∃ process : Nat → Nat, (∀ i j, process i = process j) ∧
        State.Runs (State.Unlocked process) (.start v fun i => Store.writeSteps base (r i)) t) :
    (t.finished = [] → t.volume.read (Store.documentPath base l) =
        v.read (Store.documentPath base l)) ∧
      (∀ i, t.finished.getLast? = some i →
        t.volume.read (Store.documentPath base l) = some (bytes (Document.text (r i))) ∧
          t.volume.resource? (Store.documentPath base l) = some (r i)) ∧
      ∀ i, (t.writers i).failed = true → i ∉ t.finished := by
  have hsteps : (fun i => Store.writeSteps base (r i)) = fun i =>
      replaceSteps (Store.documentPath base l)
        (Store.temporaryName (Store.documentPath base l)) (Document.text (r i)) := by
    funext i
    rw [Store.writeSteps_eq_replaceSteps, hl i]
  have hruns : State.Runs State.InTurn (.start v fun i => Store.writeSteps base (r i)) t := by
    rcases hr with hr | ⟨process, hone, hr⟩
    · exact hr
    · exact (inTurn_of_unlocked hone (fun i hi => absurd rfl hi.1) hr).1
  rw [hsteps] at hruns
  have horderly := isOrderly_of_runs (isOrderly_start hv) (documentPath_ne_temporaryPath base l) hruns
  refine ⟨fun hnone => ?_, fun i hi => ?_, fun i hfailed hi => ?_⟩
  · have hread := horderly.document
    rwa [hnone] at hread
  · have hread := horderly.document
    rw [hi] at hread
    exact ⟨hread, Volume.resource?_of_read (hg i) hread⟩
  · exact absurd (horderly.ended i hi).2 (by simp [hfailed])

/-! ## Two writers -/

/-- A resource with the given template. -/
def draft (template : String) : Resource where
  metadata := ⟨"web", "default", "uid-1", 1, none, none, []⟩
  spec := { Spec.empty with template := some template }
  status := Status.empty

/-- The first writer writes one resource and all others another. -/
def drafts (i : Nat) : Resource := if i = 0 then draft "A" else draft "B"

def draftPath : Path := Store.documentPath ["state"] ⟨"default", "web"⟩

def volumeOf (b : Bytes) : Volume :=
  ⟨fun p => if p = draftPath then some 0 else none, fun _ => b, 1⟩

def draftStart : State :=
  .start (volumeOf (bytes (Document.text (draft "old")))) fun i => Store.writeSteps ["state"] (drafts i)

theorem isSound_volumeOf : (volumeOf b).IsSound draftPath (Store.temporaryPath draftPath) where
  used p n h := by
    simp only [volumeOf] at h ⊢
    split at h
    · cases h
      exact Nat.one_pos
    · cases h
  apart n h := by
    rw [volumeOf] at h
    simp only [(documentPath_ne_temporaryPath ["state"] ⟨"default", "web"⟩).symm, draftPath,
      if_false] at h
    cases h

theorem locator_drafts (i : Nat) : (drafts i).locator = ⟨"default", "web"⟩ := by
  unfold drafts
  split <;> rfl

theorem writers_draftStart (i : Nat) : draftStart.writers i =
    .ofSteps (replaceSteps draftPath (Store.temporaryName draftPath) (Document.text (drafts i))) := by
  show Writer.ofSteps (Store.writeSteps ["state"] (drafts i)) = _
  rw [Store.writeSteps_eq_replaceSteps, locator_drafts, draftPath]

/-- One writer of a process that has the store for itself. -/
theorem replaced_as_a_whole_drafts : ∃ t, State.Runs (State.Unlocked fun _ => 0) draftStart t ∧
    t.finished = [0] ∧ t.volume.resource? draftPath = some (draft "A") := by
  have hmay : ∀ t : State, (∀ j, j ≠ 0 → t.writers j = draftStart.writers j) →
      State.Unlocked (fun _ => 0) t 0 := by
    intro t hothers j hj _ hholding
    rw [hothers j hj] at hholding
    exact hholding.1 rfl
  obtain ⟨t, hruns, hfinished, -, -⟩ := State.Leads.replaced hmay (writers_draftStart 0)
  have hg : ∀ i, (drafts i).metadata.generation ≤ maxGeneration := by
    intro i
    unfold drafts
    split <;> decide
  have hwhole := replaced_as_a_whole (r := drafts) locator_drafts hg isSound_volumeOf
    (.inr ⟨fun _ => 0, fun _ _ => rfl, hruns⟩)
  exact ⟨t, hruns, hfinished, (hwhole.2.1 0 (by rw [hfinished]; rfl)).2⟩

/-- Writers of two processes tear the document, although each process has its lock. -/
theorem torn_between_processes : ∃ t t', State.Runs (State.Unlocked id) draftStart t ∧
    t.finished = [0] ∧ t.volume.read draftPath = some [] ∧ t.volume.resource? draftPath = none ∧
      State.Runs (State.Unlocked id) t t' ∧ (t'.writers 1).failed = true ∧ t'.finished = [0] ∧
        t'.volume.read draftPath = some (bytes (Document.text (draft "B"))) := by
  have hmay : ∀ s : State, s.Unlocked id 0 ∧ s.Unlocked id 1 :=
    fun _ => ⟨fun _ hj he => absurd he hj, fun _ hj he => absurd he hj⟩
  obtain ⟨t, t', hruns, hfinished, hempty, hruns', hfailed, hkept, hread⟩ :=
    torn_of_overlap (by decide) hmay (writers_draftStart 0) (writers_draftStart 1)
  have hnothing : text? [] = some "" := text?_bytes ""
  refine ⟨t, t', hruns, hfinished, hempty, ?_, hruns', hfailed, hkept.trans hfinished, hread⟩
  simp only [Volume.resource?, hempty, Option.bind_some, hnothing]
  decide

end StackKeeper.SharedFiles
