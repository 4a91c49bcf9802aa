import StackKeeper.Proofs.StoreFrame
import StackKeeper.Store.Request
/-!
# The life of a stored resource

A resource lives from the write that creates it to the update that removes it, and the next one under
its locator is another incarnation. Writes come in any order and with any copies, also with copies
of incarnations that are gone.

Results:
* `take_cases`, `stored?_take_cases`: what one write does.
* `life_of_keptThroughout`: what holds between two moments of one incarnation.
* `origin_of_stored`: every stored resource goes back to a write that created it.
* `lifecycle`: all of this for every run from an empty store, and what becomes of a write that is
  meant for another incarnation.
-/
namespace StackKeeper

/-- A write to the store, accepted or not. -/
inductive Write where
  | create (r : Resource) (uid : String) (now : Instant)
  | update (r : Resource)
  | updateStatus (r : Resource)

namespace Write

def locator : Write → Locator
  | create r _ _ => r.locator
  | update r => r.locator
  | updateStatus r => r.locator

/-- The uid that a write gives to a new resource. -/
def uid? : Write → Option String
  | create _ uid _ => some uid
  | _ => none

/-- What an accepted write makes of what is stored under its locator. -/
inductive Effect : Write → Option Resource → Option Resource → Prop
  | born (r : Resource) (uid : String) (now : Instant) :
    Effect (.create r uid now) none (some (Store.incarnate r uid now))
  | revised (x r : Resource) (same : x.metadata.uid = r.metadata.uid)
    (held : Store.isReleased (Store.revise x r) = false) :
    Effect (.update r) (some x) (some (Store.revise x r))
  | removed (x r : Resource) (same : x.metadata.uid = r.metadata.uid)
    (free : Store.isReleased (Store.revise x r) = true) : Effect (.update r) (some x) none
  | observed (x r : Resource) (same : x.metadata.uid = r.metadata.uid) :
    Effect (.updateStatus r) (some x) (some (x.withStatus r.status))

end Write

/-- What holds between two moments of one incarnation, `x` stored before and `y` after the writes, of
which the given number changed the spec. -/
structure Life (l : Locator) (changes : Nat) (ws : List Write) (x y : Resource) : Prop where
  uid : y.metadata.uid = x.metadata.uid
  created : y.metadata.created = x.metadata.created
  generation : y.metadata.generation = min (x.metadata.generation + changes) maxGeneration
  deletion : ∀ d, x.metadata.deletion = some d → y.metadata.deletion = some d
  status : (∀ r, .updateStatus r ∈ ws → r.locator ≠ l) → y.status = x.status
  declared : (∀ r, .update r ∈ ws → r.locator ≠ l) →
    y.spec = x.spec ∧ y.metadata.finalizers = x.metadata.finalizers

namespace Life

variable {l : Locator} {ws : List Write} {x y : Resource}

theorem refl (l : Locator) (h : x.metadata.generation ≤ maxGeneration) :
    Life l 0 [] x x :=
  ⟨rfl, rfl, by omega, fun _ h => h, fun _ => rfl, fun _ => ⟨rfl, rfl⟩⟩

theorem trans {z : Resource} {n m : Nat} {ws' : List Write} (h : Life l n ws x y)
    (h' : Life l m ws' y z) : Life l (n + m) (ws ++ ws') x z where
  uid := h'.uid.trans h.uid
  created := h'.created.trans h.created
  generation := by
    rw [h'.generation, h.generation]
    omega
  deletion d hd := h'.deletion d (h.deletion d hd)
  status hws := by
    simp only [List.mem_append, or_imp, forall_and] at hws
    rw [h'.status hws.2, h.status hws.1]
  declared hws := by
    simp only [List.mem_append, or_imp, forall_and] at hws
    obtain ⟨hspec, hfinalizers⟩ := h.declared hws.1
    obtain ⟨hspec', hfinalizers'⟩ := h'.declared hws.2
    exact ⟨hspec'.trans hspec, hfinalizers'.trans hfinalizers⟩

end Life

namespace Store
open FileTree StackKeeper.Path

variable {s s' : Store} {l : Locator} {w : Write} {ws : List Write} {x y r : Resource}

/-! ## One write -/

/-- The answer to a write and the store after it. -/
def take (s : Store) : Write → Except Error Unit × Store
  | .create r uid now => ((s.create r uid now).1.map fun _ => (), (s.create r uid now).2)
  | .update r => s.update r
  | .updateStatus r => s.updateStatus r

theorem ChangesOnly.refl (ls : List Locator) (s : Store) : ChangesOnly ls s s :=
  ⟨rfl, fun _ h => h, fun _ _ _ => .inl rfl⟩

/-- What an accepted write leaves. -/
structure Accepted (w : Write) (s s' : Store) : Prop where
  changes : ChangesOnly [w.locator] s s'
  room : s'.HasRoom w.locator
  file : s'.files.entryAt? (place s'.base w.locator) ≠ some .directory
  sound : s'.SoundAt w.locator
  effect : w.Effect (s.stored? w.locator) (s'.stored? w.locator)

/-- A document that was written is read back. -/
theorem accepted_of_written {y : Resource} (hl : w.locator.IsPlain) (hfits : Fits w.locator y)
    (hc : ChangesOnly [w.locator] s s') (hroom : s'.HasRoom w.locator)
    (he : s'.files.entryAt? (place s.base w.locator) = some (.file (Document.text y)))
    (heffect : w.Effect (s.stored? w.locator) (some y)) : Accepted w s s' := by
  rw [← hc.base] at he
  refine ⟨hc, hroom, by rw [he]; simp, ?_, ?_⟩
  · intro e he'
    rw [he] at he'
    exact .inr ⟨hroom, y, hfits, (Option.some.inj he').symm⟩
  · rw [stored?_of_file hl hroom he hfits.bounded]
    exact heffect

/-- A document that was removed is gone. -/
theorem accepted_of_removed (hl : w.locator.IsPlain) (hc : ChangesOnly [w.locator] s s')
    (hroom : s'.HasRoom w.locator) (he : s'.files.entryAt? (place s.base w.locator) = none)
    (heffect : w.Effect (s.stored? w.locator) none) : Accepted w s s' := by
  rw [← hc.base] at he
  have hsound : s'.SoundAt w.locator := by
    intro e he'
    rw [he] at he'
    cases he'
  refine ⟨hc, hroom, by rw [he]; simp, hsound, ?_⟩
  rw [stored?_eq_bind hl hsound, document?, he]
  exact heffect

theorem fits_incarnate (r : Resource) (uid : String) (now : Instant) :
    Fits r.locator (incarnate r uid now) :=
  ⟨rfl, Nat.le_refl 1, Nat.succ_le_succ (Nat.zero_le _), rfl⟩

theorem Fits.revise (h : Fits l x) (hheld : isReleased (revise x r) = false) :
    Fits l (revise x r) := by
  obtain ⟨hown, hpositive, hbounded, -⟩ := h
  have hone : 1 ≤ maxGeneration := by decide
  refine ⟨hown, ?_, ?_, hheld⟩
  · simp only [Store.revise]
    split <;> omega
  · simp only [Store.revise]
    split <;> omega

theorem Fits.withStatus (h : Fits l x) (status : Status) : Fits l (x.withStatus status) :=
  ⟨h.own, h.positive, h.bounded, h.held⟩

/-- A document that is there has its room. -/
theorem Sound.isFounded (hs : s.Sound) (hl : l.IsPlain) (hx : s.stored? l = some x) :
    s.IsFounded l := by
  rw [stored?_eq_bind hl (hs l hl), Option.bind_eq_some_iff] at hx
  obtain ⟨text, hd, -⟩ := hx
  unfold document? at hd
  split at hd
  · rename_i he
    obtain hdirectory | ⟨hroom, -⟩ := hs l hl _ he
    · cases hdirectory
    · exact ⟨hroom, fun _ => by rw [he]; simp⟩
  · cases hd

/-- A write over what is stored, once its incarnation has been found. -/
theorem overwrite_cases (hl : w.locator.IsPlain) {y : Resource} (hfits : Fits w.locator y)
    (heffect : w.Effect (s.stored? w.locator) (some y)) :
    (∃ s', s.perform (writeSteps s.base y) = (.ok (), s') ∧ Accepted w s s') ∨
      ∃ e s', s.perform (writeSteps s.base y) = (.error e, s') ∧ ChangesOnly [] s s' := by
  have hown := hfits.own
  rcases write_cases s (r := y) (by rwa [hown]) with
    ⟨s', hs', hc, hroom, he⟩ | ⟨reason, s', hs', hc⟩
  · rw [hown] at hc hroom he
    exact .inl ⟨s', hs', accepted_of_written hl hfits hc hroom he heffect⟩
  · exact .inr ⟨_, s', hs', hc⟩

/-- A write is accepted and does what it says, or it fails and changes no document. -/
theorem take_cases (hs : s.Sound) (hl : w.locator.IsPlain) :
    (∃ s', s.take w = (.ok (), s') ∧ Accepted w s s') ∨
      ∃ e s', s.take w = (.error e, s') ∧ ChangesOnly [] s s' := by
  cases w with
  | create r uid now =>
    rw [take, create]
    cases hget : s.get r.locator with
    | ok x => exact .inr ⟨_, s, rfl, .refl _ _⟩
    | error e =>
      cases hmissing : e.isNotFound with
      | false =>
        simp only [hmissing, Bool.false_eq_true, if_false]
        exact .inr ⟨e, s, rfl, .refl _ _⟩
      | true =>
        have hnone : s.stored? r.locator = none := by
          rw [stored?, hget]
          rfl
        have heffect : (Write.create r uid now).Effect (s.stored? r.locator)
            (some (incarnate r uid now)) := by
          rw [hnone]
          exact .born r uid now
        simp only [hmissing, if_true]
        rcases overwrite_cases hl (fits_incarnate r uid now) heffect with
          ⟨s', hs', ha⟩ | ⟨e, s', hs', hc⟩
        · rw [hs']
          exact .inl ⟨s', rfl, ha⟩
        · rw [hs']
          exact .inr ⟨e, s', rfl, hc⟩
  | update r =>
    cases hinc : s.incarnation r with
    | error e => exact .inr ⟨e, s, (refused_of_incarnation hinc).2, .refl _ _⟩
    | ok x =>
      obtain ⟨hget, huid⟩ := incarnation_eq_ok_iff.mp hinc
      have hx : s.stored? r.locator = some x := stored?_eq_some_iff.mpr hget
      rw [take, update_of_incarnation hinc]
      cases hrel : isReleased (revise x r) with
      | true =>
        rw [if_pos rfl]
        obtain ⟨s', hs', hc, he⟩ := remove_effect hl hget
        refine .inl ⟨s', hs', accepted_of_removed hl hc ((hs.isFounded hl hx).1.changes hc) he ?_⟩
        exact hx ▸ .removed x r huid hrel
      | false =>
        rw [if_neg Bool.false_ne_true]
        exact overwrite_cases hl ((hs.fits hl hx).revise hrel) (hx ▸ .revised x r huid hrel)
  | updateStatus r =>
    cases hinc : s.incarnation r with
    | error e => exact .inr ⟨e, s, (refused_of_incarnation hinc).1, .refl _ _⟩
    | ok x =>
      obtain ⟨hget, huid⟩ := incarnation_eq_ok_iff.mp hinc
      have hx : s.stored? r.locator = some x := stored?_eq_some_iff.mpr hget
      rw [take, updateStatus_of_incarnation hinc]
      exact overwrite_cases hl ((hs.fits hl hx).withStatus r.status) (hx ▸ .observed x r huid)

theorem Sound.take (hs : s.Sound) (hw : w.locator.IsPlain) : (s.take w).2.Sound := by
  rcases take_cases hs hw with ⟨s', hs', ha⟩ | ⟨e, s', hs', hc⟩
  · rw [hs']
    refine hs.changes ha.changes fun l hl => ?_
    rw [List.mem_singleton.mp hl]
    exact ha.sound
  · rw [hs']
    exact hs.changes hc (by simp)

theorem base_take (hs : s.Sound) (hw : w.locator.IsPlain) : (s.take w).2.base = s.base := by
  rcases take_cases hs hw with ⟨s', hs', ha⟩ | ⟨e, s', hs', hc⟩
  · rw [hs']
    exact ha.changes.base
  · rw [hs']
    exact hc.base

/-- A write has its effect on what is stored under its own locator when it is accepted, and on
nothing else. -/
theorem stored?_take_cases (hs : s.Sound) (hw : w.locator.IsPlain) (hl : l.IsPlain) :
    ((s.take w).1 = .ok () ∧ w.locator = l ∧
        w.Effect (s.stored? l) ((s.take w).2.stored? l)) ∨
      (¬ ((s.take w).1 = .ok () ∧ w.locator = l) ∧ (s.take w).2.stored? l = s.stored? l) := by
  rcases take_cases hs hw with ⟨s', hs', ha⟩ | ⟨e, s', hs', hc⟩
  · rw [hs']
    by_cases hwl : w.locator = l
    · subst hwl
      exact .inl ⟨rfl, rfl, ha.effect⟩
    · have hother : l ∉ [w.locator] := by simpa using Ne.symm hwl
      exact .inr ⟨fun h => hwl h.2,
        stored?_of_keepsPlace hl (hs l hl) ha.changes (ha.changes.others l hl hother)⟩
  · rw [hs']
    refine .inr ⟨?_, stored?_of_keepsPlace hl (hs l hl) hc (hc.others l hl (by simp))⟩
    simp

theorem IsFounded.take (hs : s.Sound) (hw : w.locator.IsPlain) (hl : l.IsPlain)
    (h : s.IsFounded l) : (s.take w).2.IsFounded l := by
  rcases take_cases hs hw with ⟨s', hs', ha⟩ | ⟨e, s', hs', hc⟩
  · rw [hs']
    refine h.changes hl ha.changes fun hmem => ?_
    rw [List.mem_singleton.mp hmem]
    exact ha.file
  · rw [hs']
    exact h.changes hl hc (by simp)

/-! ## Runs of writes -/

def run (s : Store) : List Write → Store
  | [] => s
  | w :: ws => (s.take w).2.run ws

/-- Whether something is stored under a locator at every moment of a run. -/
def KeptThroughout (s : Store) (l : Locator) : List Write → Prop
  | [] => (s.stored? l).isSome
  | w :: ws => (s.stored? l).isSome ∧ (s.take w).2.KeptThroughout l ws

/-- Whether a write is an accepted update with another spec than the stored one. -/
def changesSpec (s : Store) (l : Locator) : Write → Bool
  | .update r => r.locator = l && (s.update r).1.toBool &&
    (s.stored? l).any fun x => x.spec ≠ r.spec
  | _ => false

/-- How many writes of a run change the spec. -/
def specChanges (s : Store) (l : Locator) : List Write → Nat
  | [] => 0
  | w :: ws => (s.changesSpec l w).toNat + (s.take w).2.specChanges l ws

theorem run_append (s : Store) (ws ws' : List Write) : s.run (ws ++ ws') = (s.run ws).run ws' := by
  induction ws generalizing s with
  | nil => rfl
  | cons w ws ih => exact ih _

theorem Sound.run (hs : s.Sound) (hws : ∀ w ∈ ws, w.locator.IsPlain) : (s.run ws).Sound := by
  induction ws generalizing s with
  | nil => exact hs
  | cons w ws ih =>
    rw [List.forall_mem_cons] at hws
    exact ih (hs.take hws.1) hws.2

theorem IsFounded.run (hs : s.Sound) (hws : ∀ w ∈ ws, w.locator.IsPlain) (hl : l.IsPlain)
    (h : s.IsFounded l) : (s.run ws).IsFounded l := by
  induction ws generalizing s with
  | nil => exact h
  | cons w ws ih =>
    rw [List.forall_mem_cons] at hws
    exact ih (hs.take hws.1) hws.2 (h.take hs hws.1 hl)

theorem base_run (hs : s.Sound) (hws : ∀ w ∈ ws, w.locator.IsPlain) :
    (s.run ws).base = s.base := by
  induction ws generalizing s with
  | nil => rfl
  | cons w ws ih =>
    rw [List.forall_mem_cons] at hws
    exact (ih (hs.take hws.1) hws.2).trans (base_take hs hws.1)

/-! ## One incarnation -/

/-- What one write does to a resource that it leaves stored. -/
theorem life_of_take (hs : s.Sound) (hw : w.locator.IsPlain) (hl : l.IsPlain)
    (hx : s.stored? l = some x) (hy : (s.take w).2.stored? l = some y) :
    Life l (s.changesSpec l w).toNat [w] x y := by
  have hbounded := (hs.fits hl hx).bounded
  rcases stored?_take_cases hs hw hl with ⟨hok, hwl, heffect⟩ | ⟨hnot, hsame⟩
  · rw [hx, hy] at heffect
    cases heffect with
    | revised _ r huid hheld =>
      have hwl' : r.locator = l := hwl
      have hok' : (s.update r).1 = .ok () := hok
      have hchanges : s.changesSpec l (.update r) = decide (x.spec ≠ r.spec) := by
        rw [changesSpec, hok', hx, hwl']
        simp [Except.toBool]
      refine ⟨rfl, rfl, ?_, ?_, fun _ => rfl, fun h => absurd hwl' (h r (by simp))⟩
      · rw [hchanges]
        by_cases hspec : x.spec = r.spec
        · simp [revise, hspec, hbounded]
        · simp [revise, hspec]
      · intro d hd
        simp [revise, hd]
    | observed _ r huid =>
      have hwl' : r.locator = l := hwl
      refine ⟨rfl, rfl, ?_, fun _ h => h, fun h => absurd hwl' (h r (by simp)), fun _ => ⟨rfl, rfl⟩⟩
      show x.metadata.generation = min (x.metadata.generation + 0) maxGeneration
      omega
  · rw [hx, hy] at hsame
    cases hsame
    have hchanges : s.changesSpec l w = false := by
      cases w with
      | update r =>
        rw [changesSpec]
        by_cases hwl : r.locator = l
        · have herror : (s.update r).1 ≠ .ok () := fun h => hnot ⟨h, hwl⟩
          cases ha : (s.update r).1 with
          | ok _ => exact absurd ha herror
          | error e => simp [Except.toBool]
        · simp [hwl]
      | create _ _ _ => rfl
      | updateStatus _ => rfl
    rw [hchanges]
    exact ⟨rfl, rfl, by simp [hbounded], fun _ h => h, fun _ => rfl, fun _ => ⟨rfl, rfl⟩⟩

theorem KeptThroughout.head (h : s.KeptThroughout l ws) : ∃ x, s.stored? l = some x := by
  cases ws with
  | nil => exact Option.isSome_iff_exists.mp h
  | cons w ws => exact Option.isSome_iff_exists.mp h.1

theorem life_of_keptThroughout (hs : s.Sound) (hws : ∀ w ∈ ws, w.locator.IsPlain) (hl : l.IsPlain)
    (hk : s.KeptThroughout l ws) (hx : s.stored? l = some x)
    (hy : (s.run ws).stored? l = some y) : Life l (s.specChanges l ws) ws x y := by
  induction ws generalizing s x with
  | nil =>
    rw [run, hx] at hy
    cases hy
    exact Life.refl l (hs.fits hl hx).bounded
  | cons w ws ih =>
    rw [List.forall_mem_cons] at hws
    obtain ⟨z, hz⟩ := hk.2.head
    exact (life_of_take hs hws.1 hl hx hz).trans (ih (hs.take hws.1) hws.2 hk.2 hz hy)

/-! ## Beginnings -/

/-- What is stored after a run was stored all along, or the run created it and it was stored since. -/
theorem origin_of_stored (hs : s.Sound) (hws : ∀ w ∈ ws, w.locator.IsPlain) (hl : l.IsPlain)
    (hy : (s.run ws).stored? l = some y) :
    s.KeptThroughout l ws ∨ ∃ before r uid now after,
      ws = before ++ .create r uid now :: after ∧ r.locator = l ∧
      ((s.run before).take (.create r uid now)).2.stored? l = some (incarnate r uid now) ∧
      ((s.run before).take (.create r uid now)).2.KeptThroughout l after := by
  induction ws generalizing s with
  | nil => exact .inl (Option.isSome_iff_exists.mpr ⟨y, hy⟩)
  | cons w ws ih =>
    rw [List.forall_mem_cons] at hws
    rcases ih (hs.take hws.1) hws.2 hy with hk | ⟨before, r, uid, now, after, rfl, hborn⟩
    · obtain ⟨z, hz⟩ := hk.head
      cases hx : s.stored? l with
      | some x =>
        refine .inl ⟨?_, hk⟩
        rw [hx]
        rfl
      | none =>
        -- Nothing was stored before, so this write is the beginning.
        rcases stored?_take_cases hs hws.1 hl with ⟨-, hwl, heffect⟩ | ⟨-, hsame⟩
        · have hz' := hz
          rw [hx, hz] at heffect
          cases heffect with
          | born r uid now => exact .inr ⟨[], r, uid, now, ws, rfl, hwl, hz', hk⟩
        · rw [hsame, hx] at hz
          cases hz
    · exact .inr ⟨w :: before, r, uid, now, after, rfl, hborn⟩

/-- A store in which nothing is at the place of a document. -/
def IsEmpty (s : Store) : Prop :=
  ∀ l : Locator, l.IsPlain → s.files.entryAt? (place s.base l) = none

theorem IsEmpty.sound (h : s.IsEmpty) : s.Sound := by
  intro l hl e he
  rw [h l hl] at he
  cases he

theorem IsEmpty.stored?_eq_none (h : s.IsEmpty) (hl : l.IsPlain) : s.stored? l = none := by
  rw [stored?_eq_bind hl (h.sound l hl), document?, h l hl]
  rfl

theorem isEmpty_empty (base : Path) : (Store.mk base FileTree.empty).IsEmpty := by
  intro l hl
  have hne : place base l ≠ [] ∧ place base l ≠ [Path.root] := by
    refine ⟨by simp [place], fun h => ?_⟩
    have hname : documentName l = Path.root := by
      have hlast := congrArg List.getLast? h
      rw [place, List.getLast?_concat] at hlast
      exact Option.some.inj hlast
    have hlast := congrArg (fun c : String => c.toList.getLast?) hname
    rw [documentName, String.append_assoc] at hlast
    simp [String.toList_append, extension, Path.root, List.getLast?_append] at hlast
  rw [entryAt?, if_neg (by simp [hne])]
  rfl

/-- What is stored after a run from an empty store began with its creation. -/
theorem beginning_of_stored (hempty : s.IsEmpty) (hws : ∀ w ∈ ws, w.locator.IsPlain)
    (hl : l.IsPlain) (hx : (s.run ws).stored? l = some x) :
    ∃ before r uid now after, ws = before ++ .create r uid now :: after ∧ r.locator = l ∧
      Life l (((s.run before).take (.create r uid now)).2.specChanges l after) after
        (incarnate r uid now) x := by
  rcases origin_of_stored hempty.sound hws hl hx with
    hk | ⟨before, r, uid, now, after, rfl, hr, hborn, hk⟩
  · obtain ⟨y, hy⟩ := hk.head
    rw [hempty.stored?_eq_none hl] at hy
    cases hy
  · rw [run_append] at hx
    rw [List.forall_mem_append, List.forall_mem_cons] at hws
    have hs := (hempty.sound.run hws.1).take hws.2.1
    exact ⟨before, r, uid, now, after, rfl, hr,
      life_of_keptThroughout hs hws.2.2 hl hk hborn hx⟩

/-- With fresh uids, what is stored at two moments is of one incarnation exactly if something was
stored at every moment in between. -/
theorem keptThroughout_iff {past later : List Write} (hempty : s.IsEmpty)
    (hpast : ∀ w ∈ past, w.locator.IsPlain) (hlater : ∀ w ∈ later, w.locator.IsPlain)
    (hfresh : ((past ++ later).filterMap Write.uid?).Nodup) (hl : l.IsPlain)
    (hx : (s.run past).stored? l = some x) (hy : ((s.run past).run later).stored? l = some y) :
    (s.run past).KeptThroughout l later ↔ y.metadata.uid = x.metadata.uid := by
  have hs := hempty.sound.run hpast
  constructor
  · intro hk
    exact (life_of_keptThroughout hs hlater hl hk hx hy).uid
  · intro huid
    rcases origin_of_stored hs hlater hl hy with hk | ⟨before, r, uid, now, after, rfl, -, hborn, hk⟩
    · exact hk
    · -- Created since, it has a uid that none of the earlier writes gave.
      obtain ⟨before', r', uid', now', after', rfl, -, hlife⟩ :=
        beginning_of_stored hempty hpast hl hx
      rw [List.forall_mem_append, List.forall_mem_cons] at hlater
      rw [run_append] at hy
      have hs' := (hs.run hlater.1).take hlater.2.1
      have hlife' := life_of_keptThroughout hs' hlater.2.2 hl hk hborn hy
      have hsame : uid = uid' := by
        have h := hlife'.uid.symm.trans (huid.trans hlife.uid)
        exact h
      rw [List.filterMap_append, List.nodup_append] at hfresh
      exact absurd hsame.symm (hfresh.2.2 uid' (by simp [Write.uid?]) uid (by simp [Write.uid?]))

/-! ## Whole runs -/

/-- A write that is meant for another incarnation than the stored one fails and changes nothing. -/
theorem foreign_write (hl : r.locator = l)
    (hother : ∀ y, s.stored? l = some y → y.metadata.uid ≠ r.metadata.uid) :
    ∃ e, s.update r = (.error e, s) ∧ s.updateStatus r = (.error e, s) ∧
      e = match s.get l with
        | .ok _ => .resourceNotFound l.text
        | .error e => e := by
  subst hl
  rw [update, updateStatus, incarnation]
  cases hget : s.get r.locator with
  | error e => exact ⟨e, rfl, rfl, rfl⟩
  | ok y =>
    have huid := hother y (stored?_eq_some_iff.mpr hget)
    simp only [huid, if_false]
    exact ⟨_, rfl, rfl, rfl⟩

/-- The life of what is stored under a locator, for every run of writes from an empty store: `past` led
to the store as it is, and after `later` it is `s'`. -/
theorem lifecycle {s₀ : Store} {past later : List Write} (hempty : s₀.IsEmpty)
    (hpast : ∀ w ∈ past, w.locator.IsPlain) (hlater : ∀ w ∈ later, w.locator.IsPlain)
    (hfresh : ((past ++ later).filterMap Write.uid?).Nodup) (hs : s₀.run past = s)
    (hs' : s.run later = s') (hl : l.IsPlain) :
    -- A write has its effect when it is accepted, and nothing else changes what is stored.
    (∀ w, w.locator.IsPlain →
      (s.take w).1 = .ok () ∧ w.locator = l ∧
          w.Effect (s.stored? l) ((s.take w).2.stored? l) ∨
        ¬ ((s.take w).1 = .ok () ∧ w.locator = l) ∧
          (s.take w).2.stored? l = s.stored? l) ∧
    ∀ x, s.stored? l = some x →
      -- What is marked for deletion has finalizers.
      isReleased x = false ∧
      -- It began with its creation.
      (∃ before r uid now after, past = before ++ .create r uid now :: after ∧ r.locator = l ∧
        Life l (((s₀.run before).take (.create r uid now)).2.specChanges l after) after
          (incarnate r uid now) x) ∧
      -- What is stored later is of the same incarnation if something was stored all the time.
      (∀ y, s'.stored? l = some y →
        (s.KeptThroughout l later ↔ y.metadata.uid = x.metadata.uid) ∧
        (y.metadata.uid = x.metadata.uid → Life l (s.specChanges l later) later x y)) ∧
      -- A write that is then meant for another incarnation fails.
      ∀ r, r.locator = l → (∀ y, s'.stored? l = some y → y.metadata.uid ≠ r.metadata.uid) →
        ∃ e, s'.update r = (.error e, s') ∧ s'.updateStatus r = (.error e, s') ∧
          (e = .resourceNotFound l.text ∨
            l.ns = "" ∧ s'.files.entryAt? (place s₀.base l) = some .directory ∧
              e = unreadable (documentPath s₀.base l) .isDirectory) := by
  subst hs hs'
  have hs := hempty.sound.run hpast
  have hs' := hs.run hlater
  refine ⟨fun w hw => stored?_take_cases hs hw hl, fun x hx => ?_⟩
  have hborn := beginning_of_stored hempty hpast hl hx
  refine ⟨(hs.fits hl hx).held, hborn, fun y hy => ?_, fun r hr hother => ?_⟩
  · have hiff := keptThroughout_iff hempty hpast hlater hfresh hl hx hy
    exact ⟨hiff, fun huid => life_of_keptThroughout hs hlater hl (hiff.mpr huid) hx hy⟩
  · obtain ⟨e, hupdate, hstatus, he⟩ := foreign_write hr hother
    refine ⟨e, hupdate, hstatus, ?_⟩
    cases hget : ((s₀.run past).run later).get l with
    | ok y =>
      rw [hget] at he
      exact .inl he
    | error e' =>
      rw [hget] at he
      have hnone : ((s₀.run past).run later).stored? l = none := by
        rw [stored?, hget]
        rfl
      have hfounded := IsFounded.run hs hlater hl (hs.isFounded hl hx)
      have hbase := (base_run hs hlater).trans (base_run hempty.sound hpast)
      rcases get_of_isFounded hl (hs' l hl) hfounded hnone with hmissing | ⟨hns, hd, hio⟩
      · rw [hget] at hmissing
        exact .inl (he.trans (Except.error.inj hmissing))
      · rw [hget, hbase] at hio
        rw [hbase] at hd
        exact .inr ⟨hns, hd, he.trans (Except.error.inj hio)⟩

/-! ## A document in the place of a namespace -/

/-- The resource `x` of the empty namespace. -/
def looseLocator : Locator := ⟨"", "x"⟩

/-- A resource of a namespace whose directory has the place of the document of `x`. -/
def nestedLocator : Locator := ⟨"x.json", "y"⟩

/-- A resource with nothing but the given name, uid and template. -/
def plainResource (l : Locator) (uid template : String) : Resource where
  metadata := ⟨l.name, l.ns, uid, 1, none, none, []⟩
  spec := { Spec.empty with template := some template }
  status := Status.empty

/-- A store without documents, its base directory there or not. -/
def bareStore (entries : List (Path × FileEntry)) : Store := ⟨["state"], ⟨entries⟩⟩

def looseStore (text : String) : Store :=
  bareStore [(["state", "x.json"], .file text), (["state"], .directory)]

def nestedStore (text : String) : Store :=
  bareStore [(["state", "x.json", "y.json"], .file text), (["state", "x.json"], .directory),
    (["state"], .directory)]

theorem documentPath_looseLocator : documentPath ["state"] looseLocator = ["state", "x.json"] := by
  decide

theorem documentPath_nestedLocator :
    documentPath ["state"] nestedLocator = ["state", "x.json", "y.json"] := by decide

theorem get_looseStore (h : r.metadata.generation ≤ maxGeneration) :
    (looseStore (Document.text r)).get looseLocator = .ok r := by
  refine get_eq_ok_iff.mpr ⟨Document.text r, ?_, Document.ofText?_text h⟩
  show (looseStore (Document.text r)).files.read (documentPath ["state"] looseLocator) = _
  rw [documentPath_looseLocator]
  rfl

theorem take_create_of_missing {uid : String} {now : Instant}
    (hread : s.files.read (documentPath s.base r.locator) = .error .missing)
    (hwrite : s.perform (writeSteps s.base (incarnate r uid now)) = (.ok (), s')) :
    s.take (.create r uid now) = (.ok (), s') := by
  rw [take, create_of_missing hread hwrite]
  rfl

theorem take_create_looseLocator (uid : String) (now : Instant) (hr : r.locator = looseLocator) :
    (bareStore []).take (.create r uid now) =
      (.ok (), looseStore (Document.text (incarnate r uid now))) := by
  have hname : temporaryName ["state", "x.json"] = "x.tmp" := by decide
  have hl : (incarnate r uid now).locator = looseLocator := hr
  apply take_create_of_missing
  · show (bareStore []).files.read (documentPath ["state"] r.locator) = _
    rw [hr, documentPath_looseLocator]
    rfl
  · show (bareStore []).perform (writeSteps ["state"] (incarnate r uid now)) = _
    rw [writeSteps_eq_replaceSteps, hl, documentPath_looseLocator, hname]
    rfl

theorem take_create_nestedLocator (uid : String) (now : Instant) (hr : r.locator = nestedLocator) :
    (bareStore [(["state"], .directory)]).take (.create r uid now) =
      (.ok (), nestedStore (Document.text (incarnate r uid now))) := by
  have hname : temporaryName ["state", "x.json", "y.json"] = "y.tmp" := by decide
  have hl : (incarnate r uid now).locator = nestedLocator := hr
  apply take_create_of_missing
  · show (bareStore [(["state"], .directory)]).files.read (documentPath ["state"] r.locator) = _
    rw [hr, documentPath_nestedLocator]
    rfl
  · show (bareStore [(["state"], .directory)]).perform
      (writeSteps ["state"] (incarnate r uid now)) = _
    rw [writeSteps_eq_replaceSteps, hl, documentPath_nestedLocator, hname]
    rfl

theorem take_update_looseLocator (hx : x.metadata.generation ≤ maxGeneration)
    (hown : x.locator = looseLocator) (hr : r.locator = looseLocator)
    (huid : x.metadata.uid = r.metadata.uid) :
    (looseStore (Document.text x)).take (.update r) =
      (.ok (), if isReleased (revise x r) then bareStore [(["state"], .directory)]
        else looseStore (Document.text (revise x r))) := by
  have hname : temporaryName ["state", "x.json"] = "x.tmp" := by decide
  have hl : (revise x r).locator = looseLocator := hown
  rw [take, update_of_incarnation (incarnation_of_get (get_looseStore hx) hr huid)]
  cases isReleased (revise x r) with
  | true =>
    show (looseStore (Document.text x)).perform [.remove (documentPath ["state"] r.locator)] = _
    rw [hr, documentPath_looseLocator]
    rfl
  | false =>
    show (looseStore (Document.text x)).perform (writeSteps ["state"] (revise x r)) = _
    rw [writeSteps_eq_replaceSteps, hl, documentPath_looseLocator, hname]
    rfl

def daybreak : Instant := ⟨2026, 1, 1, 6, 0, 0, 0, rfl, rfl⟩

def bornResource : Resource := incarnate (plainResource looseLocator "" "A") "uid-1" daybreak

/-- The creation of `x`. -/
def birth : List Write := [.create (plainResource looseLocator "" "A") "uid-1" daybreak]

def revisedResource : Resource := revise bornResource (plainResource looseLocator "uid-1" "B")

/-- Another template is declared for `x`. -/
def revision : List Write := [.update (plainResource looseLocator "uid-1" "B")]

/-- The resource `x` is marked for deletion and so removed, and `y` is created. -/
def succession : List Write :=
  [.update (bornResource.marked daybreak),
    .create (plainResource nestedLocator "" "A") "uid-2" daybreak]

theorem run_birth : (bareStore []).run birth = looseStore (Document.text bornResource) := by
  rw [birth, run, take_create_looseLocator _ _ rfl]
  rfl

theorem stored?_bornResource : ((bareStore []).run birth).stored? looseLocator = some bornResource := by
  rw [run_birth, stored?_eq_some_iff]
  exact get_looseStore (by decide)

theorem take_revision : (looseStore (Document.text bornResource)).take
      (.update (plainResource looseLocator "uid-1" "B")) =
    (.ok (), looseStore (Document.text revisedResource)) := by
  have hupdate := @take_update_looseLocator bornResource (plainResource looseLocator "uid-1" "B")
    (by decide) rfl rfl rfl
  rwa [if_neg (by decide)] at hupdate

theorem stored?_revisedResource :
    (((bareStore []).run birth).run revision).stored? looseLocator = some revisedResource := by
  rw [run_birth, revision, run, take_revision, stored?_eq_some_iff]
  exact get_looseStore (by decide)

theorem specChanges_revision :
    ((bareStore []).run birth).specChanges looseLocator revision = 1 := by
  have hok := congrArg Prod.fst take_revision
  rw [take] at hok
  rw [revision, specChanges, specChanges, changesSpec, stored?_bornResource, run_birth, hok]
  decide

theorem life_of_revision :
    (bareStore []).IsEmpty ∧ (∀ w ∈ birth, w.locator.IsPlain) ∧ (∀ w ∈ revision, w.locator.IsPlain) ∧
      ((birth ++ revision).filterMap Write.uid?).Nodup ∧ looseLocator.IsPlain ∧
      ((bareStore []).run birth).stored? looseLocator = some bornResource ∧
      (((bareStore []).run birth).run revision).stored? looseLocator = some revisedResource ∧
      Life looseLocator 1 revision bornResource revisedResource := by
  have hempty : (bareStore []).IsEmpty := isEmpty_empty ["state"]
  have hbirth : ∀ w ∈ birth, w.locator.IsPlain := by decide
  have hrevision : ∀ w ∈ revision, w.locator.IsPlain := by decide
  have hfresh : ((birth ++ revision).filterMap Write.uid?).Nodup := by decide
  have hl : looseLocator.IsPlain := by decide
  obtain ⟨-, hlife⟩ := lifecycle hempty hbirth hrevision hfresh rfl rfl hl
  obtain ⟨-, -, hlater, -⟩ := hlife bornResource stored?_bornResource
  have h := (hlater revisedResource stored?_revisedResource).2 rfl
  rw [specChanges_revision] at h
  exact ⟨hempty, hbirth, hrevision, hfresh, hl, stored?_bornResource, stored?_revisedResource, h⟩

theorem run_succession : ((bareStore []).run birth).run succession =
    nestedStore
      (Document.text (incarnate (plainResource nestedLocator "" "A") "uid-2" daybreak)) := by
  have hupdate := @take_update_looseLocator bornResource (bornResource.marked daybreak)
    (by decide) rfl rfl rfl
  rw [if_pos (by decide)] at hupdate
  rw [run_birth, succession, run, hupdate, run, take_create_nestedLocator _ _ rfl]
  rfl

theorem get_nestedStore (text : String) :
    (nestedStore text).get looseLocator =
      .error (unreadable (documentPath ["state"] looseLocator) .isDirectory) := by
  have hread : (nestedStore text).files.read (documentPath (nestedStore text).base looseLocator) =
      .error (.refused .isDirectory) := by
    show (nestedStore text).files.read (documentPath ["state"] looseLocator) = _
    rw [documentPath_looseLocator]
    rfl
  rw [get, hread]
  rfl

/-- The resource `x` is removed, and the directory of a namespace takes the place of its document: a
copy of `x` is then refused, but not as missing. -/
theorem stale_copy_not_missing :
    ¬ ∀ (past later : List Write) (l : Locator) (x r : Resource),
      (∀ w ∈ past, w.locator.IsPlain) → (∀ w ∈ later, w.locator.IsPlain) → l.IsPlain →
      ((past ++ later).filterMap Write.uid?).Nodup → ((bareStore []).run past).stored? l = some x →
      r.locator = l → r.metadata.uid = x.metadata.uid →
      (∀ y, (((bareStore []).run past).run later).stored? l = some y →
        y.metadata.uid ≠ r.metadata.uid) →
      ((((bareStore []).run past).run later).updateStatus r).1 =
        .error (.resourceNotFound l.text) := by
  intro h
  have hnone : ∀ y, (((bareStore []).run birth).run succession).stored? looseLocator = some y →
      y.metadata.uid ≠ bornResource.metadata.uid := by
    intro y hy
    rw [run_succession, stored?_eq_some_iff, get_nestedStore] at hy
    cases hy
  have hmissing := h birth succession looseLocator bornResource bornResource (by decide) (by decide)
    (by decide) (by decide) stored?_bornResource rfl rfl hnone
  have hlocator : bornResource.locator = looseLocator := rfl
  rw [run_succession, updateStatus, incarnation, hlocator, get_nestedStore] at hmissing
  cases hmissing

end Store
end StackKeeper
