import StackKeeper.Proofs.Course
import StackKeeper.Proofs.Ledger
import StackKeeper.Proofs.PassEnding
import StackKeeper.Store.Request
/-!
# Passes that make no update call

The status of a resource keeps the hash of the inputs that were recorded last. A pass that finds this
hash to be the current one makes no update call: it goes by what was recorded, and what was accepted
after that goes unnoticed.

Results:
* `recorded_of_reached`: the stored hash is that of the inputs recorded last.
* `accepted_of_noneLapsed`: it is accepted last too, if all that was accepted was recorded.
* `upToDate_sound_iff`: when a pass that makes no update call is right.
-/
namespace StackKeeper

/-! ## The books over a course -/

namespace Course
open Store Pass Follow Refresh

/-- What was accepted, for every stack, and what was recorded last for the resource. -/
structure Books where
  accepted : Ledger
  recorded : Option StackInputs

/-- What a step does to the books. -/
def Books.Notes (b : Books) (step : Step) (b' : Books) : Prop :=
  match step with
  | .pass _ _ log _ =>
    Chain Ledger.Notes b.accepted log b'.accepted ∧ b'.recorded = log.recorded?.or b.recorded
  | .birth => b'.accepted = b.accepted ∧ b'.recorded = none
  | .elsewhere log => Chain Ledger.Notes b.accepted log b'.accepted ∧ b'.recorded = b.recorded
  | .tick _ _ _ _ _ | .request _ => b' = b

/-- The books after the steps, which come latest first. -/
def Booked : List Step → Books → Prop
  | [], b => b = ⟨fun _ => none, none⟩
  | step :: past, b => ∃ earlier, Booked past earlier ∧ earlier.Notes step b

variable {l : Locator} {past : List Step} {s s' : Store} {m : Remote} {p : Policy} {log : Log}
  {b b' : Books}

/-- A pass under the policy has read the resource. -/
def Meets (l : Locator) (steps : List Step) (p : Policy) (r : Resource) : Prop :=
  ∃ m log result, Step.pass m p log result ∈ steps ∧ ⟨.getResource l, .ok r⟩ ∈ log

theorem Meets.later {steps : List Step} {step : Step} {r : Resource} (h : Meets l steps p r) :
    Meets l (step :: steps) p r := by
  obtain ⟨m, log, result, hm, hr⟩ := h
  exact ⟨m, log, result, List.mem_cons_of_mem _ hm, hr⟩

/-- The inputs that passes have met have short texts, and no two of them collide. -/
structure Unambiguous (l : Locator) (steps : List Step) : Prop where
  fits : ∀ p r, Meets l steps p r → Fingerprint.ResourceFits p r
  apart : ∀ p r p' r', Meets l steps p r → Meets l steps p' r' →
    Fingerprint.ofResource p r = Fingerprint.ofResource p' r' →
    Fingerprint.bytesOf p r = Fingerprint.bytesOf p' r'

/-- The hash is that of the inputs, which a pass has submitted; without any there is none. -/
def HashOf (l : Locator) (steps : List Step) (inputs : Option StackInputs) (hash : String) : Prop :=
  match inputs with
  | none => hash = ""
  | some i => ∃ p r t id, Meets l steps p r ∧ r.spec.templateSource? = some t ∧
      i = p.inputs r t id ∧ hash = Fingerprint.ofResource p r

theorem HashOf.later {inputs : Option StackInputs} {hash : String} (h : HashOf l past inputs hash)
    (step : Step) : HashOf l (step :: past) inputs hash := by
  cases inputs with
  | none => exact h
  | some i =>
    obtain ⟨p, r, t, id, hm, hi⟩ := h
    exact ⟨p, r, t, id, hm.later, hi⟩

/-- The status carries the hash of what was recorded last. -/
def HashKept (l : Locator) (steps : List Step) (b : Books) (st : Status) : Prop :=
  HashOf l steps b.recorded st.appliedHash

theorem hashKept_of_pass {result : Except Error Outcome} (h : PassLog p l log result)
    (hc : Chain (Moves l) s log s') (hs : s.Holds l (HashKept l past b))
    (hb : b'.recorded = log.recorded?.or b.recorded) :
    s'.Holds l (HashKept l (Step.pass m p log result :: past) b') := by
  intro r' hr'
  obtain ⟨hl, hafter⟩ := stored_after_log hs.owns hc hr'
  refine ⟨hl, ?_⟩
  unfold HashKept
  rcases records_of_passLog h with ⟨hnone, hw⟩ | ⟨r, rest, rfl, ⟨hnone, hw⟩ | ⟨t, id, ht, hrec, -, hw⟩⟩
  · rw [hb, hnone, Option.none_or]
    rcases hafter with ⟨r₀, hr₀, hst, -⟩ | ⟨e, he, w, ⟨-, rfl⟩, -⟩
    · rw [hst]
      exact (hs r₀ hr₀).2.later _
    · exact absurd he (hw w)
  · have hget := get_of_chain hc
    rw [hb, hnone, Option.none_or]
    rcases hafter with ⟨r₀, hr₀, hst, -⟩ | ⟨e, he, w, ⟨-, rfl⟩, hst⟩
    · rw [hst]
      exact (hs r₀ hr₀).2.later _
    · rw [hst, hw w he]
      exact (hs r hget).2.later _
  · obtain ⟨⟨w₀, hw₀⟩, hw⟩ := hw
    have hget := get_of_chain hc
    have hlw : w₀.locator = l := by
      obtain ⟨r₁, rest₁, heq, hwritten⟩ := writes_of_passLog h hw₀
      cases heq
      rw [hwritten.locator_eq, (hs r hget).1]
    rw [hb, hrec, Option.some_or]
    refine ⟨p, r, t, id, ⟨m, _, result, List.mem_cons_self, List.mem_cons_self⟩, ht, rfl, ?_⟩
    rcases hafter with ⟨r₀, hr₀, hst, hquiet⟩ | ⟨e, he, w, ⟨-, rfl⟩, hst⟩
    · exact absurd ⟨hlw, rfl⟩ (hquiet _ hw₀ w₀)
    · rw [hst, hw w he]

theorem hashKept_step {step : Step} (h : s.Holds l (HashKept l past b)) (hs : step.Takes l s s')
    (hb : b.Notes step b') : s'.Holds l (HashKept l (step :: past) b') := by
  have hlater : s.Holds l (HashKept l (step :: past) b) :=
    fun r hr => ⟨(h r hr).1, (h r hr).2.later _⟩
  cases step with
  | pass m p log result =>
    obtain ⟨hran, -, hc⟩ := hs
    exact hashKept_of_pass (passLog_of_ran hran) hc h hb.2
  | tick m secs entries log summary =>
    obtain ⟨hran, ha, hc⟩ := hs
    cases hb
    exact holds_of_tick hran ha hc hlater fun st ref shown members _ hst => hst
  | request r =>
    cases hb
    exact holds_of_request hs.1 hs.2 hlater
  | birth =>
    intro r hr
    obtain ⟨hl, hst⟩ := hs.2 r hr
    refine ⟨hl, ?_⟩
    unfold HashKept
    rw [hb.2, hst]
    rfl
  | elsewhere log =>
    refine Holds.of_get (fun r hr => ⟨(h r hr).1, ?_⟩) hs
    unfold HashKept
    rw [hb.2]
    exact (h r hr).2.later _

theorem recorded_of_reached (h : Reached l past s) (hb : Booked past b) :
    s.Holds l (HashKept l past b) := by
  induction h generalizing b with
  | start h => exact fun r hr => absurd hr (h r)
  | step h hs ih =>
    obtain ⟨earlier, hearlier, hnotes⟩ := hb
    exact hashKept_step (ih hearlier) hs hnotes

/-! ## Books without a lapse -/

/-- The books after the steps, when each step has recorded what it got accepted for the stack. -/
def NoneLapsed (id : String) : List Step → Books → Prop
  | [], b => b = ⟨fun _ => none, none⟩
  | step :: past, b => ∃ earlier, NoneLapsed id past earlier ∧ earlier.Notes step b ∧
      (b.accepted id = earlier.accepted id ∨ b.recorded = b.accepted id)

theorem NoneLapsed.booked {id : String} (h : NoneLapsed id past b) : Booked past b := by
  induction past generalizing b with
  | nil => exact h
  | cons step past ih =>
    obtain ⟨earlier, hearlier, hnotes, -⟩ := h
    exact ⟨earlier, ih hearlier, hnotes⟩

theorem accepted_of_pass {result : Except Error Outcome} {j : StackInputs}
    (h : PassLog p l log result) (hc : Chain Ledger.Notes b.accepted log b'.accepted)
    (hj : log.recorded? = some j) : b'.accepted j.stack = some j := by
  rcases records_of_passLog h with ⟨hnone, -⟩ | ⟨r, rest, -, ⟨hnone, -⟩ | ⟨t, id, -, hrec, hlast, -⟩⟩
  · cases hnone.symm.trans hj
  · cases hnone.symm.trans hj
  · cases hrec.symm.trans hj
    exact Ledger.entered_of_acceptsLast hc hlast

/-- Without a lapse, what was recorded last for a stack is what was accepted last for it. -/
theorem accepted_of_noneLapsed {id : String} {j : StackInputs} (h : Reached l past s)
    (hb : NoneLapsed id past b) (hj : b.recorded = some j) (hid : j.stack = id) :
    b.accepted id = some j := by
  induction h generalizing b with
  | start h =>
    cases hb
    cases hj
  | @step past s s' step h hs ih =>
    obtain ⟨earlier, hearlier, hnotes, hsame | hrec⟩ := hb
    · rw [hsame]
      cases step with
      | pass m p log result =>
        obtain ⟨hc, hb⟩ := hnotes
        cases hlog : log.recorded? with
        | none =>
          rw [hlog, Option.none_or] at hb
          exact ih hearlier (hb.symm.trans hj)
        | some i =>
          rw [hlog, Option.some_or] at hb
          cases hb.symm.trans hj
          rw [← hsame, ← hid]
          exact accepted_of_pass (passLog_of_ran hs.1) hc hlog
      | tick m secs entries log summary =>
        cases hnotes
        exact ih hearlier hj
      | request r =>
        cases hnotes
        exact ih hearlier hj
      | birth => cases hnotes.2.symm.trans hj
      | elsewhere log => exact ih hearlier (hnotes.2.symm.trans hj)
    · rw [← hrec, hj]

/-! ## Passes that make no update call -/

/-- A pass that ends up to date without an update call found the stack current. -/
theorem current_of_shortcut (h : PassLog p l log (.ok .upToDate))
    (hu : ∀ inputs, .updateStack inputs ∉ log.calls) :
    ∃ r shown t rest, log = ⟨.getResource l, .ok r⟩ :: ⟨.getStack r.stackRef, .ok shown⟩ :: rest ∧
      r.spec.templateSource? = some t ∧ isCurrent p r shown = true := by
  obtain ⟨r, shown, rest, rfl, -, -, -, -, -, hupdate⟩ := upToDate_of_passLog h
  obtain ⟨t, ht, ⟨hc, -⟩ | ⟨-, -, e, tail, -, rfl, -⟩⟩ := upToDate_of_updateLog hupdate rfl
  · exact ⟨r, shown, t, rest, rfl, ht, hc⟩
  · exact absurd (by simp) (hu (p.inputs r t shown.id))

/-- When a pass ends up to date without an update call, the current inputs are those recorded last.
They are then those that the API accepted last for the stack exactly if nothing else was accepted
for it since, as is the case if they were recorded for this stack and every step has recorded what
it got accepted for it. -/
theorem upToDate_sound_iff (h : Reached l past s) (hb : Booked past b)
    (hp : (Step.pass m p log (.ok .upToDate)).Takes l s s')
    (hu : ∀ inputs, .updateStack inputs ∉ log.calls)
    (hclear : Unambiguous l (Step.pass m p log (.ok .upToDate) :: past)) :
    ∃ r t shown j, s.get l = .ok r ∧ r.spec.templateSource? = some t ∧
      m.look r.stackRef = some shown ∧ b.recorded = some j ∧ j.Same (p.inputs r t shown.id) ∧
      ((∃ i, b.accepted shown.id = some i ∧ i.Same (p.inputs r t shown.id)) ↔
        ∃ i, b.accepted shown.id = some i ∧ i.Same j) ∧
      (j.stack = shown.id → NoneLapsed shown.id past b → b.accepted shown.id = some j) := by
  obtain ⟨hran, ha, hc⟩ := hp
  obtain ⟨r, shown, t, rest, rfl, ht, hcur⟩ := current_of_shortcut (passLog_of_ran hran) hu
  have hget : s.get l = .ok r := get_of_chain hc
  have hlook : m.look r.stackRef = some shown := ha ⟨.getStack r.stackRef, .ok shown⟩ (by simp)
  have hhash : r.status.appliedHash = Fingerprint.ofResource p r := by
    simp only [isCurrent, Bool.and_eq_true, beq_iff_eq] at hcur
    exact hcur.1.1
  have hkept : HashOf l past b.recorded r.status.appliedHash := (recorded_of_reached h hb r hget).2
  cases hj : b.recorded with
  | none =>
    rw [hj] at hkept
    exact absurd (hhash.symm.trans hkept) (Fingerprint.hash_ne_empty _ _ _)
  | some j =>
    rw [hj] at hkept
    obtain ⟨p₀, r₀, t₀, id, hmeets, ht₀, rfl, hhash₀⟩ := hkept
    have hthis : Meets l (Step.pass m p (⟨.getResource l, .ok r⟩ ::
        ⟨.getStack r.stackRef, .ok shown⟩ :: rest) (.ok .upToDate) :: past) p r :=
      ⟨m, _, _, List.mem_cons_self, List.mem_cons_self⟩
    have hbytes := hclear.apart p₀ r₀ p r hmeets.later hthis (hhash₀.symm.trans hhash)
    have hsame : (p₀.inputs r₀ t₀ id).Same (p.inputs r t shown.id) :=
      Fingerprint.same_of_bytesOf_eq (hclear.fits p₀ r₀ hmeets.later) (hclear.fits p r hthis) ht₀ ht
        hbytes
    refine ⟨r, t, shown, _, hget, ht, hlook, rfl, hsame, ⟨?_, ?_⟩, ?_⟩
    · rintro ⟨i, hi, hcurrent⟩
      exact ⟨i, hi, hcurrent.trans hsame.symm⟩
    · rintro ⟨i, hi, hrecorded⟩
      exact ⟨i, hi, hrecorded.trans hsame⟩
    · intro hstack hnone
      exact accepted_of_noneLapsed h hnone hj hstack

/-! ## A stack that runs other inputs than the declared ones -/

def webSpec (text : String) : Spec := { Spec.empty with template := some text }

def createdStack : RemoteStack :=
  ⟨"s1", "default-web", "CREATE_COMPLETE", none, none, TextMap.empty,
    plainPolicy.effectiveTags newResource, none⟩

def updatedStack : RemoteStack := { createdStack with status := "UPDATE_COMPLETE" }

def createdResource : Resource := createdAs plainPolicy newResource "s1"

def editedResource : Resource := revise createdResource (createdResource.withSpec (webSpec "u"))

def restoredResource : Resource := revise editedResource (editedResource.withSpec (webSpec "t"))

/-- The change of the template shows in the hash. -/
theorem ofResource_newResource_ne : Fingerprint.ofResource plainPolicy newResource ≠
    Fingerprint.ofResource plainPolicy editedResource := by decide +kernel

/-- Once the template is changed back, the hash is the old one. -/
theorem appliedHash_restoredResource :
    restoredResource.status.appliedHash = Fingerprint.ofResource plainPolicy restoredResource := rfl

/-- A pass whose update is accepted and cannot be recorded. -/
def lapsedLog : Log :=
  [⟨.getResource webLocator, .ok editedResource⟩,
    ⟨.getStack editedResource.stackRef, .ok createdStack⟩,
    ⟨.updateStack (plainPolicy.inputs editedResource (.body "u") "s1"), .ok ()⟩,
    ⟨.updateStatus (submittedAs plainPolicy editedResource), .error (.storeIo "disk full")⟩]

theorem takes_lapsedLog :
    (Step.pass (onlyStack createdStack (by decide)) plainPolicy lapsedLog
      (.error (.storeIo "disk full"))).Takes webLocator
        (webStore (Document.text editedResource)) (webStore (Document.text editedResource)) := by
  refine ⟨?_, ?_, ?_⟩
  · have hcur : isCurrent plainPolicy editedResource createdStack = false :=
      isCurrent_eq_false_iff.mpr fun h => ofResource_newResource_ne h.1
    have hupdate := UpdateLog.accepted (.body "u") (by decide) hcur rfl
      (.unrecorded (.storeIo "disk full") rfl)
    have hsettle := SettleLog.settled createdStack (by decide) (by decide)
      (by decide) hupdate
    exact (PassLog.read editedResource (.settling rfl (by decide) hsettle)).ran
  · have href : editedResource.stackRef = "s1" := by decide
    simp [lapsedLog, Remote.Answers, onlyStack, createdStack, href]
  · have hl : (submittedAs plainPolicy editedResource).locator = webLocator := rfl
    refine ⟨_, moves_read_webStore (by decide), _, rfl, _, rfl, _, ?_, rfl⟩
    simp only [Moves, hl, if_true]
    exact .inr ⟨⟨_, rfl, rfl⟩, rfl⟩

/-- A pass that finds the recorded hash to be the current one. -/
def shortcutLog : Log :=
  [⟨.getResource webLocator, .ok restoredResource⟩,
    ⟨.getStack restoredResource.stackRef, .ok updatedStack⟩, ⟨.getMembers "s1", .ok []⟩,
    ⟨.updateStatus (merged restoredResource updatedStack []), .ok ()⟩]

theorem takes_shortcutLog :
    (Step.pass (onlyStack updatedStack (by decide)) plainPolicy shortcutLog (.ok .upToDate)).Takes
      webLocator (webStore (Document.text restoredResource))
        (webStore (Document.text (merged restoredResource updatedStack []))) := by
  refine ⟨?_, ?_, ?_⟩
  · have hcur : isCurrent plainPolicy restoredResource updatedStack = true := by
      rw [isCurrent, appliedHash_restoredResource, beq_self_eq_true]
      decide
    have hrefresh := RefreshLog.written (r := restoredResource) (s := updatedStack) []
      (by decide)
    have hupdate := UpdateLog.current (.body "t") (by decide) hcur hrefresh
    have hsettle := SettleLog.settled updatedStack (by decide) (by decide)
      (by decide) hupdate
    exact (PassLog.read restoredResource (.settling rfl (by decide) hsettle)).ran
  · have href : restoredResource.stackRef = "s1" := by decide
    simp [shortcutLog, Remote.Answers, onlyStack, updatedStack, createdStack, href]
  · exact ⟨_, moves_read_webStore (by decide), _, rfl, _, rfl, _,
      moves_write_webStore (by decide) rfl rfl rfl, rfl⟩

/-- The steps up to the second change of the template, latest first. -/
def lapsedSteps : List Step :=
  [.request (editedResource.withSpec (webSpec "t")),
    .pass (onlyStack createdStack (by decide)) plainPolicy lapsedLog
      (.error (.storeIo "disk full")),
    .request (createdResource.withSpec (webSpec "u")),
    .pass (onlyStack createdStack (by decide)) plainPolicy
      (creatingLog newResource (.error (.stackNotFound newResource.stackRef)) "s1") (.ok .created),
    .birth]

theorem takes_edit {r : Resource} (spec : Spec) (hg : r.metadata.generation ≤ maxGeneration)
    (hl : r.locator = webLocator) (hm : r.isMarked = false) :
    (Step.request (r.withSpec spec)).Takes webLocator (webStore (Document.text r))
      (webStore (Document.text (revise r (r.withSpec spec)))) := by
  have hrel : isReleased (revise r (r.withSpec spec)) = false := by
    have hd : r.metadata.deletion = none := by simpa [Resource.isMarked] using hm
    simp [isReleased, Resource.isMarked, revise, Resource.withSpec, hd]
  have hupdate := update_webStore hg hl (show (r.withSpec spec).locator = webLocator from hl) rfl hrel
  exact ⟨hl, congrArg Prod.snd hupdate⟩

theorem reached_lapsedSteps :
    Reached webLocator lapsedSteps (webStore (Document.text restoredResource)) := by
  have hcreated := Reached.step reached_birth (takes_creatingLog
    (m := onlyStack createdStack (by decide)) (.error (.stackNotFound newResource.stackRef)) "s1"
    (by decide) rfl rfl (by decide) (by decide) (.inl ⟨_, rfl, rfl⟩)
    (fun _ => by decide))
  have hedited := Reached.step hcreated (takes_edit (webSpec "u") (by decide) rfl rfl)
  have hlapsed := Reached.step hedited takes_lapsedLog
  exact .step hlapsed (takes_edit (webSpec "t") (by decide) rfl rfl)

def recordedInputs : StackInputs := plainPolicy.inputs newResource (.body "t") "s1"

def acceptedInputs : StackInputs := plainPolicy.inputs editedResource (.body "u") "s1"

/-- The books before the change of the template was accepted. -/
def createdBooks : Books := ⟨Ledger.enter (fun _ => none) recordedInputs, some recordedInputs⟩

def lapsedBooks : Books := { createdBooks with accepted := createdBooks.accepted.enter acceptedInputs }

theorem noneLapsed_createdBooks : NoneLapsed "s1" (lapsedSteps.drop 2) createdBooks := by
  have hborn : NoneLapsed "s1" [.birth] ⟨fun _ => none, none⟩ := ⟨_, rfl, ⟨rfl, rfl⟩, .inl rfl⟩
  have hcreated : NoneLapsed "s1" (lapsedSteps.drop 3) createdBooks :=
    ⟨_, hborn, ⟨⟨_, rfl, _, rfl, _, rfl, _, rfl, _, rfl, rfl⟩, rfl⟩, .inr rfl⟩
  exact ⟨_, hcreated, rfl, .inl rfl⟩

theorem booked_lapsedSteps : Booked lapsedSteps lapsedBooks := by
  have hlapsed : Booked (lapsedSteps.drop 1) lapsedBooks :=
    ⟨_, noneLapsed_createdBooks.booked, ⟨_, rfl, _, rfl, _, rfl, _, rfl, rfl⟩, rfl⟩
  exact ⟨_, hlapsed, rfl⟩

/-- The resources that the passes have read. -/
theorem eq_of_meets {p : Policy} {r : Resource}
    (h : Meets webLocator (Step.pass (onlyStack updatedStack (by decide)) plainPolicy shortcutLog
      (.ok .upToDate) :: lapsedSteps) p r) :
    p = plainPolicy ∧ (r = newResource ∨ r = editedResource ∨ r = restoredResource) := by
  obtain ⟨m, log, result, hm, hr⟩ := h
  simp only [lapsedSteps, List.mem_cons, List.not_mem_nil, or_false, reduceCtorEq, false_or,
    Step.pass.injEq] at hm
  rcases hm with ⟨-, rfl, rfl, -⟩ | ⟨-, rfl, rfl, -⟩ | ⟨-, rfl, rfl, -⟩
  · exact ⟨rfl, .inr (.inr (by simpa [shortcutLog] using hr))⟩
  · exact ⟨rfl, .inr (.inl (by simpa [lapsedLog] using hr))⟩
  · exact ⟨rfl, .inl (by simpa [creatingLog] using hr)⟩

theorem unambiguous_lapsedSteps :
    Unambiguous webLocator (Step.pass (onlyStack updatedStack (by decide)) plainPolicy shortcutLog
      (.ok .upToDate) :: lapsedSteps) := by
  have hback : Fingerprint.bytesOf plainPolicy restoredResource =
      Fingerprint.bytesOf plainPolicy newResource := rfl
  constructor
  · intro p r h
    obtain ⟨rfl, rfl | rfl | rfl⟩ := eq_of_meets h <;>
      exact ⟨by decide, by decide, by decide, by decide,
        by decide, by decide⟩
  · intro p r p' r' h h' heq
    obtain ⟨rfl, rfl | rfl | rfl⟩ := eq_of_meets h <;>
      obtain ⟨rfl, rfl | rfl | rfl⟩ := eq_of_meets h'
    · rfl
    · exact absurd heq ofResource_newResource_ne
    · exact hback.symm
    · exact absurd heq.symm ofResource_newResource_ne
    · rfl
    · exact absurd heq.symm ofResource_newResource_ne
    · exact hback
    · exact absurd heq ofResource_newResource_ne
    · rfl

theorem shortcut_after_lapse :
    Reached webLocator lapsedSteps (webStore (Document.text restoredResource)) ∧
      Booked lapsedSteps lapsedBooks ∧
      ∃ r t shown j, (webStore (Document.text restoredResource)).get webLocator = .ok r ∧
        r.spec.templateSource? = some t ∧
        (onlyStack updatedStack (by decide)).look r.stackRef = some shown ∧
        lapsedBooks.recorded = some j ∧ j.Same (plainPolicy.inputs r t shown.id) ∧
        ((∃ i, lapsedBooks.accepted shown.id = some i ∧
            i.Same (plainPolicy.inputs r t shown.id)) ↔
          ∃ i, lapsedBooks.accepted shown.id = some i ∧ i.Same j) ∧
        (j.stack = shown.id → NoneLapsed shown.id lapsedSteps lapsedBooks →
          lapsedBooks.accepted shown.id = some j) :=
  ⟨reached_lapsedSteps, booked_lapsedSteps,
    upToDate_sound_iff reached_lapsedSteps booked_lapsedSteps takes_shortcutLog
      (by simp [shortcutLog]) unambiguous_lapsedSteps⟩

/-- The pass ends up to date while the stack runs the inputs that could not be recorded. -/
theorem upToDate_beside_other_inputs :
    ¬ ∀ (l : Locator) (past : List Step) (s s' : Store) (b : Books) (m : Remote) (p : Policy)
        (log : Log), Reached l past s → Booked past b →
        (Step.pass m p log (.ok .upToDate)).Takes l s s' →
        (∀ inputs, .updateStack inputs ∉ log.calls) →
        Unambiguous l (Step.pass m p log (.ok .upToDate) :: past) →
        ∃ r t shown i, s.get l = .ok r ∧ r.spec.templateSource? = some t ∧
          m.look r.stackRef = some shown ∧ b.accepted shown.id = some i ∧
          i.Same (p.inputs r t shown.id) := by
  intro h
  obtain ⟨r, t, shown, i, hr, ht, hlook, hi, hsame⟩ := h _ _ _ _ _ _ _ _ reached_lapsedSteps
    booked_lapsedSteps takes_shortcutLog (by simp [shortcutLog]) unambiguous_lapsedSteps
  rw [get_webStore (by decide)] at hr
  cases hr
  have hstack : (onlyStack updatedStack (by decide)).look restoredResource.stackRef =
      some updatedStack := by
    have href : restoredResource.stackRef = "s1" := by decide +kernel
    rw [href]
    rfl
  cases hstack.symm.trans hlook
  have htemplate : restoredResource.spec.templateSource? = some (.body "t") := by decide +kernel
  cases htemplate.symm.trans ht
  have haccepted : lapsedBooks.accepted updatedStack.id = some acceptedInputs := rfl
  cases haccepted.symm.trans hi
  exact absurd hsame.template (by decide +kernel)

end Course
end StackKeeper
