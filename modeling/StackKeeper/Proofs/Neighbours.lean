import StackKeeper.Proofs.Course
import StackKeeper.Proofs.Observation
import StackKeeper.Proofs.PassFootprint
/-!
# Resources beside one another

Several resources are stored, none of which names its stack. The tag that a pass looks for marks a
stack as one of the operator, not as one of a resource. What keeps a pass away from the stacks of the
other resources is the name: a stack is called after the namespace and the name of its resource, a
look-up by name leads to a stack of that name, and the ids that come to be recorded are those of such
stacks. The two parts are joined by a hyphen, which either of them may hold, so that two resources can
have one name for their stacks.

Results:
* `comesUp_of_target`, `comesUp_of_submission`: a pass acts on the stack that came up in it.
* `minds_of_pass`: over a resource that fits its name, it acts on stacks of that name.
* `fits_of_takes`, `sound_of_reached`: the resources go on to fit their names.
* `untouched_by_neighbours`: no pass acts on a stack that was created for a resource of another name.
* `touched_under_shared_name`: a pass updates a stack that was created for a resource of the same name.
-/
namespace StackKeeper

/-- The name of the stack of a resource that declares none. -/
def Locator.stackName (l : Locator) : String := l.ns ++ "-" ++ l.name

/-- The resource declares no name for its stack. -/
def Resource.IsUnnamed (r : Resource) : Prop := Spec.given r.spec.stackName = none

theorem Resource.IsUnnamed.stackName_eq {r : Resource} (h : r.IsUnnamed) :
    r.stackName = r.locator.stackName := by
  rw [Resource.stackName, h]
  rfl

/-- The id or the name by which a call changes or deletes a stack. -/
def Call.target? : Call → Option String
  | .updateStack inputs => some inputs.stack
  | .deleteStack ref => some ref
  | _ => none

/-! ## The stack that comes up in a pass -/

namespace Pass
open Log

variable {p : Policy} {l : Locator} {log : Log} {result : Except Error Outcome} {id : String}

/-- The stack was found for the resource that was read, or it was created for it. -/
inductive ComesUp (l : Locator) (log : Log) : String → Prop
  | found (r : Resource) (s : RemoteStack) (hr : ⟨.getResource l, .ok r⟩ ∈ log)
    (hs : ⟨.getStack r.stackRef, .ok s⟩ ∈ log) : ComesUp l log s.id
  | created (r : Resource) (inputs : StackInputs) (onFailure : Option String) (id : String)
    (hr : ⟨.getResource l, .ok r⟩ ∈ log) (hname : inputs.stack = r.stackName)
    (h : ⟨.createStack inputs onFailure, .ok id⟩ ∈ log) : ComesUp l log id

/-- A stack is created under the name that the resource gives. -/
theorem stack_of_creation (h : PassLog p l log result) {inputs : StackInputs}
    {onFailure : Option String} (hc : .createStack inputs onFailure ∈ log.calls) :
    ∃ r, ⟨.getResource l, .ok r⟩ ∈ log ∧ inputs.stack = r.stackName := by
  obtain ⟨r, t, hg, -, rfl, -⟩ := (creates_iff h).mp hc
  refine ⟨r, ?_, rfl⟩
  rcases hg.missing with ⟨answer, hp, -⟩ | ⟨s, inputs, e, hp, -⟩ <;>
    exact hp.subset List.mem_cons_self

/-- What a pass updates or deletes is the stack that its look-up found. -/
theorem comesUp_of_target (h : PassLog p l log result) {c : Call} (hc : c ∈ log.calls)
    (ht : c.target? = some id) : ComesUp l log id := by
  cases c with
  | updateStack inputs =>
    obtain ⟨r, s, t, hp, -, -, rfl⟩ := (updates_iff h).mp hc
    cases ht
    exact .found r s (hp.subset (by simp [readEvent])) (hp.subset (by simp [lookUpEvent]))
  | deleteStack ref =>
    obtain ⟨r, first, second, hp, -, rfl⟩ := (deletes_iff h).mp hc
    cases ht
    exact .found r second (hp.subset (by simp [readEvent])) (hp.subset (by simp [lookUpEvent]))
  | getResource _ | updateResource _ | updateStatus _ | listResources | getStack _ | getMembers _
  | createStack _ _ | submit _ | unfollow _ => cases ht

/-- A look-up is made for the resource that was read. -/
theorem found_of_getStack (h : PassLog p l log result) {ref : String} {s : RemoteStack}
    (hs : ⟨.getStack ref, .ok s⟩ ∈ log) : ComesUp l log s.id := by
  rcases afterRead_of_passLog h hs with ⟨error, he⟩ | ⟨r, rest, rfl, he | he⟩
  · cases he
  · cases he
  · cases he with
    | looks => exact .found r s List.mem_cons_self hs

theorem mem_of_acts {e : Event} (h : log.acts = [e]) : e ∈ log :=
  List.mem_of_mem_filter (h ▸ List.mem_singleton_self e : e ∈ log.acts)

theorem comesUp_of_actsOn (h : PassLog p l log result) {o : Outcome} (ho : ActsOn log o id) :
    ComesUp l log id := by
  cases ho with
  | created inputs onFailure id hacts =>
    have hmem := mem_of_acts hacts
    obtain ⟨r, hr, hname⟩ := stack_of_creation h (mem_calls_of_mem hmem)
    exact .created r inputs onFailure id hr hname hmem
  | updated inputs hacts => exact comesUp_of_target h (mem_calls_of_mem (mem_of_acts hacts)) rfl
  | deleting id hacts => exact comesUp_of_target h (mem_calls_of_mem (mem_of_acts hacts)) rfl
  | handedOff s hacts hlast =>
    obtain ⟨⟨c, answer⟩, hmem, hs⟩ := List.mem_filterMap.mp (List.mem_of_getLast? hlast)
    unfold Event.shown? at hs
    split at hs
    · rename_i ref shown heq
      cases heq
      cases hs
      exact found_of_getStack h hmem
    · cases hs

/-- What a pass hands over is the stack that came up in it, for the resource that it has read. -/
theorem comesUp_of_submission (h : PassLog p l log result) {q : FollowRequest}
    (hq : q ∈ log.submitted) :
    ∃ r, ⟨.getResource l, .ok r⟩ ∈ log ∧ q.resource = r.locator ∧ ComesUp l log q.stackId := by
  rcases footprint_of_passLog h with ⟨r, rest, hlog, hfoot⟩ | ⟨-, hnone, -⟩
  · refine ⟨r, hlog ▸ List.mem_cons_self, ?_⟩
    cases result with
    | error e => simp [hfoot.2] at hq
    | ok o =>
      obtain ⟨-, hhanded, hkept⟩ := hfoot
      cases ho : o.handsOver with
      | false => simp [hkept ho] at hq
      | true =>
        obtain ⟨id, hact, hone⟩ := hhanded ho
        rw [hone, List.mem_singleton] at hq
        subst hq
        exact ⟨rfl, comesUp_of_actsOn h hact⟩
  · simp [hnone] at hq

/-- A pass starts with its read. -/
theorem eq_cons_of_read (h : PassLog p l log result) {r : Resource}
    (hr : ⟨.getResource l, .ok r⟩ ∈ log) : ∃ rest, log = ⟨.getResource l, .ok r⟩ :: rest := by
  rcases afterRead_of_passLog h hr with ⟨error, he⟩ | ⟨r₀, rest, rfl, he | he⟩
  · cases he
  · cases he
    exact ⟨rest, rfl⟩
  · cases he

end Pass

/-! ## Names -/

/-- The names of the stacks by their ids. A stack keeps its name, and no name is an id. -/
structure Naming where
  nameOf : String → Option String
  apart : ∀ id name, nameOf id = some name → nameOf name = none

namespace Naming
open Log Pass Store

/-- The reference is the id of the stack or its name. -/
def Leads (n : Naming) (ref id : String) : Prop := ref = id ∨ n.nameOf id = some ref

/-- The provisioning API goes by the names: it shows a stack under its id and under its name, and it
creates a stack under the name that it was asked for. -/
def Answers (n : Naming) (e : Event) : Prop :=
  match e with
  | ⟨.getStack ref, .ok s⟩ => n.nameOf s.id = some s.name ∧ n.Leads ref s.id
  | ⟨.createStack inputs _, .ok id⟩ => n.nameOf id = some inputs.stack
  | _ => True

/-- The resource is that of the locator and leaves the name of its stack to it, and a stack that it
records is one of that name. -/
structure Fits (n : Naming) (l : Locator) (r : Resource) : Prop where
  own : r.locator = l
  unnamed : r.IsUnnamed
  placed : r.status.stackId = "" ∨ n.nameOf r.status.stackId = some l.stackName

/-- All that a pass creates, changes and hands over are stacks with the name of the locator. -/
structure Minds (n : Naming) (l : Locator) (log : Log) : Prop where
  targets : ∀ c ∈ log.calls, ∀ ref, c.target? = some ref → n.nameOf ref = some l.stackName
  creations : ∀ inputs onFailure, .createStack inputs onFailure ∈ log.calls →
    inputs.stack = l.stackName
  submissions : ∀ q ∈ log.submitted, q.resource = l ∧ n.nameOf q.stackId = some l.stackName

variable {n : Naming} {l : Locator} {r w : Resource} {s : RemoteStack} {p : Policy} {log : Log}
  {result : Except Error Outcome} {ref id name : String}

/-- The id of a stack leads to no other stack. -/
theorem nameOf_of_leads (h : n.Leads ref id) (href : n.nameOf ref = some name) :
    n.nameOf id = some name := by
  rcases h with rfl | h
  · exact href
  · rw [n.apart id ref h] at href
    cases href

theorem Fits.stackName_eq (h : n.Fits l r) : r.stackName = l.stackName := by
  rw [h.unnamed.stackName_eq, h.own]

/-- What is found for a resource that fits its name is a stack of that name. -/
theorem Fits.nameOf_of_found (h : n.Fits l r) (hfree : n.nameOf l.stackName = none)
    (ha : n.Answers ⟨.getStack r.stackRef, .ok s⟩) : n.nameOf s.id = some l.stackName := by
  obtain ⟨hname, hleads⟩ := ha
  unfold Resource.stackRef at hleads
  split at hleads
  · rw [h.stackName_eq] at hleads
    rcases hleads with heq | hleads
    · rw [heq, hname] at hfree
      cases hfree
    · exact hleads
  · rename_i hid
    exact nameOf_of_leads hleads (h.placed.resolve_left hid)

/-- What comes up in a pass over a resource that fits its name is a stack of that name. -/
theorem nameOf_of_comesUp (hfits : ∀ r, ⟨.getResource l, .ok r⟩ ∈ log → n.Fits l r)
    (hfree : n.nameOf l.stackName = none) (ha : ∀ e ∈ log, n.Answers e) (h : ComesUp l log id) :
    n.nameOf id = some l.stackName := by
  cases h with
  | found r s hr hs => exact (hfits r hr).nameOf_of_found hfree (ha _ hs)
  | created r inputs onFailure id hr hname h =>
    have hid : n.nameOf id = some inputs.stack := ha ⟨.createStack inputs onFailure, .ok id⟩ h
    rw [hid, hname, (hfits r hr).stackName_eq]

/-- A pass over a resource that fits its name minds the name. -/
theorem minds_of_pass (h : PassLog p l log result)
    (hfits : ∀ r, ⟨.getResource l, .ok r⟩ ∈ log → n.Fits l r)
    (hfree : n.nameOf l.stackName = none) (ha : ∀ e ∈ log, n.Answers e) : n.Minds l log where
  targets _ hc _ ht := nameOf_of_comesUp hfits hfree ha (comesUp_of_target h hc ht)
  creations _ _ hc := by
    obtain ⟨r, hr, hname⟩ := stack_of_creation h hc
    rw [hname, (hfits r hr).stackName_eq]
  submissions _ hq := by
    obtain ⟨r, hr, hl, hup⟩ := comesUp_of_submission h hq
    exact ⟨hl.trans (hfits r hr).own, nameOf_of_comesUp hfits hfree ha hup⟩

/-- What is observed of a stack of the name leaves a status placed. -/
theorem placed_merge {st : Status} (hst : st.stackId = "" ∨ n.nameOf st.stackId = some name)
    (hs : n.nameOf s.id = some name) (members : List Member) :
    (st.merge s members).stackId = "" ∨ n.nameOf (st.merge s members).stackId = some name := by
  rw [Status.stackId_merge]
  split
  · exact hst
  · exact .inr hs

/-- What a pass writes about a resource that fits its name is placed. -/
theorem placed_of_written (h : PassLog p l log result)
    (hfits : ∀ r, ⟨.getResource l, .ok r⟩ ∈ log → n.Fits l r)
    (hfree : n.nameOf l.stackName = none) (ha : ∀ e ∈ log, n.Answers e) (hr : n.Fits l r)
    (hw : Written p r log w) :
    w.status.stackId = "" ∨ n.nameOf w.status.stackId = some l.stackName := by
  cases hw with
  | submitted => exact hr.placed
  | created inputs onFailure id hmem =>
    obtain ⟨r', hr', hname⟩ := stack_of_creation h (mem_calls_of_mem hmem)
    exact .inr (nameOf_of_comesUp hfits hfree ha (.created r' inputs onFailure id hr' hname hmem))
  | observed s members hs | confirmed s members hs =>
    exact placed_merge hr.placed (hr.nameOf_of_found hfree (ha _ hs)) members

end Naming

/-! ## Turns -/

namespace Neighbours
open Log Store Pass Follow Naming
open Course (carries_of_pass carries_of_other_pass carries_of_tick carries_of_request)

inductive Turn where
  /-- A pass over the resource under the locator. -/
  | pass (l : Locator) (p : Policy) (log : Log) (result : Except Error Outcome)
  /-- A tick of the follower over the entries it has. -/
  | tick (secs : Nat) (entries : List (String × Locator)) (log : Log) (summary : TickSummary)
  /-- A user changes the spec or the metadata of a resource, or requests its deletion. -/
  | request (r : Resource)
  /-- A resource without a status comes to be stored under the locator. -/
  | birth (l : Locator)
  /-- Something else goes on that leaves the resources alone. -/
  | elsewhere

/-- A pass has handed the entry over to the follower. -/
def HandedOver (past : List Turn) (entry : String × Locator) : Prop :=
  ∃ l p log result, .pass l p log result ∈ past ∧ ∃ q ∈ log.submitted, (q.stackId, q.resource) = entry

/-- What a turn does to the store, as far as the resources under the locators are concerned. -/
def Turn.Takes (n : Naming) (ls : List Locator) (past : List Turn) (s : Store) (t : Turn)
    (s' : Store) : Prop :=
  match t with
  | .pass l p log result =>
    Job.Ran (reconcile p l) log result ∧ (∀ e ∈ log, n.Answers e) ∧
      ∀ l' ∈ ls, Chain (Moves l') s log s'
  | .tick secs entries log summary =>
    Program.Ran (Follow.tick secs entries) log summary ∧ (∀ e ∈ log, n.Answers e) ∧
      (∀ entry ∈ entries, HandedOver past entry) ∧ ∀ l' ∈ ls, Chain (Moves l') s log s'
  | .request r => ∀ l' ∈ ls,
    if r.locator = l' then r.IsUnnamed ∧ (s.update r).2 = s' else s'.get l' = s.get l'
  | .birth l => ∀ l' ∈ ls,
    if l = l' then ∀ r, s'.get l' = .ok r → r.locator = l' ∧ r.IsUnnamed ∧ r.status = Status.empty
    else s'.get l' = s.get l'
  | .elsewhere => ∀ l' ∈ ls, s'.get l' = s.get l'

/-- The turns, latest first, lead to this store from one whose resources fit their names. -/
inductive Reached (n : Naming) (ls : List Locator) : List Turn → Store → Prop
  | start {s : Store} (h : ∀ l ∈ ls, s.Carries l (n.Fits l)) : Reached n ls [] s
  | turn {past : List Turn} {s s' : Store} {t : Turn} (h : Reached n ls past s)
    (ht : t.Takes n ls past s s') : Reached n ls (t :: past) s'

/-- The stack was created for the resource under the locator: the resource records it, the call was
answered with its id, or the call failed and left a stack of the name all the same. -/
inductive CreatedFor (n : Naming) (l : Locator) (past : List Turn) (s : Store) (id : String) : Prop
  | recorded (r : Resource) (hr : s.get l = .ok r) (hid : r.status.stackId = id) (hne : id ≠ "")
  | told (p : Policy) (log : Log) (result : Except Error Outcome) (inputs : StackInputs)
    (onFailure : Option String) (hpass : .pass l p log result ∈ past)
    (h : ⟨.createStack inputs onFailure, .ok id⟩ ∈ log)
  | lost (p : Policy) (log : Log) (result : Except Error Outcome) (inputs : StackInputs)
    (onFailure : Option String) (e : Error) (hpass : .pass l p log result ∈ past)
    (h : ⟨.createStack inputs onFailure, .error e⟩ ∈ log) (hid : n.nameOf id = some inputs.stack)

/-- The resources fit their names, and the turns have minded them. -/
structure Sound (n : Naming) (ls : List Locator) (past : List Turn) (s : Store) : Prop where
  fits : ∀ l ∈ ls, s.Carries l (n.Fits l)
  answers : ∀ l p log result, .pass l p log result ∈ past → ∀ e ∈ log, n.Answers e
  minds : ∀ l p log result, .pass l p log result ∈ past → l ∈ ls → n.Minds l log
  handed : ∀ entry, HandedOver past entry → entry.2 ∈ ls → n.nameOf entry.1 = some entry.2.stackName

variable {n : Naming} {ls : List Locator} {past : List Turn} {s s' : Store} {t : Turn} {l l' : Locator}
  {p : Policy} {log : Log} {result : Except Error Outcome} {id : String}

theorem fits_of_read (h : PassLog p l log result) (hc : Chain (Moves l) s log s')
    (hs : s.Carries l (n.Fits l)) : ∀ r, ⟨.getResource l, .ok r⟩ ∈ log → n.Fits l r := by
  intro r hr
  obtain ⟨rest, rfl⟩ := eq_cons_of_read h hr
  exact (hs r (get_of_chain hc)).2

/-- A pass keeps the resource fitting its name, and every other one too. -/
theorem fits_of_pass (h : PassLog p l' log result) (ha : ∀ e ∈ log, n.Answers e)
    (hc : Chain (Moves l) s log s') (hfree : n.nameOf l.stackName = none)
    (hs : s.Carries l (n.Fits l)) : s'.Carries l (n.Fits l) := by
  by_cases hl : l' = l
  · subst hl
    refine carries_of_pass h hc hs (fun r r₀ finalizers _ _ hr hr₀ => ?_) fun r r₀ w hw hr hr₀ => ?_
    · exact ⟨hr.own, hr₀.unnamed, hr.placed⟩
    · have hplaced := placed_of_written h (fits_of_read h hc hs) hfree ha hr₀ hw
      exact ⟨hr.own, hr.unnamed, hplaced⟩
  · exact carries_of_other_pass h hl hc hs

/-- A tick keeps the resource fitting its name if it follows stacks of that name for it. -/
theorem fits_of_tick {secs : Nat} {entries : List (String × Locator)} {summary : TickSummary}
    (h : Program.Ran (Follow.tick secs entries) log summary) (ha : ∀ e ∈ log, n.Answers e)
    (hc : Chain (Moves l) s log s')
    (hentries : ∀ entry ∈ entries, entry.2 = l → n.nameOf entry.1 = some l.stackName)
    (hs : s.Carries l (n.Fits l)) : s'.Carries l (n.Fits l) := by
  refine carries_of_tick h hc hs fun entry he hl r r₀ shown members hshown hr hr₀ => ?_
  have hleads : n.Leads entry.1 shown.id := (ha ⟨.getStack entry.1, .ok shown⟩ hshown).2
  exact ⟨hr.own, hr.unnamed,
    placed_merge hr₀.placed (nameOf_of_leads hleads (hentries entry he hl)) members⟩

/-- A turn keeps the resources fitting their names. -/
theorem fits_of_takes (hfree : ∀ l ∈ ls, n.nameOf l.stackName = none) (h : Sound n ls past s)
    (ht : t.Takes n ls past s s') : ∀ l ∈ ls, s'.Carries l (n.Fits l) := by
  intro l hl
  have hs := h.fits l hl
  have same : s'.get l = s.get l → s'.Carries l (n.Fits l) := fun hget r hr => hs r (hget ▸ hr)
  cases t with
  | pass l' p log result =>
    obtain ⟨hran, ha, hc⟩ := ht
    exact fits_of_pass (passLog_of_ran hran) ha (hc l hl) (hfree l hl) hs
  | tick secs entries log summary =>
    obtain ⟨hran, ha, hentries, hc⟩ := ht
    refine fits_of_tick hran ha (hc l hl) (fun entry he hel => ?_) hs
    have hnamed := h.handed entry (hentries entry he)
    rw [hel] at hnamed
    exact hnamed hl
  | request r =>
    have hr := ht l hl
    split at hr
    · rename_i hrl
      obtain ⟨hunnamed, hu⟩ := hr
      exact carries_of_request hrl hu hs fun r' hr' => ⟨hr'.own, hunnamed, hr'.placed⟩
    · exact same hr
  | birth l' =>
    have hb := ht l hl
    split at hb
    · intro r hr
      obtain ⟨hown, hunnamed, hst⟩ := hb r hr
      exact ⟨hown, hown, hunnamed, .inl (by rw [hst]; rfl)⟩
    · exact same hb
  | elsewhere => exact same (ht l hl)

/-- What a pass hands over for one of the resources is a stack of its name. -/
theorem nameOf_of_submission (h : PassLog p l log result) (hc : ∀ l' ∈ ls, Chain (Moves l') s log s')
    (hminds : l ∈ ls → n.Minds l log) {q : FollowRequest} (hq : q ∈ log.submitted)
    (hmem : q.resource ∈ ls) : n.nameOf q.stackId = some q.resource.stackName := by
  by_cases hl : l ∈ ls
  · obtain ⟨hown, hname⟩ := (hminds hl).submissions q hq
    rw [hname, hown]
  · -- What was read under another locator is not one of the resources.
    obtain ⟨r, hr, hown, -⟩ := comesUp_of_submission h hq
    obtain ⟨rest, rfl⟩ := eq_cons_of_read h hr
    have hne : l ≠ q.resource := fun heq => hl (heq ▸ hmem)
    exact absurd hown.symm (locator_ne_of_chain hne (hc _ hmem))

theorem sound_of_takes (hfree : ∀ l ∈ ls, n.nameOf l.stackName = none) (h : Sound n ls past s)
    (ht : t.Takes n ls past s s') : Sound n ls (t :: past) s' := by
  have hfits := fits_of_takes hfree h ht
  -- Only a pass adds to what the turns have minded.
  have kept : (∀ l p log result, Turn.pass l p log result ≠ t) → Sound n ls (t :: past) s' := by
    intro hne
    have hmem : ∀ {l p log result}, Turn.pass l p log result ∈ t :: past →
        Turn.pass l p log result ∈ past := fun hpass =>
      (List.mem_cons.mp hpass).resolve_left (hne _ _ _ _)
    refine ⟨hfits, fun l p log result hpass => h.answers l p log result (hmem hpass),
      fun l p log result hpass => h.minds l p log result (hmem hpass), ?_⟩
    rintro entry ⟨l, p, log, result, hpass, hq⟩
    exact h.handed entry ⟨l, p, log, result, hmem hpass, hq⟩
  cases t with
  | tick secs entries log summary | request r | birth l | elsewhere => exact kept nofun
  | pass l p log result =>
    obtain ⟨hran, ha, hc⟩ := ht
    have hlog := passLog_of_ran hran
    have hminds : l ∈ ls → n.Minds l log := fun hl =>
      minds_of_pass hlog (fits_of_read hlog (hc l hl) (h.fits l hl)) (hfree l hl) ha
    refine ⟨hfits, fun l' p' log' result' hpass => ?_, fun l' p' log' result' hpass => ?_, ?_⟩
    · rcases List.mem_cons.mp hpass with heq | hpass
      · cases heq
        exact ha
      · exact h.answers l' p' log' result' hpass
    · rcases List.mem_cons.mp hpass with heq | hpass
      · cases heq
        exact hminds
      · exact h.minds l' p' log' result' hpass
    · rintro entry ⟨l', p', log', result', hpass, q, hq, rfl⟩ hmem
      rcases List.mem_cons.mp hpass with heq | hpass
      · cases heq
        exact nameOf_of_submission hlog hc hminds hq hmem
      · exact h.handed _ ⟨l', p', log', result', hpass, q, hq, rfl⟩ hmem

theorem sound_of_reached (hfree : ∀ l ∈ ls, n.nameOf l.stackName = none) (h : Reached n ls past s) :
    Sound n ls past s := by
  induction h with
  | start h =>
    refine ⟨h, fun _ _ _ _ hpass => absurd hpass List.not_mem_nil,
      fun _ _ _ _ hpass => absurd hpass List.not_mem_nil, ?_⟩
    rintro entry ⟨l, p, log, result, hpass, -⟩
    cases hpass
  | turn h ht ih => exact sound_of_takes hfree ih ht

/-- What was created for one of the resources is a stack of its name. -/
theorem Sound.nameOf_of_createdFor (h : Sound n ls past s) (hl : l ∈ ls)
    (hid : CreatedFor n l past s id) : n.nameOf id = some l.stackName := by
  cases hid with
  | recorded r hr hid hne =>
    subst hid
    exact (h.fits l hl r hr).2.placed.resolve_left hne
  | told p log result inputs onFailure hpass hmem =>
    have hname : n.nameOf id = some inputs.stack :=
      h.answers l p log result hpass ⟨.createStack inputs onFailure, .ok id⟩ hmem
    rw [hname, (h.minds l p log result hpass hl).creations inputs onFailure (mem_calls_of_mem hmem)]
  | lost p log result inputs onFailure e hpass hmem hname =>
    rw [hname, (h.minds l p log result hpass hl).creations inputs onFailure (mem_calls_of_mem hmem)]

/-- Whatever passes over the resources, ticks and users do, no pass updates or deletes a stack that was
created for another resource, by its id or by its name, if the two resources leave their stacks
different names and no such name is the id of a stack. -/
theorem untouched_by_neighbours (h : Reached n ls past s)
    (hfree : ∀ l ∈ ls, n.nameOf l.stackName = none) (hl : l ∈ ls) (hl' : l' ∈ ls)
    (hne : l.stackName ≠ l'.stackName) (hpass : .pass l p log result ∈ past)
    (hid : CreatedFor n l' past s id) :
    ∀ c ∈ log.calls, ∀ ref, c.target? = some ref → ¬ n.Leads ref id := by
  have hsound := sound_of_reached hfree h
  intro c hc ref href hleads
  have hown := nameOf_of_leads hleads ((hsound.minds l p log result hpass hl).targets c hc ref href)
  rw [hsound.nameOf_of_createdFor hl' hid] at hown
  exact hne (Option.some.inj hown).symm

/-! ## Two resources with one name, and a third one -/

section
variable {r : Resource}

theorem moves_read (hget : s.get l = .ok r) (hown : r.locator = l) (l' : Locator) :
    Moves l' s ⟨.getResource l, .ok r⟩ s := by
  simp only [Moves]
  split
  · rename_i hl
    subst hl
    exact .inl ⟨hget.symm, trivial⟩
  · rename_i hne
    refine ⟨trivial, fun r' hr' => ?_⟩
    cases hr'
    exact hown ▸ hne

theorem moves_written (hu : s.updateStatus r = (.ok (), s'))
    (hother : r.locator ≠ l' → s'.get l' = s.get l') :
    Moves l' s ⟨.updateStatus r, .ok ()⟩ s' := by
  simp only [Moves]
  split
  · exact .inl hu
  · rename_i hne
    exact hother hne

end

def firstLocator : Locator := ⟨"a", "b-c"⟩

def secondLocator : Locator := ⟨"a-b", "c"⟩

/-- The third resource, which is in the namespace of the second one. -/
def thirdLocator : Locator := ⟨"a-b", "d"⟩

def trio : List Locator := [firstLocator, secondLocator, thirdLocator]

/-- A resource with its finalizer, a template and perhaps the id of its stack. -/
def resourceAt (l : Locator) (stackId : String) : Resource :=
  ⟨⟨l.name, l.ns, l.name, 1, none, none, [stackFinalizer]⟩,
    { Spec.empty with template := some "t" }, { Status.empty with stackId := stackId }⟩

/-- The directories of a store with the three resources. -/
def trioDirectories : List (Path × FileEntry) :=
  [(["state", "a-b"], .directory), (["state", "a"], .directory), (["state"], .directory)]

/-- A store with the three resources. -/
def trioStore (first second third : String) : Store where
  base := ["state"]
  files := ⟨(["state", "a", "b-c.json"], .file first) :: (["state", "a-b", "c.json"], .file second) ::
    (["state", "a-b", "d.json"], .file third) :: trioDirectories⟩

/-- The store after the document of the second resource was replaced. -/
def trioStoreAfterSecond (first second third : String) : Store where
  base := ["state"]
  files := ⟨(["state", "a-b", "c.json"], .file second) :: (["state", "a", "b-c.json"], .file first) ::
    (["state", "a-b", "d.json"], .file third) :: trioDirectories⟩

theorem documentPath_trio :
    documentPath ["state"] firstLocator = ["state", "a", "b-c.json"] ∧
      documentPath ["state"] secondLocator = ["state", "a-b", "c.json"] ∧
      documentPath ["state"] thirdLocator = ["state", "a-b", "d.json"] := by decide

section
variable {r stored : Resource} {first second third : String} {path : Path} {store : Store}

/-- A resource is read from the file of its document. -/
theorem get_of_file (hg : r.metadata.generation ≤ maxGeneration)
    (hpath : documentPath store.base l = path)
    (hread : store.files.read path = .ok (Document.text r)) : store.get l = .ok r :=
  get_eq_ok_iff.mpr ⟨Document.text r, by rw [hpath, hread], Document.ofText?_text hg⟩

theorem get_first (hg : r.metadata.generation ≤ maxGeneration) :
    (trioStore (Document.text r) second third).get firstLocator = .ok r ∧
      (trioStoreAfterSecond (Document.text r) second third).get firstLocator = .ok r :=
  ⟨get_of_file hg documentPath_trio.1 rfl, get_of_file hg documentPath_trio.1 rfl⟩

theorem get_second (hg : r.metadata.generation ≤ maxGeneration) :
    (trioStore first (Document.text r) third).get secondLocator = .ok r :=
  get_of_file hg documentPath_trio.2.1 rfl

theorem get_third (hg : r.metadata.generation ≤ maxGeneration) :
    (trioStore first second (Document.text r)).get thirdLocator = .ok r ∧
      (trioStoreAfterSecond first second (Document.text r)).get thirdLocator = .ok r :=
  ⟨get_of_file hg documentPath_trio.2.2 rfl, get_of_file hg documentPath_trio.2.2 rfl⟩

theorem perform_first (hl : r.locator = firstLocator) :
    (trioStore first second third).perform (writeSteps ["state"] r) =
      (.ok (), trioStore (Document.text r) second third) := by
  have hname : temporaryName ["state", "a", "b-c.json"] = "b-c.tmp" := by decide
  rw [writeSteps_eq_replaceSteps, hl, documentPath_trio.1, hname]
  rfl

theorem perform_second (hl : r.locator = secondLocator) :
    (trioStore first second third).perform (writeSteps ["state"] r) =
      (.ok (), trioStoreAfterSecond first (Document.text r) third) := by
  have hname : temporaryName ["state", "a-b", "c.json"] = "c.tmp" := by decide
  rw [writeSteps_eq_replaceSteps, hl, documentPath_trio.2.1, hname]
  rfl

/-- A write of the status replaces the document. -/
theorem updateStatus_of_perform {base : Path} (hget : s.get l = .ok stored) (hbase : s.base = base)
    (hl : r.locator = l) (hmeta : r.metadata = stored.metadata) (hspec : r.spec = stored.spec)
    (hperform : s.perform (writeSteps base r) = (.ok (), s')) : s.updateStatus r = (.ok (), s') := by
  have hr : stored.withStatus r.status = r := by rw [Resource.withStatus, ← hmeta, ← hspec]
  rw [updateStatus_of_incarnation (incarnation_of_get hget hl (by rw [hmeta])), hr, hbase, hperform]

end

/-- The names of their stacks. -/
def trioNaming : Naming where
  nameOf id := if id = "s1" then some "a-b-c" else if id = "s2" then some "a-b-d" else none
  apart id name h := by
    split at h
    · cases h
      decide
    · split at h
      · cases h
        decide
      · cases h

def firstResource : Resource := resourceAt firstLocator ""

def secondResource : Resource := resourceAt secondLocator ""

/-- The third resource, which records its stack. -/
def thirdResource : Resource := resourceAt thirdLocator "s2"

/-- The stack of the first resource, once it was created. -/
def sharedStack : RemoteStack :=
  ⟨"s1", "a-b-c", "CREATE_COMPLETE", none, none, TextMap.empty,
    plainPolicy.effectiveTags firstResource, none⟩

/-- A pass that creates the stack of the first resource. -/
def foundingLog : Log :=
  [⟨.getResource firstLocator, .ok firstResource⟩,
    ⟨.getStack firstResource.stackRef, .error (.stackNotFound firstResource.stackRef)⟩,
    ⟨.createStack (plainPolicy.inputs firstResource (.body "t") firstResource.stackName)
      firstResource.spec.onFailure, .ok "s1"⟩,
    ⟨.updateStatus (createdAs plainPolicy firstResource "s1"), .ok ()⟩,
    ⟨.submit ((createdAs plainPolicy firstResource "s1").followRequest "s1"), ()⟩]

/-- A pass over the second resource that finds the stack by its name and updates it. -/
def takeoverLog : Log :=
  [⟨.getResource secondLocator, .ok secondResource⟩, ⟨.getStack secondResource.stackRef, .ok sharedStack⟩,
    ⟨.updateStack (plainPolicy.inputs secondResource (.body "t") "s1"), .ok ()⟩,
    ⟨.updateStatus (submittedAs plainPolicy secondResource), .ok ()⟩,
    ⟨.submit ((submittedAs plainPolicy secondResource).followRequest "s1"), ()⟩]

theorem stackName_trio : firstLocator.stackName = "a-b-c" ∧ secondLocator.stackName = "a-b-c" ∧
    thirdLocator.stackName = "a-b-d" := by decide +kernel

theorem nameOf_stackName_trio : ∀ l ∈ trio, trioNaming.nameOf l.stackName = none := by
  obtain ⟨hfirst, hsecond, hthird⟩ := stackName_trio
  simp only [trio, List.forall_mem_cons, hfirst, hsecond, hthird]
  decide

def storeAtFirst : Store :=
  trioStore (Document.text firstResource) (Document.text secondResource) (Document.text thirdResource)

def storeAfterFounding : Store :=
  trioStore (Document.text (createdAs plainPolicy firstResource "s1")) (Document.text secondResource)
    (Document.text thirdResource)

def storeAfterTakeover : Store :=
  trioStoreAfterSecond (Document.text (createdAs plainPolicy firstResource "s1"))
    (Document.text (submittedAs plainPolicy secondResource)) (Document.text thirdResource)

/-- The turns, latest first. -/
def takeoverTurns : List Turn :=
  [.pass secondLocator plainPolicy takeoverLog (.ok .updated),
    .pass firstLocator plainPolicy foundingLog (.ok .created)]

theorem reached_storeAtFirst : Reached trioNaming trio [] storeAtFirst := by
  have fits : ∀ {l r}, storeAtFirst.get l = .ok r → trioNaming.Fits l r →
      storeAtFirst.Carries l (trioNaming.Fits l) := by
    intro l r hget hfits r' hr'
    cases hget.symm.trans hr'
    exact ⟨hfits.own, hfits⟩
  obtain ⟨-, -, hthird⟩ := stackName_trio
  refine .start ?_
  simp only [trio, List.forall_mem_cons]
  exact ⟨fits (get_first (by decide)).1 ⟨rfl, rfl, .inl rfl⟩,
    fits (get_second (by decide)) ⟨rfl, rfl, .inl rfl⟩,
    fits (get_third (by decide)).1 ⟨rfl, rfl, .inr (by rw [hthird]; rfl)⟩, by simp⟩

theorem takes_foundingLog :
    (Turn.pass firstLocator plainPolicy foundingLog (.ok .created)).Takes trioNaming trio []
      storeAtFirst storeAfterFounding := by
  have hname : firstResource.stackName = "a-b-c" := stackName_trio.1
  refine ⟨?_, ?_, fun l hl => ?_⟩
  · have hcreate := CreateLog.accepted (p := plainPolicy) (r := firstResource) (.body "t") (by decide)
      rfl "s1" (.recorded (.ok ()) (.inl rfl))
    exact (PassLog.read firstResource (.settling rfl (by decide)
      (.absent (.stackNotFound firstResource.stackRef) rfl hcreate))).ran
  · simp [foundingLog, Naming.Answers, Policy.inputs, hname, trioNaming]
  · have hget : storeAtFirst.get firstLocator = .ok firstResource := (get_first (by decide)).1
    have hwrite : storeAtFirst.updateStatus (createdAs plainPolicy firstResource "s1") =
        (.ok (), storeAfterFounding) :=
      updateStatus_of_perform hget rfl rfl rfl rfl (perform_first rfl)
    refine ⟨_, moves_read hget rfl l, _, rfl, _, rfl, _, moves_written hwrite fun hne => ?_, _, rfl, rfl⟩
    simp only [trio, List.mem_cons, List.not_mem_nil, or_false] at hl
    rcases hl with rfl | rfl | rfl
    · exact absurd rfl hne
    · exact (get_second (by decide)).trans (get_second (by decide)).symm
    · exact (get_third (by decide)).1.trans (get_third (by decide)).1.symm

theorem takes_takeoverLog :
    (Turn.pass secondLocator plainPolicy takeoverLog (.ok .updated)).Takes trioNaming trio
      (takeoverTurns.drop 1) storeAfterFounding storeAfterTakeover := by
  have href : secondResource.stackRef = "a-b-c" := stackName_trio.2.1
  refine ⟨?_, ?_, fun l hl => ?_⟩
  · have hcur : isCurrent plainPolicy secondResource sharedStack = false :=
      isCurrent_eq_false_iff.mpr fun h => absurd h.2.2 (by decide)
    have hupdate := UpdateLog.accepted (.body "t") (by decide) hcur rfl (.recorded (.ok ()) (.inl rfl))
    exact (PassLog.read secondResource (.settling rfl (by decide)
      (.settled sharedStack (by decide) (by decide) (by decide) hupdate))).ran
  · simp [takeoverLog, Naming.Answers, Naming.Leads, href, trioNaming, sharedStack]
  · have hget : storeAfterFounding.get secondLocator = .ok secondResource := get_second (by decide)
    have hwrite : storeAfterFounding.updateStatus (submittedAs plainPolicy secondResource) =
        (.ok (), storeAfterTakeover) :=
      updateStatus_of_perform hget rfl rfl rfl rfl (perform_second rfl)
    refine ⟨_, moves_read hget rfl l, _, rfl, _, rfl, _, moves_written hwrite fun hne => ?_, _, rfl, rfl⟩
    simp only [trio, List.mem_cons, List.not_mem_nil, or_false] at hl
    rcases hl with rfl | rfl | rfl
    · exact (get_first (by decide)).2.trans (get_first (by decide)).1.symm
    · exact absurd rfl hne
    · exact (get_third (by decide)).2.trans (get_third (by decide)).1.symm

theorem reached_takeoverTurns : Reached trioNaming trio takeoverTurns storeAfterTakeover :=
  .turn (.turn reached_storeAtFirst takes_foundingLog) takes_takeoverLog

theorem get_third_storeAfterTakeover : storeAfterTakeover.get thirdLocator = .ok thirdResource :=
  (get_third (by decide)).2

/-- The pass that updates the shared stack leaves that of the third resource alone. -/
theorem third_untouched_by_takeover :
    Reached trioNaming trio takeoverTurns storeAfterTakeover ∧
      secondLocator.stackName ≠ thirdLocator.stackName ∧
      CreatedFor trioNaming thirdLocator takeoverTurns storeAfterTakeover "s2" ∧
      ∀ c ∈ takeoverLog.calls, ∀ ref, c.target? = some ref → ¬ trioNaming.Leads ref "s2" := by
  have hne : secondLocator.stackName ≠ thirdLocator.stackName := by
    rw [stackName_trio.2.1, stackName_trio.2.2]
    decide
  have hid : CreatedFor trioNaming thirdLocator takeoverTurns storeAfterTakeover "s2" :=
    .recorded thirdResource get_third_storeAfterTakeover rfl (by decide)
  have huntouched := untouched_by_neighbours reached_takeoverTurns nameOf_stackName_trio
    (l := secondLocator) (by simp [trio]) (by simp [trio]) hne List.mem_cons_self hid
  exact ⟨reached_takeoverTurns, hne, hid, huntouched⟩

/-- The tags of the operator do not say of which resource a stack is. A pass over the second resource
finds the stack of the first one by the name, takes it for its own and updates it. -/
theorem touched_under_shared_name :
    ¬ ∀ (n : Naming) (ls : List Locator) (past : List Turn) (s : Store) (l l' : Locator) (p : Policy)
        (log : Log) (result : Except Error Outcome) (id : String),
        Reached n ls past s → (∀ l ∈ ls, n.nameOf l.stackName = none) → l ∈ ls → l' ∈ ls → l ≠ l' →
        (∀ l p log result, .pass l p log result ∈ past →
          p.defaultTags.get? controllerKey = none ∧ p.defaultTags.get? ownerKey = none) →
        .pass l p log result ∈ past → CreatedFor n l' past s id →
        ∀ c ∈ log.calls, ∀ ref, c.target? = some ref → ¬ n.Leads ref id := by
  intro h
  have hreserved : ∀ l p log result, .pass l p log result ∈ takeoverTurns →
      p.defaultTags.get? controllerKey = none ∧ p.defaultTags.get? ownerKey = none := by
    intro l p log result hpass
    simp only [takeoverTurns, List.mem_cons, List.not_mem_nil, or_false, Turn.pass.injEq] at hpass
    rcases hpass with ⟨-, rfl, -, -⟩ | ⟨-, rfl, -, -⟩ <;> exact ⟨rfl, rfl⟩
  have hid : CreatedFor trioNaming firstLocator takeoverTurns storeAfterTakeover "s1" :=
    .told plainPolicy foundingLog (.ok .created) _ _ (.tail _ (.head _)) (.tail _ (.tail _ (.head _)))
  exact h trioNaming trio takeoverTurns storeAfterTakeover secondLocator firstLocator plainPolicy
    takeoverLog _ "s1" reached_takeoverTurns nameOf_stackName_trio (by simp [trio]) (by simp [trio])
    (by decide) hreserved List.mem_cons_self hid
    (.updateStack (plainPolicy.inputs secondResource (.body "t") "s1")) (by simp [takeoverLog]) "s1"
    rfl (.inl rfl)

end Neighbours
end StackKeeper
