import StackKeeper.Proofs.FeedText
import StackKeeper.Proofs.MutationGuard
import StackKeeper.Proofs.Party
import StackKeeper.Proofs.PassFootprint
import StackKeeper.Proofs.PassWrites
import StackKeeper.Proofs.Serving
import StackKeeper.Proofs.StoreFrame
/-!
# Dry runs

A dry run is to show what the operator would do. It changes no remote stack and it records no
inputs as submitted. Beside the pass that it stands for, with the same answers, it makes the same
calls up to the first one that would change a stack.

A status is written to the document that has the name, the namespace and the uid of the resource
that was read. So the hash that a document records is safe as long as no other document that claims
to be the same resource records another one: a copy that was put beside the original is read
under its own name and written to the original.

Results:
* `not_mutates_of_dry`, `spares_of_resourceLog`: what a pass of a dry run leaves alone.
* `hashesKept_of_pass`, `hashesKept_of_run`: the recorded hashes over a pass and over a run.
* `beside_of_passLog`: how a dry run goes beside the pass that it stands for.
* `safe_and_faithful`: both together; `hash_taken_from_copy`: a copy beside the original.
-/
namespace StackKeeper

namespace Policy

def dry (p : Policy) : Policy := { p with dryRun := true }

def wet (p : Policy) : Policy := { p with dryRun := false }

end Policy

namespace Store

variable {s s' s'' : Store} {l : Locator} {r w : Resource}

/-! ## Recorded hashes -/

/-- No document records another hash than the one that is stored under its name, its namespace and
its uid. -/
def IsCoherent (s : Store) : Prop :=
  ∀ l r stored, s.get l = .ok r → s.get r.locator = .ok stored →
    stored.metadata.uid = r.metadata.uid →
    stored.locator = r.locator ∧ stored.status.appliedHash = r.status.appliedHash

/-- A store in which no two documents have the same uid is coherent. -/
theorem isCoherent_of_uid
    (h : ∀ q q' text text' r r', s.files.entryAt? q = some (.file text) →
      s.files.entryAt? q' = some (.file text') → Document.ofText? text = some r →
      Document.ofText? text' = some r' → r.metadata.uid = r'.metadata.uid → r = r') :
    s.IsCoherent := by
  have file : ∀ {l r}, s.get l = .ok r → ∃ q text, s.files.entryAt? q = some (.file text) ∧
      Document.ofText? text = some r := by
    intro l r hr
    obtain ⟨text, hread, hdoc⟩ := get_eq_ok_iff.mp hr
    obtain ⟨dir, -, -, he⟩ :=
      (FileTree.read_eq_ok_iff (isOrdinary_fileName_documentPath _ _)).mp hread
    exact ⟨_, text, he, hdoc⟩
  intro l r stored hr hstored huid
  obtain ⟨q, text, he, hdoc⟩ := file hr
  obtain ⟨q', text', he', hdoc'⟩ := file hstored
  cases h q q' text text' r stored he he' hdoc hdoc' huid.symm
  exact ⟨rfl, rfl⟩

/-- Every document that can be read is still that of the same incarnation with the same hash. -/
def HashesKept (s s' : Store) : Prop :=
  ∀ l r', s'.get l = .ok r' → ∃ r, s.get l = .ok r ∧ r'.locator = r.locator ∧
    r'.metadata.uid = r.metadata.uid ∧ r'.status.appliedHash = r.status.appliedHash

theorem HashesKept.refl (s : Store) : s.HashesKept s := fun _ r h => ⟨r, h, rfl, rfl, rfl⟩

theorem HashesKept.trans (h : s.HashesKept s') (h' : s'.HashesKept s'') : s.HashesKept s'' := by
  intro l r'' hr''
  obtain ⟨r', hr', hl', huid', hhash'⟩ := h' l r'' hr''
  obtain ⟨r, hr, hl, huid, hhash⟩ := h l r' hr'
  exact ⟨r, hr, hl'.trans hl, huid'.trans huid, hhash'.trans hhash⟩

theorem IsCoherent.kept (hs : s.IsCoherent) (h : s.HashesKept s') : s'.IsCoherent := by
  intro l r' stored' hr' hstored' huid'
  obtain ⟨r, hr, hl, huid, hhash⟩ := h l r' hr'
  obtain ⟨stored, hstored, hsl, hsuid, hshash⟩ := h r'.locator stored' hstored'
  rw [hl] at hstored
  obtain ⟨hown, hsame⟩ := hs l r stored hr hstored (hsuid.symm.trans (huid'.trans huid))
  exact ⟨hsl.trans (hown.trans hl.symm), hshash.trans (hsame.trans hhash.symm)⟩

/-- The document that a write for a resource goes to is its own and records its hash. -/
def Agrees (s : Store) (r : Resource) : Prop :=
  ∀ stored, s.get r.locator = .ok stored → stored.metadata.uid = r.metadata.uid →
    stored.locator = r.locator ∧ stored.status.appliedHash = r.status.appliedHash

theorem Agrees.kept (hs : s.Agrees r) (h : s.HashesKept s') : s'.Agrees r := by
  intro stored' hstored' huid'
  obtain ⟨stored, hstored, hl, huid, hhash⟩ := h r.locator stored' hstored'
  obtain ⟨hown, hsame⟩ := hs stored hstored (huid.symm.trans huid')
  exact ⟨hl.trans hown, hhash.trans hsame⟩

theorem hashesKept_of_write {stored : Resource} (hget : s.get r.locator = .ok stored)
    (hown : stored.locator = r.locator) (huid : r.metadata.uid = stored.metadata.uid)
    (hhash : r.status.appliedHash = stored.status.appliedHash)
    (hg : r.metadata.generation ≤ maxGeneration) :
    s.HashesKept (s.perform (writeSteps s.base r)).2 := by
  intro l r' hr'
  rcases get_of_write hget hg hr' with hsame | ⟨rfl, hwas⟩
  · exact ⟨r', hsame, rfl, rfl, rfl⟩
  · exact ⟨stored, hwas, hown.symm, huid, hhash⟩

theorem hashesKept_of_updateStatus (ha : s.Agrees r) (hmeta : w.metadata = r.metadata)
    (hhash : w.status.appliedHash = r.status.appliedHash) :
    s.HashesKept (s.updateStatus w).2 := by
  have hl : w.locator = r.locator := by rw [Resource.locator, hmeta, Resource.locator]
  rcases incarnation_cases (s := s) hl with ⟨e, he⟩ | ⟨stored, hget, huid, hinc⟩
  · rw [(refused_of_incarnation he).1]
    exact .refl s
  · obtain ⟨hown, hsame⟩ := ha stored hget (huid.trans (by rw [hmeta]))
    have hget' : s.get (stored.withStatus w.status).locator = .ok stored := by
      rw [← hget, ← hown]
      rfl
    rw [updateStatus_of_incarnation hinc]
    exact hashesKept_of_write hget' rfl rfl (hhash.trans hsame.symm)
      (generation_le_of_get (r := stored) hget)

theorem hashesKept_of_update (ha : s.Agrees r) (hl : w.locator = r.locator)
    (huid : w.metadata.uid = r.metadata.uid) : s.HashesKept (s.update w).2 := by
  rcases incarnation_cases (s := s) hl with ⟨e, he⟩ | ⟨stored, hget, hsuid, hinc⟩
  · rw [(refused_of_incarnation he).2]
    exact .refl s
  · rw [update_of_incarnation hinc]
    split
    · rw [hl]
      exact fun l r' hr' => ⟨r', get_of_remove hget hr', rfl, rfl, rfl⟩
    · obtain ⟨hown, -⟩ := ha stored hget (hsuid.trans huid)
      have hget' : s.get (revise stored w).locator = .ok stored := by
        rw [← hget, ← hown]
        rfl
      exact hashesKept_of_write hget' rfl rfl rfl
        (generation_revise_le (r := w) (generation_le_of_get hget))

/-! ## Stores that may fail -/

/-- The write was made, and its answer came or was lost, or it failed and nothing was written. -/
def Lands (s : Store) (made : Except Error Unit × Store) (answer : Except Error Unit)
    (s' : Store) : Prop :=
  made = (answer, s') ∨ (∃ e, answer = .error e) ∧ (s' = made.2 ∨ s' = s)

/-- The event is answered by the store, which may fail at any time, or is none of its business. -/
def Plays (s : Store) (e : Event) (s' : Store) : Prop :=
  match e with
  | ⟨.getResource l, answer⟩ => (answer = s.get l ∨ ∃ e, answer = .error e) ∧ s' = s
  | ⟨.updateResource r, answer⟩ => s.Lands (s.update r) answer s'
  | ⟨.updateStatus r, answer⟩ => s.Lands (s.updateStatus r) answer s'
  | _ => s' = s

theorem Lands.eq_or {made : Except Error Unit × Store} {answer : Except Error Unit}
    (h : s.Lands made answer s') : s' = made.2 ∨ s' = s := by
  rcases h with rfl | ⟨-, h⟩
  · exact .inl rfl
  · exact h

end Store

namespace Pass
open Log Refresh

variable {p : Policy} {l : Locator} {r w : Resource} {log first : Log} {c : Call} {e : Event}
  {result : Except Error Outcome} {s s' : Store}

/-! ## What a dry run leaves alone -/

theorem not_mutates_of_dry (hd : p.dryRun = true) (h : PassLog p l log result) :
    ¬ log.Mutates c := by
  rw [mutates_passLog h]
  rintro ⟨r, -, ⟨-, -, t, -, hw, -⟩ | ⟨-, -, -, s, -, -, hw, -⟩⟩
  · rw [hd] at hw
    cases hw
  · rw [hd] at hw
    cases hw

/-- What a dry run does with the resource that it has read: a status that it writes records the hash
that was recorded. -/
structure Spares (r : Resource) (e : Event) : Prop where
  after : AfterRead r e
  hash : ∀ w answer, e = ⟨.updateStatus w, answer⟩ →
    w.status.appliedHash = r.status.appliedHash

theorem hash_of_settleLog (hd : p.dryRun = true) (h : SettleLog p r log result)
    {answer : Except Error Unit} (hw : ⟨.updateStatus w, answer⟩ ∈ log) :
    w.status.appliedHash = r.status.appliedHash := by
  -- Without a submission there is nothing to record, and only a current stack is looked into.
  have none_of_create : ∀ {rest : Log}, CreateLog p r rest result →
      ⟨.updateStatus w, answer⟩ ∉ rest := by
    intro rest h
    cases h with
    | noTemplate ht | dryRun t ht hd' => simp
    | refused t ht hd' e | accepted t ht hd' id h => simp [hd] at hd'
  cases h with
  | unseen e he | atWork s hs hc ht => simp at hw
  | absent e he h | foreign s hs h =>
    rcases List.mem_cons.mp hw with hw | hw
    · cases hw
    · exact absurd hw (none_of_create h)
  | settled s hs hc ht h =>
    rcases List.mem_cons.mp hw with hw | hw
    · cases hw
    cases h with
    | noTemplate ht | dryRun t ht hc hd' => cases hw
    | current t ht hc h =>
      obtain ⟨members, rfl⟩ := writes_of_refreshLog h hw
      rfl
    | accepted t ht hc hd' h | confirmed t ht hc hd' e he h | recreated t ht hc hd' e he h
    | refused t ht hc hd' e hn he => simp [hd] at hd'

theorem spares_of_resourceLog (hd : p.dryRun = true) (h : ResourceLog p r log result) :
    ∀ e ∈ log, Spares r e := by
  intro e he
  refine ⟨afterRead_of_resourceLog h e he, ?_⟩
  rintro w answer rfl
  cases h with
  | idle hm hf => cases he
  | finalizing hm hf h => exact absurd he (not_mem_finalizeLog h)
  | settling hm hf h => exact hash_of_settleLog hd h he
  | entering hm hf answer' => simp at he

theorem written_of_dry (hd : p.dryRun = true) (h : PassLog p l log result)
    {answer : Except Error Unit} (hw : ⟨.updateStatus w, answer⟩ ∈ log) :
    ∃ r, readEvent l r ∈ log ∧ w.metadata = r.metadata ∧
      w.status.appliedHash = r.status.appliedHash := by
  cases h with
  | gone e he | unread e he => simp at hw
  | read r h =>
    rcases List.mem_cons.mp hw with hread | hrest
    · cases hread
    · have hspares := spares_of_resourceLog hd h _ hrest
      cases hspares.after with
      | records w hmeta answer =>
        exact ⟨r, List.mem_cons_self, hmeta, hspares.hash w answer rfl⟩

/-! ## Runs of passes -/

/-- A pass of a dry run with the answers that it got. -/
structure DryPass where
  policy : Policy
  dry : policy.dryRun = true
  locator : Locator
  log : Log
  result : Except Error Outcome
  ran : Job.Ran (reconcile policy locator) log result

/-- The store answers the calls of the pass, or fails. -/
def DryPass.Takes (s : Store) (pass : DryPass) (s' : Store) : Prop :=
  Chain Store.Plays s pass.log s'

theorem hashesKept_of_event (ha : s.Agrees r) (he : Spares r e) (h : s.Plays e s') :
    s.HashesKept s' := by
  have of_lands : ∀ {made : Except Error Unit × Store} {answer : Except Error Unit},
      s.HashesKept made.2 → s.Lands made answer s' → s.HashesKept s' := by
    intro made answer hmade hl
    rcases hl.eq_or with rfl | rfl
    · exact hmade
    · exact .refl _
  obtain ⟨after, hash⟩ := he
  cases after with
  | looks answer | lists id answer | creates inputs onFailure answer | updates inputs answer
  | deletes ref answer | submits w hw id =>
    cases (show s' = s from h)
    exact .refl _
  | declares finalizers answer =>
    exact of_lands (Store.hashesKept_of_update (w := r.withFinalizers finalizers) ha rfl rfl) h
  | records w hw answer =>
    exact of_lands (Store.hashesKept_of_updateStatus ha hw (hash w answer rfl)) h

theorem hashesKept_of_events (ha : s.Agrees r) (hl : ∀ e ∈ log, Spares r e)
    (h : Chain Store.Plays s log s') : s.HashesKept s' := by
  induction log generalizing s with
  | nil =>
    cases h
    exact .refl _
  | cons e log ih =>
    obtain ⟨he, hrest⟩ := List.forall_mem_cons.mp hl
    obtain ⟨m, hm, hchain⟩ := h
    have hkept := hashesKept_of_event ha he hm
    exact hkept.trans (ih (ha.kept hkept) hrest hchain)

theorem hashesKept_of_pass {pass : DryPass} (hs : s.IsCoherent) (h : pass.Takes s s') :
    s.HashesKept s' := by
  obtain ⟨p, hd, l, log, result, hran⟩ := pass
  have unread : ∀ {e : Error}, Chain Store.Plays s [⟨.getResource l, .error e⟩] s' →
      s.HashesKept s' := by
    rintro e ⟨m, ⟨-, rfl⟩, rfl⟩
    exact .refl _
  cases passLog_of_ran hran with
  | gone e he => exact unread h
  | unread e he => exact unread h
  | read r hrest =>
    obtain ⟨m, ⟨hget, rfl⟩, hchain⟩ := h
    have hget : m.get l = .ok r := by
      rcases hget with hget | ⟨e, he⟩
      · exact hget.symm
      · cases he
    exact hashesKept_of_events (fun stored hstored huid => hs l r stored hget hstored huid)
      (spares_of_resourceLog hd hrest) hchain

theorem hashesKept_of_run {passes : List DryPass} (hs : s.IsCoherent)
    (h : Chain DryPass.Takes s passes s') : s.HashesKept s' := by
  induction passes generalizing s with
  | nil =>
    cases h
    exact .refl _
  | cons pass passes ih =>
    obtain ⟨m, hm, hrest⟩ := h
    have hkept := hashesKept_of_pass hs hm
    exact hkept.trans (ih (hs.kept hkept) hrest)

/-! ## Beside the pass that is meant -/

/-- A look-up of the resource or of its stack. -/
inductive IsLook : Event → Prop
  | reads (l : Locator) (answer : Except Error Resource) : IsLook ⟨.getResource l, answer⟩
  | looks (ref : String) (answer : Except Error RemoteStack) : IsLook ⟨.getStack ref, answer⟩

/-- How a stage goes in a dry run, beside a log of it that is none: the same way if no call was to
change a stack, or no further than to some look-ups. Only over a marked resource it stops early
without such a call. -/
inductive Beside (marked : Prop) (dry : Log → Except Error Outcome → Prop) (log : Log)
    (result : Except Error Outcome) : Prop
  | same (h : dry log result) (hm : ∀ c, ¬ log.Mutates c)
  | stopped (first : Log) (hp : first <+: log) (hl : ∀ e ∈ first, IsLook e)
    (h : dry first (.ok .dryRun)) (hm : marked ∨ ∃ c, log.Mutates c)

theorem mutates_cons_of_isLook (he : IsLook e) : Mutates (e :: log) c ↔ Mutates log c := by
  cases he <;> simp [mutates_cons, Call.isMutation]

/-- A look-up before the stage is made in both. -/
theorem Beside.cons {marked : Prop} {dry dry' : Log → Except Error Outcome → Prop}
    (h : Beside marked dry log result) (he : IsLook e)
    (hd : ∀ {log result}, dry log result → dry' (e :: log) result) :
    Beside marked dry' (e :: log) result := by
  cases h with
  | same h hm => exact .same (hd h) fun c => by rw [mutates_cons_of_isLook he]; exact hm c
  | stopped first hp hl h hm =>
    refine .stopped (e :: first) (List.cons_prefix_cons.mpr ⟨rfl, hp⟩)
      (List.forall_mem_cons.mpr ⟨he, hl⟩) (hd h) ?_
    simpa only [mutates_cons_of_isLook he] using hm

theorem Beside.imp {marked : Prop} {dry dry' : Log → Except Error Outcome → Prop}
    (h : Beside marked dry log result) (hd : ∀ {log result}, dry log result → dry' log result) :
    Beside marked dry' log result := by
  cases h with
  | same h hm => exact .same (hd h) hm
  | stopped first hp hl h hm => exact .stopped first hp hl (hd h) hm

theorem beside_of_createLog {marked : Prop} (h : CreateLog p.wet r log result) :
    Beside marked (CreateLog p.dry r) log result := by
  have stop : ∀ {t : Template}, r.spec.templateSource? = some t → (∃ c, log.Mutates c) →
      Beside marked (CreateLog p.dry r) log result := fun ht hm =>
    .stopped [] List.nil_prefix (by simp) (.dryRun _ ht rfl) (.inr hm)
  have hmut := fun c => mutates_createLog (c := c) h
  cases h with
  | noTemplate ht => exact .same (.noTemplate ht) fun c => not_mutates_nil
  | dryRun t ht hd => cases hd
  | refused t ht hd e => exact stop ht ⟨_, (hmut _).mpr ⟨t, ht, rfl, rfl⟩⟩
  | accepted t ht hd id h => exact stop ht ⟨_, (hmut _).mpr ⟨t, ht, rfl, rfl⟩⟩

theorem beside_of_updateLog {marked : Prop} {shown : RemoteStack}
    (h : UpdateLog p.wet r shown log result) :
    Beside marked (UpdateLog p.dry r shown) log result := by
  have stop : ∀ {t : Template}, r.spec.templateSource? = some t →
      isCurrent p.wet r shown = false → (∃ c, log.Mutates c) →
      Beside marked (UpdateLog p.dry r shown) log result := fun ht hc hm =>
    .stopped [] List.nil_prefix (by simp) (.dryRun _ ht hc rfl) (.inr hm)
  have hmut := fun c => mutates_updateLog (c := c) h
  cases h with
  | noTemplate ht => exact .same (.noTemplate ht) fun c => not_mutates_nil
  | current t ht hc h =>
    have hc' : isCurrent p.dry r shown = true := hc
    exact .same (.current t ht hc' h) fun c => not_mutates_refreshLog h
  | dryRun t ht hc hd => cases hd
  | accepted t ht hc hd h => exact stop ht hc ⟨_, (hmut _).mpr ⟨t, ht, rfl, hc, .inl rfl⟩⟩
  | confirmed t ht hc hd e he h => exact stop ht hc ⟨_, (hmut _).mpr ⟨t, ht, rfl, hc, .inl rfl⟩⟩
  | recreated t ht hc hd e he h => exact stop ht hc ⟨_, (hmut _).mpr ⟨t, ht, rfl, hc, .inl rfl⟩⟩
  | refused t ht hc hd e hn he => exact stop ht hc ⟨_, (hmut _).mpr ⟨t, ht, rfl, hc, .inl rfl⟩⟩

theorem beside_of_settleLog {marked : Prop} (h : SettleLog p.wet r log result) :
    Beside marked (SettleLog p.dry r) log result := by
  cases h with
  | unseen e he =>
    exact .same (.unseen e he) fun c => by simp [mutates_cons, Call.isMutation]
  | absent e he h => exact (beside_of_createLog h).cons (.looks _ _) (.absent e he)
  | foreign s hs h => exact (beside_of_createLog h).cons (.looks _ _) (.foreign s hs)
  | settled s hs hc ht h => exact (beside_of_updateLog h).cons (.looks _ _) (.settled s hs hc ht)
  | atWork s hs hc ht =>
    exact .same (.atWork s hs hc ht) fun c => by simp [mutates_cons, Call.isMutation]

/-- A marked resource is finished as ever as long as its stack is not to be deleted. -/
theorem beside_of_finalizeLog (h : FinalizeLog p.wet r log result) :
    Beside True (FinalizeLog p.dry r) log result := by
  have released : ∀ {rest : Log}, ReleaseLog r .finalized rest result →
      Beside True (ReleaseLog r .finalized) rest result := fun h =>
    .same h fun c => not_mutates_releaseLog h
  cases h with
  | recorded hs h => exact (released h).imp (.recorded hs)
  | unseen hs e he =>
    exact .same (.unseen hs e he) fun c => by simp [mutates_cons, Call.isMutation]
  | absent hs e he h => exact (released h).cons (.looks _ _) (.absent hs e he)
  | deleted hs s hd h => exact (released h).cons (.looks _ _) (.deleted hs s hd)
  | @standing hs s hd rest _ h =>
    exact .stopped [_] (List.cons_prefix_cons.mpr ⟨rfl, List.nil_prefix⟩)
      (by simpa using IsLook.looks _ _) (.standing hs s hd (.dryRun rfl)) (.inl trivial)

theorem beside_of_resourceLog (h : ResourceLog p.wet r log result) :
    Beside (r.isMarked = true) (ResourceLog p.dry r) log result := by
  cases h with
  | idle hm hf => exact .same (.idle hm hf) fun c => not_mutates_nil
  | finalizing hm hf h =>
    cases beside_of_finalizeLog h with
    | same h hmut => exact .same (.finalizing hm hf h) hmut
    | stopped first hp hl h _ => exact .stopped first hp hl (.finalizing hm hf h) (.inl hm)
  | settling hm hf h => exact (beside_of_settleLog h).imp (.settling hm hf)
  | entering hm hf answer =>
    exact .same (.entering hm hf answer) fun c => by simp [mutates_cons, Call.isMutation]

theorem beside_of_passLog (h : PassLog p.wet l log result) :
    Beside (∃ r, readEvent l r ∈ log ∧ r.isMarked = true) (PassLog p.dry l) log result := by
  cases h with
  | gone e he =>
    exact .same (.gone e he) fun c => by simp [mutates_cons, Call.isMutation]
  | unread e he =>
    exact .same (.unread e he) fun c => by simp [mutates_cons, Call.isMutation]
  | read r h =>
    have hread : Beside (r.isMarked = true) (PassLog p.dry l) _ result :=
      (beside_of_resourceLog h).cons (.reads l (.ok r)) (.read r)
    cases hread with
    | same h hmut => exact .same h hmut
    | stopped first hp hl h hm =>
      exact .stopped first hp hl h (hm.imp_left fun hm => ⟨r, List.mem_cons_self, hm⟩)

/-- The calls of a pass whose answers the party gives, and how it ends. -/
def against (p : Policy) (l : Locator) (b : Party) (before : Log) : Log × Except Error Outcome :=
  (reconcile p l).run.against b before

theorem beside_of_against (p : Policy) (l : Locator) (b : Party) (before : Log) :
    Beside (∃ r, readEvent l r ∈ (against p.wet l b before).1 ∧ r.isMarked = true)
      (fun log result => against p.dry l b before = (log, result))
      (against p.wet l b before).1 (against p.wet l b before).2 := by
  obtain ⟨hran, hgives⟩ := Program.ran_against (reconcile p.wet l).run b before
  cases beside_of_passLog (passLog_of_ran hran) with
  | same h hm => exact .same (Program.against_of_ran h.ran hgives) hm
  | stopped first hp hl h hm =>
    exact .stopped first hp hl (Program.against_of_ran h.ran (hgives.of_prefix hp)) hm

/-! ## Safe and faithful -/

/-- The calls change nothing that is stored and hand nothing over. -/
def LeavesAll (log : Log) : Prop :=
  (∀ s s', Chain Store.Plays s log s' → s' = s) ∧ log.submitted = []

theorem leavesAll_of_isLook (h : ∀ e ∈ log, IsLook e) : LeavesAll log := by
  induction log with
  | nil => exact ⟨fun s s' h => h, rfl⟩
  | cons e log ih =>
    obtain ⟨he, hrest⟩ := List.forall_mem_cons.mp h
    obtain ⟨hstore, hhub⟩ := ih hrest
    refine ⟨?_, ?_⟩
    · rintro s s' ⟨m, hm, hchain⟩
      have hkept : m = s := by
        cases he with
        | reads l answer => exact hm.2
        | looks ref answer => exact hm
      rw [hstore m s' hchain, hkept]
    · cases he <;> exact hhub

/-- Over any run of dry passes no stack is changed, every status that is written has the hash that
was read, and the hashes of a coherent store stay. With the same answers, a dry pass ends as a dry
run and leaves everything as it was where the pass itself would change a stack; where it would not,
and the resource is not marked, both are the same. -/
theorem safe_and_faithful (passes : List DryPass) (p : Policy) (l : Locator) (b : Party)
    (before : Log) :
    ((∀ pass ∈ passes, ∀ c ∈ pass.log.calls, c.isMutation = false) ∧
      (∀ pass ∈ passes, ∀ w answer, ⟨.updateStatus w, answer⟩ ∈ pass.log →
        ∃ r, readEvent pass.locator r ∈ pass.log ∧ w.metadata = r.metadata ∧
          w.status.appliedHash = r.status.appliedHash) ∧
      ∀ s s', s.IsCoherent → Chain DryPass.Takes s passes s' → s.HashesKept s') ∧
    ((∃ c ∈ (against p.wet l b before).1.calls, c.isMutation = true) →
      (against p.dry l b before).2 = .ok .dryRun ∧ LeavesAll (against p.dry l b before).1) ∧
    ((∀ r, readEvent l r ∈ (against p.wet l b before).1 → r.isMarked = false) →
      (∀ c ∈ (against p.wet l b before).1.calls, c.isMutation = false) →
      against p.dry l b before = against p.wet l b before) := by
  refine ⟨⟨?_, ?_, fun s s' hs h => hashesKept_of_run hs h⟩, ?_, ?_⟩
  · intro pass _ c hc
    have hnot := not_mutates_of_dry (c := c) pass.dry (passLog_of_ran pass.ran)
    exact Bool.eq_false_iff.mpr fun hm => hnot ⟨hc, hm⟩
  · exact fun pass _ w answer hw => written_of_dry pass.dry (passLog_of_ran pass.ran) hw
  · rintro ⟨c, hc, hm⟩
    cases beside_of_against p l b before with
    | same h hnot => exact absurd ⟨hc, hm⟩ (hnot c)
    | stopped first hp hl h _ =>
      rw [h]
      exact ⟨rfl, leavesAll_of_isLook hl⟩
  · intro hunmarked hnone
    cases beside_of_against p l b before with
    | same h _ => exact h
    | stopped first hp hl h hm =>
      rcases hm with ⟨r, hr, hmarked⟩ | ⟨c, hc, hm⟩
      · rw [hunmarked r hr] at hmarked
        cases hmarked
      · rw [hnone c hc] at hm
        cases hm

/-! ### A stack that is current -/

/-- A stack of ours at rest after an update. -/
def settledStack : RemoteStack := { rolledBackStack with status := "UPDATE_COMPLETE" }

def currentResource : Resource := submittedAs plainPolicy heldResource

/-- A pass that finds the stack current and records what it sees of it. -/
def refreshingLog (l : Locator) : Log :=
  [readEvent l currentResource, lookUpEvent currentResource (.ok settledStack),
    ⟨.getMembers "s1", .ok []⟩, ⟨.updateStatus (merged currentResource settledStack []), .ok ()⟩]

theorem ran_refreshingLog (l : Locator) (dry : Bool) :
    Job.Ran (reconcile { plainPolicy with dryRun := dry } l) (refreshingLog l)
      (.ok .upToDate) := by
  have hcur : isCurrent { plainPolicy with dryRun := dry } currentResource settledStack = true := by
    have htags : settledStack.tags == plainPolicy.effectiveTags currentResource := by decide
    rw [isCurrent, Bool.and_eq_true, Bool.and_eq_true]
    exact ⟨⟨beq_self_eq_true _, by decide⟩, htags⟩
  have hrefresh := RefreshLog.written (r := currentResource) (s := settledStack) [] (by decide)
  have hupdate := UpdateLog.current (.body "t") (by decide) hcur hrefresh
  have hsettle := SettleLog.settled settledStack (by decide) (by decide) (by decide) hupdate
  exact (PassLog.read currentResource (.settling rfl (by decide) hsettle)).ran

/-- The pass of a dry run that finds the stack current. -/
def refreshingPass (l : Locator) : DryPass where
  policy := plainPolicy.dry
  dry := rfl
  locator := l
  log := refreshingLog l
  result := .ok .upToDate
  ran := ran_refreshingLog l true

theorem against_replay {log : Log} {result : Except Error Outcome}
    (h : Job.Ran (reconcile p l) log result) : against p l (.replay log) [] = (log, result) :=
  Program.against_of_ran h (Party.gives_replay [] log)

theorem takes_refreshingPass : (refreshingPass Store.webLocator).Takes
    (Store.webStore (Document.text currentResource))
    (Store.webStore (Document.text (merged currentResource settledStack []))) := by
  have hget : (Store.webStore (Document.text currentResource)).get Store.webLocator =
      .ok currentResource := Store.get_webStore (by decide)
  have hwrite : (Store.webStore (Document.text currentResource)).updateStatus
      (merged currentResource settledStack []) = _ :=
    Store.updateStatus_webStore (by decide) rfl rfl
  exact ⟨_, ⟨.inl hget.symm, rfl⟩, _, rfl, _, rfl, _, .inl hwrite, rfl⟩

theorem isCoherent_webStore (text : String) : (Store.webStore text).IsCoherent := by
  refine Store.isCoherent_of_uid fun q q' t t' r r' he he' hr hr' _ => ?_
  have only : ∀ {q t}, (Store.webStore text).files.entryAt? q = some (.file t) → t = text := by
    intro q t he
    unfold FileTree.entryAt? Store.webStore at he
    split at he
    · cases he
    · simp only [List.find?_cons, List.find?_nil] at he
      repeat' split at he
      all_goals simp at he
      exact he.symm
  rw [only he] at hr
  rw [only he'] at hr'
  exact Option.some.inj (hr.symm.trans hr')

theorem safe_and_faithful_heldResource :
    (Chain DryPass.Takes (Store.webStore (Document.text currentResource))
        [refreshingPass Store.webLocator]
        (Store.webStore (Document.text (merged currentResource settledStack []))) ∧
      (Store.webStore (Document.text currentResource)).HashesKept
        (Store.webStore (Document.text (merged currentResource settledStack [])))) ∧
    (creation plainPolicy heldResource (.body "t") ∈ recreatingLog.calls ∧
      (against plainPolicy.dry heldResource.locator (.replay recreatingLog) []).2 = .ok .dryRun) ∧
    against plainPolicy.dry Store.webLocator (.replay (refreshingLog Store.webLocator)) [] =
      (refreshingLog Store.webLocator, .ok .upToDate) := by
  have hchain : Chain DryPass.Takes _ [refreshingPass Store.webLocator] _ :=
    ⟨_, takes_refreshingPass, rfl⟩
  have hrecreates : against plainPolicy.wet heldResource.locator (.replay recreatingLog) [] = _ :=
    against_replay ran_recreatingLog
  have hrefreshes : against plainPolicy.wet Store.webLocator
      (.replay (refreshingLog Store.webLocator)) [] = _ :=
    against_replay (ran_refreshingLog Store.webLocator false)
  have hmutates : creation plainPolicy heldResource (.body "t") ∈ recreatingLog.calls := by
    simp [recreatingLog]
  refine ⟨⟨hchain, ?_⟩, ⟨hmutates, ?_⟩, ?_⟩
  · exact (safe_and_faithful [refreshingPass Store.webLocator] plainPolicy Store.webLocator
      (.replay []) []).1.2.2 _ _ (isCoherent_webStore _) hchain
  · have hstops := (safe_and_faithful [] plainPolicy heldResource.locator (.replay recreatingLog)
      []).2.1
    rw [hrecreates] at hstops
    exact (hstops ⟨_, hmutates, rfl⟩).1
  · have hsame := (safe_and_faithful [] plainPolicy Store.webLocator
      (.replay (refreshingLog Store.webLocator)) []).2.2
    rw [hrefreshes] at hsame
    refine hsame (fun r hr => ?_) ?_
    · simp only [refreshingLog, List.mem_cons, readEvent, lookUpEvent] at hr
      obtain hr | hr | hr | hr | hr := hr <;> cases hr
      rfl
    · decide

/-! ### A copy beside the original -/

def copyLocator : Locator := ⟨"default", "web-old"⟩

/-- A store with a document that records no hash, and beside it a copy that records one. -/
def copyStore : Store where
  base := ["state"]
  files := ⟨[(["state", "default", "web.json"], .file (Document.text heldResource)),
    (["state", "default", "web-old.json"], .file (Document.text currentResource)),
    (["state", "default"], .directory), (["state"], .directory)]⟩

theorem get_copyStore : copyStore.get Store.webLocator = .ok heldResource ∧
    copyStore.get copyLocator = .ok currentResource := by
  have hcopy : Store.documentPath ["state"] copyLocator = ["state", "default", "web-old.json"] := by
    decide
  constructor
  · refine Store.get_eq_ok_iff.mpr ⟨Document.text heldResource, ?_, Document.ofText?_text (by decide)⟩
    show copyStore.files.read (Store.documentPath ["state"] Store.webLocator) = _
    rw [Store.documentPath_webLocator]
    rfl
  · refine Store.get_eq_ok_iff.mpr
      ⟨Document.text currentResource, ?_, Document.ofText?_text (by decide)⟩
    show copyStore.files.read (Store.documentPath ["state"] copyLocator) = _
    rw [hcopy]
    rfl

theorem isReplaceable_copyStore : copyStore.IsReplaceable Store.webLocator := by
  have hname : Store.temporaryName ["state", "default", "web.json"] = "web.tmp" := by decide
  have hpath : Store.documentPath copyStore.base Store.webLocator =
      ["state", "default", "web.json"] := Store.documentPath_webLocator
  rw [Store.IsReplaceable, hpath, hname]
  refine ⟨by decide, fun dir hdir => ?_⟩
  have hfollow : copyStore.files.follow [] ["state", "default"] = .ok ["state", "default"] := rfl
  cases hfollow.symm.trans hdir
  simp [FileTree.entryAt?, copyStore]

/-- The pass reads the copy, finds it current, and writes its status with its hash to the original. -/
theorem hash_taken_from_copy : ∃ s' r', (refreshingPass copyLocator).Takes copyStore s' ∧
    copyStore.get Store.webLocator = .ok heldResource ∧ s'.get Store.webLocator = .ok r' ∧
    r'.metadata.uid = heldResource.metadata.uid ∧
    r'.status.appliedHash ≠ heldResource.status.appliedHash := by
  obtain ⟨s', hwrite, hget, -⟩ := Store.updateStatus_of_isReplaceable
    (r := merged currentResource settledStack []) isReplaceable_copyStore get_copyStore.1 rfl rfl rfl
  refine ⟨s', _, ⟨_, ⟨.inl get_copyStore.2.symm, rfl⟩, _, rfl, _, rfl, _, .inl hwrite, rfl⟩,
    get_copyStore.1, hget, rfl, ?_⟩
  exact Fingerprint.hash_ne_empty _ _ _

end Pass
end StackKeeper
