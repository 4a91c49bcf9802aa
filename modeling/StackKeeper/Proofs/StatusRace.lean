import StackKeeper.Proofs.FeedText
import StackKeeper.Proofs.Interleaving
import StackKeeper.Proofs.Observation
import StackKeeper.Proofs.PassEnding
import StackKeeper.Proofs.PassWrites
/-!
# A status written from two sides

A pass records the id of a stack that it created and the hash of what it submitted; the follower
merges what it sees of the stack. Both read the resource first and write a whole status in the
end, and a write is accepted from every copy of the same incarnation. What one of them wrote is
therefore still there after the other's write exactly if the other read it, or it was nothing new.

Results:
* `accesses_of_passLog`, `accesses_of_lookLog`: a pass or a look that writes the status is one read
  and one write.
* `status_of_pairs`, `status_of_overtakes`: the status after two such cycles, in every order.
* `record_and_view_kept_iff`: what is left of the record of the pass and of the view of the follower.
* `record_taken_back`: a whole pass between the read and the write of the follower.
-/
namespace StackKeeper

namespace Status

/-- What an observation fills in, apart from the id. -/
def view (st : Status) : Status := { st with stackId := "", appliedHash := "" }

@[simp] theorem appliedHash_merge (st : Status) (s : RemoteStack) (members : List Member) :
    (st.merge s members).appliedHash = st.appliedHash := rfl

end Status

namespace Pass
open Log Refresh

variable {p : Policy} {r w : Resource} {s : RemoteStack} {log whole : Log} {o : Outcome}

@[simp] theorem view_createdAs (p : Policy) (r : Resource) (id : String) :
    (createdAs p r id).status.view = r.status.view := rfl

@[simp] theorem view_submittedAs (p : Policy) (r : Resource) :
    (submittedAs p r).status.view = r.status.view := rfl

@[simp] theorem stackId_submittedAs (p : Policy) (r : Resource) :
    (submittedAs p r).status.stackId = r.status.stackId := rfl

@[simp] theorem view_merge_submittedAs (p : Policy) (r : Resource) (s : RemoteStack)
    (members : List Member) :
    ((submittedAs p r).status.merge s members).view = (r.status.merge s members).view := rfl

/-! ## Whose resource it is about -/

section
variable {l : Locator} {result : Except Error Outcome}

theorem AfterRead.isAbout {e : Event} (h : AfterRead r e) (hl : r.locator = l) : IsAbout l e := by
  cases h with
  | looks | lists | creates | updates | deletes | submits => trivial
  | declares => exact hl
  | records w hw => simpa [IsAbout, Resource.locator, hw] using hl

theorem concerns_of_refreshLog {x : Except Error (Resource × Bool)} (h : RefreshLog r s log x)
    (hl : r.locator = l) : log.Concerns l :=
  fun e he => (afterRead_of_refreshLog h rfl e he).isAbout hl

/-- What a pass does after it has read a resource is about that resource. -/
theorem concerns_of_resourceLog (h : ResourceLog p r log result) (hl : r.locator = l) :
    log.Concerns l := fun e he => (afterRead_of_resourceLog h e he).isAbout hl

end

/-! ## The accesses of a pass -/

/-- The resource whose status a pass over `r` records when it ends with an outcome. -/
inductive Recorded (p : Policy) (r : Resource) (log : Log) : Outcome → Resource → Prop
  | created (id : String) : Recorded p r log .created (createdAs p r id)
  | updated : Recorded p r log .updated (submittedAs p r)
  | observed (s : RemoteStack) (members : List Member) (hs : ⟨.getStack r.stackRef, .ok s⟩ ∈ log)
    (hm : ⟨.getMembers s.id, .ok members⟩ ∈ log) : Recorded p r log .upToDate (merged r s members)
  | confirmed (s : RemoteStack) (members : List Member) (hs : ⟨.getStack r.stackRef, .ok s⟩ ∈ log)
    (hm : ⟨.getMembers s.id, .ok members⟩ ∈ log) :
    Recorded p r log .upToDate (merged (submittedAs p r) s members)

theorem Recorded.locator_eq (h : Recorded p r log o w) : w.locator = r.locator := by
  cases h <;> rfl

/-- Creating or updating leaves what was observed as it was read. -/
theorem Recorded.view_eq (h : Recorded p r log o w) (ho : o ≠ .upToDate) :
    w.status.view = r.status.view := by
  cases h with
  | created id => rfl
  | updated => rfl
  | observed s members hs hm => exact absurd rfl ho
  | confirmed s members hs hm => exact absurd rfl ho

theorem Recorded.stackId_eq (h : Recorded p r log o w) (ho : o = .updated) :
    w.status.stackId = r.status.stackId := by
  subst ho
  cases h
  rfl

/-- A pass that ends up to date has merged what it saw itself. -/
theorem Recorded.seen (h : Recorded p r log o w) (ho : o = .upToDate) :
    ∃ seen members, ⟨.getMembers seen.id, .ok members⟩ ∈ log ∧
      w.status.view = (r.status.merge seen members).view := by
  subst ho
  cases h with
  | observed s members hs hm => exact ⟨s, members, hm, rfl⟩
  | confirmed s members hs hm => exact ⟨s, members, hm, rfl⟩

def writeEvent (w : Resource) : Event := ⟨.updateStatus w, .ok ()⟩

/-- A write is not the event before it, which is no access. -/
theorem write_mem_tail {e : Event} (he : isAccess e = false) (hw : writeEvent w ∈ e :: log) :
    writeEvent w ∈ log := by
  rcases List.mem_cons.mp hw with rfl | hw
  · cases he
  · exact hw

theorem accesses_of_recordLog {recorded : Resource} {id : String} {o' : Outcome}
    (h : RecordLog recorded id o' log (.ok o)) (hw : writeEvent w ∈ log) :
    o = o' ∧ w = recorded ∧ log.accesses = [writeEvent w] := by
  cases h with
  | recorded answer ha =>
    simp only [writeEvent, List.mem_cons, List.not_mem_nil, or_false] at hw
    rcases hw with hw | hw <;> cases hw
    exact ⟨rfl, rfl, rfl⟩

theorem accesses_of_createLog (h : CreateLog p r log (.ok o)) (hw : writeEvent w ∈ log) :
    Recorded p r whole o w ∧ log.accesses = [writeEvent w] := by
  cases h with
  | dryRun t ht hd => cases hw
  | accepted t ht hd id h =>
    obtain ⟨rfl, rfl, ha⟩ := accesses_of_recordLog h (write_mem_tail rfl hw)
    exact ⟨.created id, ha⟩

/-- A refresh reads nothing from the store and writes once at most. -/
theorem accesses_of_refreshLog {x : Resource × Bool} (h : RefreshLog r s log (.ok x)) :
    ∃ members, ⟨.getMembers s.id, .ok members⟩ ∈ log ∧ x.1 = merged r s members ∧
      log.accesses = if x.2 then [writeEvent x.1] else [] := by
  cases h with
  | noNews members hn =>
    refine ⟨members, List.mem_cons_self, ?_, rfl⟩
    rw [merged, Status.merge_of_not_isNews hn]
    rfl
  | written members hn => exact ⟨members, List.mem_cons_self, rfl, rfl⟩
  | gone members hn e he => exact ⟨members, List.mem_cons_self, rfl, rfl⟩

theorem accesses_of_confirmLog (h : ConfirmLog p r s log (.ok o)) (hw : writeEvent w ∈ log) :
    o = .upToDate ∧ (∃ members, ⟨.getMembers s.id, .ok members⟩ ∈ log ∧
      w = merged (submittedAs p r) s members) ∧ log.accesses = [writeEvent w] := by
  cases h with
  | written log r' h =>
    obtain ⟨members, hm, rfl, ha⟩ := accesses_of_refreshLog h
    have hmem := mem_accesses.mpr ⟨hw, rfl⟩
    simp only [ha, if_true, List.mem_singleton] at hmem
    cases hmem
    exact ⟨rfl, ⟨members, hm, rfl⟩, ha⟩
  | rewritten log r' h answer hf =>
    obtain ⟨members, hm, rfl, ha⟩ := accesses_of_refreshLog h
    have hm' := List.mem_append_left [⟨.updateStatus (merged (submittedAs p r) s members), answer⟩] hm
    have hmem := mem_accesses.mpr ⟨hw, rfl⟩
    simp only [accesses_append, ha, Bool.false_eq_true, if_false, List.nil_append] at hmem ⊢
    cases answer with
    | error e => cases hmem
    | ok _ =>
      cases List.mem_singleton.mp hmem
      exact ⟨trivial, ⟨members, hm', rfl⟩, rfl⟩

theorem accesses_of_updateLog (h : UpdateLog p r s log (.ok o)) (hw : writeEvent w ∈ log)
    (hs : ⟨.getStack r.stackRef, .ok s⟩ ∈ whole) (hsub : log ⊆ whole) :
    Recorded p r whole o w ∧ log.accesses = [writeEvent w] := by
  generalize hres : (Except.ok o : Except Error Outcome) = result at h
  cases h with
  | noTemplate ht => cases hw
  | @current t ht hc log x h =>
    cases x with
    | error e => cases hres
    | ok x =>
      cases hres
      obtain ⟨members, hm, hx, ha⟩ := accesses_of_refreshLog h
      have hmem := mem_accesses.mpr ⟨hw, rfl⟩
      rw [ha] at hmem ⊢
      split at hmem
      · rw [List.mem_singleton] at hmem
        cases hmem
        exact ⟨hx ▸ .observed s members hs (hsub hm), by simp [*]⟩
      · cases hmem
  | dryRun t ht hc hd => cases hw
  | accepted t ht hc hd h =>
    subst hres
    obtain ⟨rfl, rfl, ha⟩ := accesses_of_recordLog h (write_mem_tail rfl hw)
    exact ⟨.updated, ha⟩
  | confirmed t ht hc hd e he h =>
    subst hres
    obtain ⟨rfl, ⟨members, hm, rfl⟩, ha⟩ :=
      accesses_of_confirmLog h (write_mem_tail rfl hw)
    exact ⟨.confirmed s members hs (hsub (List.mem_cons_of_mem _ hm)), ha⟩
  | recreated t ht hc hd e he h =>
    subst hres
    rw [accesses_cons_of_not_access rfl]
    exact accesses_of_createLog h (write_mem_tail rfl hw)
  | refused t ht hc hd e hn he => cases hres

theorem accesses_of_settleLog (h : SettleLog p r log (.ok o)) (hw : writeEvent w ∈ log)
    (hsub : log ⊆ whole) : Recorded p r whole o w ∧ log.accesses = [writeEvent w] := by
  cases h with
  | absent e he h =>
    rw [accesses_cons_of_not_access rfl]
    exact accesses_of_createLog h (write_mem_tail rfl hw)
  | foreign s hs h =>
    rw [accesses_cons_of_not_access rfl]
    exact accesses_of_createLog h (write_mem_tail rfl hw)
  | settled s hs hc ht h =>
    rw [accesses_cons_of_not_access rfl]
    exact accesses_of_updateLog h (write_mem_tail rfl hw) (hsub List.mem_cons_self)
      fun e he => hsub (List.mem_cons_of_mem _ he)
  | atWork s hs hc ht => simp [writeEvent] at hw

/-- A pass that writes the status reads the resource once and writes once. -/
theorem accesses_of_passLog {l : Locator} (h : PassLog p l log (.ok o)) (hw : writeEvent w ∈ log) :
    ∃ r rest, log = readEvent l r :: rest ∧ (r.locator = l → Concerns l rest) ∧
      Recorded p r log o w ∧ log.accesses = [readEvent l r, writeEvent w] := by
  generalize hres : (Except.ok o : Except Error Outcome) = result at h
  cases h with
  | gone e he => simp [writeEvent] at hw
  | unread e he => cases hres
  | @read r rest _ h =>
    subst hres
    refine ⟨r, rest, rfl, concerns_of_resourceLog h, ?_⟩
    generalize hres : (Except.ok o : Except Error Outcome) = result at h
    cases h with
    | idle hm hf => simp [writeEvent] at hw
    | finalizing hm hf h => simp [writeEvent, not_mem_finalizeLog h] at hw
    | settling hm hf h =>
      subst hres
      have hw := (List.mem_cons.mp hw).resolve_left (by simp [writeEvent])
      obtain ⟨hrec, ha⟩ := accesses_of_settleLog h hw (List.subset_cons_self _ _)
      rw [accesses_cons_of_access rfl, ha]
      exact ⟨hrec, rfl⟩
    | entering hm hf answer => simp [writeEvent] at hw

end Pass

namespace Follow
open Log Refresh Pass

variable {id : String} {l : Locator} {log : Log} {x : Except Error EntryOutcome} {w : Resource}

/-- A look that writes the status reads the resource once and writes once. -/
theorem accesses_of_lookLog (h : LookLog id l log x) (hw : writeEvent w ∈ log) :
    ∃ r shown members rest, log = readEvent l r :: rest ∧ (r.locator = l → Concerns l rest) ∧
      ⟨.getStack id, .ok shown⟩ ∈ log ∧ w = merged r shown members ∧
      log.accesses = [readEvent l r, writeEvent w] := by
  -- The refresh accounts for the one write.
  have refresh : ∀ {r s rest} {y : Resource × Bool}, RefreshLog r s rest (.ok y) →
      writeEvent w ∈ rest → (∃ members, w = merged r s members) ∧
        rest.accesses = [writeEvent w] := by
    intro r s rest y h hw
    obtain ⟨members, -, hy, ha⟩ := accesses_of_refreshLog h
    have hmem := mem_accesses.mpr ⟨hw, rfl⟩
    rw [ha] at hmem ⊢
    split at hmem
    · rw [List.mem_singleton] at hmem
      cases hmem
      exact ⟨⟨members, hy⟩, by simp [*]⟩
    · cases hmem
  cases h with
  | unread e he => simp [writeEvent] at hw
  | resourceGone e he => simp [writeEvent] at hw
  | unseen r e he => simp [writeEvent] at hw
  | stackGone r e he => simp [writeEvent] at hw
  | unrefreshed r s e h => cases h <;> simp [writeEvent] at hw
  | settled r s ht h =>
    obtain ⟨⟨members, rfl⟩, ha⟩ := refresh h (by simpa [writeEvent] using hw)
    refine ⟨r, s, members, _, rfl, ?_, by simp, rfl, ?_⟩
    · intro hl
      simpa [IsAbout] using concerns_of_refreshLog h hl
    · rw [accesses_cons_of_access rfl, accesses_cons_of_not_access rfl, accesses_append, ha]
      rfl
  | atWork r s ht h =>
    obtain ⟨⟨members, rfl⟩, ha⟩ := refresh h (by simpa [writeEvent] using hw)
    refine ⟨r, s, members, _, rfl, ?_, by simp, rfl, ?_⟩
    · intro hl
      simpa [IsAbout] using concerns_of_refreshLog h hl
    · rw [accesses_cons_of_access rfl, accesses_cons_of_not_access rfl, ha]
      rfl

end Follow

namespace Store
open Log Refresh Pass Follow

variable {s s' : Store} {l : Locator} {r r' w w' stored : Resource} {log a b c : Log}

/-! ## Two cycles -/

theorem chain_write (hget : s.get l = .ok stored) (hown : stored.locator = l) (hl : w.locator = l)
    (hc : Chain Serves s (writeEvent w :: log) s') :
    ∃ m : Store, m.get l = .ok (stored.withStatus w.status) ∧ Chain Serves m log s' := by
  obtain ⟨m, hm, hc⟩ := hc
  exact ⟨m, (get_of_updateStatus_ok hget hown hl hm).2, hc⟩

/-- A cycle that begins after the other has ended reads what the other wrote. -/
theorem status_of_pairs (hown : s.Owns l) (hw : w.locator = l) (hw' : w'.locator = l)
    (hc : Chain Serves s [readEvent l r, writeEvent w, readEvent l r', writeEvent w'] s') :
    s.get l = .ok r ∧ r'.status = w.status ∧
      ∃ after, s'.get l = .ok after ∧ after.status = w'.status := by
  obtain ⟨hr, hfirst⟩ := chain_read.mp hc
  obtain ⟨m, hm, hsecond⟩ := chain_write hr (hown r hr) hw hfirst
  obtain ⟨hr', hlast⟩ := chain_read.mp hsecond
  cases hr'.symm.trans hm
  obtain ⟨_, hafter, rfl⟩ := chain_write hr' (hown r hr) hw' hlast
  exact ⟨hr, rfl, _, hafter, rfl⟩

/-- Of two cycles that overlap the later write prevails, made from what both have read. -/
theorem status_of_overtakes (hown : s.Owns l) (hw : w.locator = l) (hw' : w'.locator = l)
    (h : Overtakes (readEvent l r) (writeEvent w) (readEvent l r') (writeEvent w') log)
    (hc : Chain Serves s log s') :
    s.get l = .ok r ∧ r' = r ∧ ∃ after, s'.get l = .ok after ∧ after.status = w'.status := by
  obtain ⟨hr, rfl, hwrites⟩ := chain_overtakes h hc
  obtain ⟨m, hm, hlast⟩ := chain_write hr (hown r' hr) hw hwrites
  obtain ⟨_, hafter, rfl⟩ := chain_write hm (hown r' hr) hw' hlast
  exact ⟨hr, rfl, _, hafter, rfl⟩

/-- Both jobs read before either of them writes, and the second one writes last. -/
def Overlaps (a b c : Log) : Prop :=
  ∃ r w r' w', a.accesses = [r, w] ∧ b.accesses = [r', w'] ∧ Overtakes r w r' w' c.accesses

/-! ## What is left of the two writes -/

/-- What becomes of the status `wp` that a pass over `a` records and of the status `wf` that a look
over `b` writes, when `c` is the common order of their calls and the follower is shown a stack. -/
inductive Fate (a b c : Log) (o : Outcome) (shown : RemoteStack) (wp wf before after : Status) :
    Prop
  /-- The pass is over before the follower reads. -/
  | passFirst (order : c.accesses = a.accesses ++ b.accesses) (status : after = wf)
    (hash : after.appliedHash = wp.appliedHash)
    (id : after.stackId = wp.stackId ↔ shown.id = "" ∨ shown.id = wp.stackId)
  /-- The follower is done before the pass reads. -/
  | followerFirst (order : c.accesses = b.accesses ++ a.accesses) (status : after = wp)
    (view : o ≠ .upToDate → after.view = wf.view) (id : o = .updated → after.stackId = wf.stackId)
    (seen : o = .upToDate → ∃ s members, ⟨.getMembers s.id, .ok members⟩ ∈ a ∧
      after.view = (wf.merge s members).view)
  /-- They overlap, and the follower writes last. -/
  | followerLast (order : Overlaps a b c) (status : after = wf)
    (hash : after.appliedHash = wp.appliedHash ↔ wp.appliedHash = before.appliedHash)
    (id : after.stackId = wp.stackId ↔
      if shown.id = "" then wp.stackId = before.stackId else shown.id = wp.stackId)
  /-- They overlap, and the pass writes last. -/
  | passLast (order : Overlaps b a c) (status : after = wp)
    (view : o ≠ .upToDate → (after.view = wf.view ↔ wf.view = before.view))
    (id : o = .updated → (after.stackId = wf.stackId ↔ wf.stackId = before.stackId))
    (seen : o = .upToDate → ∃ s members, ⟨.getMembers s.id, .ok members⟩ ∈ a ∧
      after.view = (before.merge s members).view)

/-- A pass that records something and a look of the follower that writes what it sees, their
calls in any order. What the pass recorded outlives a later write of the follower exactly if the
follower read it or it was nothing new, and what the follower saw outlives the later record of
a pass on the same terms; a pass that ends up to date puts what it saw itself in its place. -/
theorem record_and_view_kept_iff {p : Policy} {secs : Nat} {id : String} {o : Outcome}
    {x : Except Error EntryOutcome} {wp wf : Resource} (hown : s.Owns l)
    (hpass : Job.Ran (reconcile p l) a (.ok o)) (hwp : ⟨.updateStatus wp, .ok ()⟩ ∈ a)
    (hlook : Job.Ran (lookAt secs id l) b x) (hwf : ⟨.updateStatus wf, .ok ()⟩ ∈ b)
    (hi : Interleaved a b c) (hc : Chain Serves s c s') :
    ∃ before after shown, s.get l = .ok before ∧ s'.get l = .ok after ∧
      ⟨.getStack id, .ok shown⟩ ∈ b ∧
      Fate a b c o shown wp.status wf.status before.status after.status := by
  have hpl := passLog_of_ran hpass
  have hll := lookLog_of_ran hlook
  obtain ⟨rp, ra, rfl, hra, hrec, hap⟩ := accesses_of_passLog hpl hwp
  obtain ⟨rf, shown, members, rb, rfl, hrb, hshown, rfl, hbf⟩ := accesses_of_lookLog hll hwf
  have hcl : Concerns l c := concerns_of_interleaved hown hra hrb hi hc
  have hwpl : wp.locator = l := hcl _ (hi.mem_iff.mpr (.inl hwp))
  have hwfl : (merged rf shown members).locator = l := hcl _ (hi.mem_iff.mpr (.inr hwf))
  have hca := chain_accesses hown hcl hc
  have hia := hi.accesses
  rw [hap, hbf] at hia
  have hid := Status.stackId_merge rf.status shown members
  rcases interleaved_pairs hia with h | h | h | h
  · rw [h] at hca
    obtain ⟨hbefore, hread, after, hafter, hst⟩ := status_of_pairs hown hwpl hwfl hca
    refine ⟨rp, after, shown, hbefore, hafter, hshown, .passFirst ?_ hst ?_ ?_⟩
    · rw [h, hap, hbf]
      rfl
    · rw [hst, ← hread]
      rfl
    · rw [hst, merged, Resource.withStatus, hid, hread]
      by_cases hs : shown.id = ""
      · simp [hs]
      · simp [hs]
  · rw [h] at hca
    obtain ⟨hbefore, hread, after, hafter, hst⟩ := status_of_pairs hown hwfl hwpl hca
    refine ⟨rf, after, shown, hbefore, hafter, hshown, .followerFirst ?_ hst ?_ ?_ ?_⟩
    · rw [h, hap, hbf]
      rfl
    · intro ho
      rw [hst, hrec.view_eq ho, hread]
    · intro ho
      rw [hst, hrec.stackId_eq ho, hread]
    · intro ho
      obtain ⟨seen, members', hm, hv⟩ := hrec.seen ho
      exact ⟨seen, members', hm, by rw [hst, hv, hread]⟩
  · obtain ⟨hbefore, rfl, after, hafter, hst⟩ := status_of_overtakes hown hwpl hwfl h hca
    refine ⟨rf, after, shown, hbefore, hafter, hshown,
      .followerLast ⟨_, _, _, _, hap, hbf, h⟩ hst ?_ ?_⟩
    · rw [hst]
      exact eq_comm
    · rw [hst, merged, Resource.withStatus, hid]
      split
      · exact eq_comm
      · rfl
  · obtain ⟨hbefore, rfl, after, hafter, hst⟩ := status_of_overtakes hown hwfl hwpl h hca
    refine ⟨rp, after, shown, hbefore, hafter, hshown,
      .passLast ⟨_, _, _, _, hbf, hap, h⟩ hst ?_ ?_ ?_⟩
    · intro ho
      rw [hst, hrec.view_eq ho]
      exact eq_comm
    · intro ho
      rw [hst, hrec.stackId_eq ho]
      exact eq_comm
    · intro ho
      obtain ⟨seen, members', hm, hv⟩ := hrec.seen ho
      exact ⟨seen, members', hm, by rw [hst, hv]⟩

/-! ## A record that the follower takes back -/

def restingStack : RemoteStack := { rolledBackStack with status := "CREATE_COMPLETE" }

def recordingLog : Log :=
  [readEvent webLocator heldResource, ⟨.getStack heldResource.stackRef, .ok restingStack⟩,
    ⟨.updateStack (plainPolicy.inputs heldResource (.body "t") "s1"), .ok ()⟩,
    writeEvent (submittedAs plainPolicy heldResource),
    ⟨.submit ((submittedAs plainPolicy heldResource).followRequest "s1"), ()⟩]

def watchingLog : Log :=
  [readEvent webLocator heldResource, ⟨.getStack "s1", .ok restingStack⟩,
    ⟨.getMembers "s1", .ok []⟩, writeEvent (merged heldResource restingStack []),
    ⟨.unfollow "s1", ()⟩]

/-- The whole pass comes after the read of the follower. -/
def interruptedLog : Log := watchingLog.take 1 ++ recordingLog ++ watchingLog.drop 1

/-- What is stored in the end. -/
def revertedResource : Resource :=
  (submittedAs plainPolicy heldResource).withStatus (merged heldResource restingStack []).status

theorem ran_recordingLog :
    Job.Ran (reconcile plainPolicy webLocator) recordingLog (.ok .updated) := by
  have hcur : isCurrent plainPolicy heldResource restingStack = false :=
    isCurrent_eq_false_iff.mpr fun h => Fingerprint.hash_ne_empty _ _ _ h.1.symm
  have hupdate := UpdateLog.accepted (.body "t") (by decide) hcur rfl
    (.recorded (.ok ()) (.inl rfl))
  have hsettle := SettleLog.settled restingStack (by decide) (by decide)
    (by decide) hupdate
  exact (PassLog.read heldResource (.settling rfl (by decide) hsettle)).ran

theorem ran_watchingLog :
    Job.Ran (lookAt 30 "s1" webLocator) watchingLog (.ok (.stopped .terminal)) := by
  have hrefresh := RefreshLog.written (r := heldResource) (s := restingStack) []
    (by decide)
  have hlook : LookLog "s1" webLocator watchingLog (.ok (.stopped .terminal)) :=
    .settled heldResource restingStack (by decide) hrefresh
  exact hlook.ran

theorem interleaved_interruptedLog : Interleaved recordingLog watchingLog interruptedLog :=
  .right _ (.left _ (.left _ (.left _ (.left _ (.left _ (Interleaved.nil_right _).symm)))))

theorem chain_interruptedLog :
    Chain Serves (webStore (Document.text heldResource)) interruptedLog
      (webStore (Document.text revertedResource)) := by
  have hget : (webStore (Document.text heldResource)).get webLocator = .ok heldResource :=
    get_webStore (by decide)
  have hrecord := @updateStatus_webStore (submittedAs plainPolicy heldResource) heldResource
    (by decide) rfl rfl
  have hmerge := @updateStatus_webStore (merged heldResource restingStack [])
    (submittedAs plainPolicy heldResource) (by decide) rfl rfl
  exact chain_read.mpr ⟨hget, chain_read.mpr ⟨hget, _, rfl, _, rfl, _, hrecord, _, rfl, _, rfl, _,
    rfl, _, hmerge, _, rfl, rfl⟩⟩

theorem owns_heldResource : (webStore (Document.text heldResource)).Owns webLocator := by
  intro r hr
  rw [get_webStore (by decide)] at hr
  cases hr
  rfl

theorem fate_of_interruptedLog :
    (webStore (Document.text heldResource)).Owns webLocator ∧
      Job.Ran (reconcile plainPolicy webLocator) recordingLog (.ok .updated) ∧
      Job.Ran (lookAt 30 "s1" webLocator) watchingLog (.ok (.stopped .terminal)) ∧
      Interleaved recordingLog watchingLog interruptedLog ∧
      ∃ before after shown,
        (webStore (Document.text heldResource)).get webLocator = .ok before ∧
        (webStore (Document.text revertedResource)).get webLocator = .ok after ∧
        ⟨.getStack "s1", .ok shown⟩ ∈ watchingLog ∧
        Fate recordingLog watchingLog interruptedLog .updated shown
          (submittedAs plainPolicy heldResource).status (merged heldResource restingStack []).status
          before.status after.status :=
  ⟨owns_heldResource, ran_recordingLog, ran_watchingLog, interleaved_interruptedLog,
    record_and_view_kept_iff owns_heldResource ran_recordingLog
      (by simp [recordingLog, writeEvent]) ran_watchingLog (by simp [watchingLog, writeEvent])
      interleaved_interruptedLog chain_interruptedLog⟩

/-- The pass is complete and has succeeded, and its hash is gone. -/
theorem record_taken_back :
    ¬ ∀ (s s' : Store) (l : Locator) (p : Policy) (secs : Nat) (id : String) (a b : Log)
        (o : Outcome) (x : Except Error EntryOutcome) (wp wf : Resource), s.Owns l →
        Job.Ran (reconcile p l) a (.ok o) → ⟨.updateStatus wp, .ok ()⟩ ∈ a →
        Job.Ran (lookAt secs id l) b x → ⟨.updateStatus wf, .ok ()⟩ ∈ b →
        Chain Serves s (b.take 1 ++ a ++ b.drop 1) s' →
        ∃ after, s'.get l = .ok after ∧
          after.status.appliedHash = wp.status.appliedHash := by
  intro h
  obtain ⟨after, hafter, hkept⟩ := h _ _ webLocator plainPolicy 30 "s1" recordingLog watchingLog
    .updated _ (submittedAs plainPolicy heldResource) (merged heldResource restingStack [])
    owns_heldResource ran_recordingLog (by simp [recordingLog, writeEvent]) ran_watchingLog
    (by simp [watchingLog, writeEvent]) chain_interruptedLog
  have hget : (webStore (Document.text revertedResource)).get webLocator = .ok revertedResource :=
    get_webStore (by decide)
  cases hget.symm.trans hafter
  exact Fingerprint.hash_ne_empty _ _ _ hkept.symm

end Store
end StackKeeper
