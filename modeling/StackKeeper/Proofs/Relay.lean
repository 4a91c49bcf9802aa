import Mathlib.Data.List.Induction
import StackKeeper.Proofs.Scene
import StackKeeper.Proofs.StatusRace
/-!
# The relay from passes to the follower

A pass hands a stack over to the queue, a request is admitted from the queue into the registry, and
ticks look at what is registered until they find a reason to stop. The three go on at the same time:
between two calls of a pass a request may be admitted and a tick may make some of its calls. Nothing is
assumed of the answers that their calls get.

Results:
* `reason_of_unfollow`: a stack is followed no longer only after a look-up that gave a reason to stop.
* `dropped_of_step`: the one step in which a stack that is waiting or followed gets lost.
* `inHand_iff_not_swallowed`: when a stack that was handed over is neither waiting nor followed although
  no look-up since gave a reason to stop.
-/
namespace StackKeeper

/-- Given the answers of the log, the program makes the calls of the log first. -/
def Program.Begins {α : Type} (t : Program α) (log : Log) : Prop :=
  ∃ rest a, t.Ran (log ++ rest) a

theorem Program.begins_of_ran {α : Type} {t : Program α} {log : Log} {a : α} (h : t.Ran log a) :
    t.Begins log := ⟨[], a, by rwa [List.append_nil]⟩

/-! ## Queue and follower -/

namespace Handoff

variable {h h' : Handoff} {q q' : FollowRequest}

/-- Somebody may submit, and somebody receives. -/
def IsOpen (h : Handoff) : Prop := (h.hasSender && h.hasReceiver) = true

theorem isOpen_ofCapacity (n : Nat) : (ofCapacity n).IsOpen := rfl

theorem IsOpen.submit (ho : h.IsOpen) (q : FollowRequest) : (h.submit q).IsOpen := by
  rw [Handoff.submit]
  split
  · split <;> exact ho
  · exact ho

theorem IsOpen.takeNext (ho : h.IsOpen) : h.takeNext.2.IsOpen := by
  rw [Handoff.takeNext]
  split <;> exact ho

theorem mem_submit_iff (ho : h.IsOpen) :
    q' ∈ (h.submit q).toList ↔ q' ∈ h.toList ∨ q' = q := by
  refine ⟨mem_submit, fun hq => ?_⟩
  have ho' : (h.hasSender && h.hasReceiver) = true := ho
  rw [submit, if_pos ho']
  simp only [toList, List.mem_append] at hq ⊢
  split <;> simp only [List.mem_append, List.mem_singleton] <;> grind

theorem mem_takeNext_iff (ht : h.takeNext.1 = some q) :
    q' ∈ h.toList ↔ q' = q ∨ q' ∈ h.takeNext.2.toList := by
  have heq : h.takeNext = (some q, h.takeNext.2) := by rw [← ht]
  rw [toList_takeNext heq, List.mem_cons]

end Handoff

namespace Registry

theorem contains_insertNew (g : Registry) (id id' : String) (l : Locator) :
    (g.insertNew id l).contains id' = true ↔ g.contains id' = true ∨ id' = id := by
  rw [contains, get?_insertNew, contains]
  by_cases hid : id' = id <;> simp [hid]

theorem contains_erase (g : Registry) (id id' : String) :
    (g.erase id).contains id' = true ↔ id' ≠ id ∧ g.contains id' = true := by
  rw [contains, get?_erase, contains]
  by_cases hid : id' = id <;> simp [hid]

end Registry

namespace Watch

variable {w : Watch} {q : FollowRequest} {id id' : String}

def Follows (w : Watch) (id : String) : Prop := w.registry.contains id = true

/-- After its request has been admitted a stack is followed, whether it was followed before or not. -/
theorem follows_accept_iff (hq : q.stackId ≠ "") :
    (w.accept q).Follows id ↔ w.Follows id ∨ id = q.stackId := by
  rw [accept, accepts]
  cases hc : w.registry.contains q.stackId with
  | false =>
    rw [if_pos (by simpa using hq)]
    exact Registry.contains_insertNew _ _ _ _
  | true =>
    rw [if_neg (by simp)]
    refine ⟨.inl, ?_⟩
    rintro (h | rfl)
    · exact h
    · exact hc

theorem accept_of_no_id (hq : q.stackId = "") : w.accept q = w := by
  rw [accept, accepts, if_neg (by simp [hq])]

theorem follows_stop_iff : (w.stop id').Follows id ↔ id ≠ id' ∧ w.Follows id := by
  rw [stop]
  cases hc : w.registry.contains id' with
  | true =>
    rw [if_pos rfl]
    exact Registry.contains_erase _ _ _
  | false =>
    rw [if_neg (by simp)]
    refine ⟨fun h => ⟨?_, h⟩, And.right⟩
    rintro rfl
    cases hc.symm.trans h

end Watch

/-! ## Reasons to stop -/

namespace Follow

variable {id id' : String} {l : Locator} {log rest : Log} {e : Event} {secs : Nat}
  {entries : List (String × Locator)} {sum : TickSummary}

/-- The event is a look-up that gives a reason to follow the stack no longer. -/
inductive EndsFollowing (id : String) (l : Locator) : Event → Prop
  | resourceGone (e : Error) (he : e.isNotFound = true) :
    EndsFollowing id l ⟨.getResource l, .error e⟩
  | stackGone (e : Error) (he : e.isStackNotFound = true) :
    EndsFollowing id l ⟨.getStack id, .error e⟩
  | terminal (s : RemoteStack) (hs : Lifecycle.isTerminal s.status = true) :
    EndsFollowing id l ⟨.getStack id, .ok s⟩

theorem not_mem_refreshLog {r : Resource} {s : RemoteStack} {x : Except Error (Resource × Bool)}
    (h : Refresh.RefreshLog r s log x) : ⟨.unfollow id, ()⟩ ∉ log := by
  cases h <;> simp

/-- The call that ends the following of a stack is the last one of a look, and a reason comes
before it. -/
theorem reason_of_lookLog {x : Except Error EntryOutcome}
    (h : LookLog id' l (log ++ ⟨.unfollow id, ()⟩ :: rest) x) :
    id = id' ∧ ∃ e ∈ log, EndsFollowing id l e := by
  have last : ∀ before : Log, log ++ ⟨.unfollow id, ()⟩ :: rest = before ++ [⟨.unfollow id', ()⟩] →
      ⟨.unfollow id, ()⟩ ∉ before → id = id' ∧ log = before := by
    intro before heq hnot
    rcases List.eq_nil_or_concat rest with rfl | ⟨rest, e, rfl⟩
    · obtain ⟨hlog, hid⟩ := List.append_inj' heq rfl
      simp only [List.cons.injEq, Sigma.mk.injEq, Call.unfollow.injEq] at hid
      exact ⟨hid.1.1, hlog⟩
    · rw [List.concat_eq_append, ← List.cons_append, ← List.append_assoc] at heq
      obtain ⟨rfl, -⟩ := List.append_inj' heq rfl
      simp at hnot
  have inside : ⟨.unfollow id, ()⟩ ∈ log ++ ⟨.unfollow id, ()⟩ :: rest := by simp
  generalize hall : log ++ ⟨.unfollow id, ()⟩ :: rest = all at h inside
  cases h with
  | unread e he | unseen r e he => simp at inside
  | resourceGone e he =>
    obtain ⟨rfl, rfl⟩ := last [_] hall (by simp)
    exact ⟨rfl, _, List.mem_cons_self, .resourceGone e he⟩
  | stackGone r e he =>
    obtain ⟨rfl, rfl⟩ := last [_, _] hall (by simp)
    exact ⟨rfl, ⟨.getStack id, .error e⟩, by simp, .stackGone e he⟩
  | unrefreshed r s e h | atWork r s ht h =>
    simp only [List.mem_cons, Sigma.mk.injEq, reduceCtorEq, false_and, false_or] at inside
    exact absurd inside (not_mem_refreshLog h)
  | @settled r s ht x look h =>
    obtain ⟨rfl, rfl⟩ := last (⟨.getResource l, .ok r⟩ :: ⟨.getStack id', .ok s⟩ :: look) hall
      (by simpa using not_mem_refreshLog h)
    exact ⟨rfl, ⟨.getStack id, .ok s⟩, by simp, .terminal s ht⟩

/-- Every call of a tick is one of the look at an entry. -/
theorem look_of_begins (h : (lookAtAll secs sum entries).Begins (log ++ [e])) :
    ∃ id l before after x, (id, l) ∈ entries ∧ LookLog id l (before ++ e :: after) x ∧
      before ⊆ log := by
  obtain ⟨rest, total, h⟩ := h
  induction entries generalizing sum log with
  | nil =>
    obtain ⟨hnil, -⟩ := h
    simp at hnil
  | cons entry entries ih =>
    obtain ⟨id, l⟩ := entry
    obtain ⟨x, first, tail, hfirst, htail, heq⟩ := ran_lookAtAll_cons.mp h
    rw [List.append_assoc, List.append_eq_append_iff] at heq
    -- Either the first look ends before the call, or the call is one of the first look.
    rcases heq with ⟨mid, rfl, hmid⟩ | ⟨done, rfl, hdone⟩
    · cases mid with
      | nil =>
        obtain rfl : [] ++ [e] ++ rest = tail := hmid
        obtain ⟨id', l', before, after, x', hentry, hlook, hsub⟩ := ih htail
        exact ⟨id', l', before, after, x', List.mem_cons_of_mem _ hentry, hlook,
          List.Subset.trans hsub (List.nil_subset _)⟩
      | cons e' mid =>
        obtain ⟨rfl, -⟩ := List.cons.inj hmid
        exact ⟨id, l, log, mid, x, List.mem_cons_self, hfirst, List.Subset.refl _⟩
    · rw [hdone, ← List.append_assoc] at htail
      obtain ⟨id', l', before, after, x', hentry, hlook, hsub⟩ := ih htail
      exact ⟨id', l', before, after, x', List.mem_cons_of_mem _ hentry, hlook,
        List.Subset.trans hsub (List.subset_append_right _ _)⟩

/-- A tick that ends the following of a stack has made a look-up that gives a reason, for an entry of
that stack. -/
theorem reason_of_unfollow
    (h : (lookAtAll secs sum entries).Begins (log ++ [⟨.unfollow id, ()⟩])) :
    ∃ l, (id, l) ∈ entries ∧ ∃ e ∈ log, EndsFollowing id l e := by
  obtain ⟨id', l, before, after, x, hentry, hlook, hsub⟩ := look_of_begins h
  obtain ⟨rfl, e, he, hreason⟩ := reason_of_lookLog hlook
  exact ⟨l, hentry, e, hsub he, hreason⟩

end Follow

/-! ## Passes, admissions and ticks side by side -/

/-- A pass that has begun, with what it has done so far. -/
structure PassAtWork where
  policy : Policy
  resource : Locator
  log : Log

/-- A tick that has begun, with the entries it goes through and what it has done so far. -/
structure TickAtWork where
  secs : Nat
  entries : List (String × Locator)
  log : Log

/-- The queue, the follower, and the pass and the tick that are under way. -/
structure Relay where
  hub : Handoff
  watch : Watch
  pass : Option PassAtWork
  tick : Option TickAtWork

inductive Happening where
  | passBegins (p : Policy) (l : Locator)
  | passCalls (e : Event)
  | passEnds
  | admitted (q : FollowRequest)
  | tickBegins (secs : Nat) (entries : List (String × Locator))
  | tickCalls (e : Event)
  | tickEnds
  /-- Something goes on that is no matter of the relay. -/
  | elsewhere

/-- The stack of the request is handed over. -/
def Happening.handsOver (q : FollowRequest) : Happening := .passCalls ⟨.submit q, ()⟩

def Happening.stops (id : String) : Happening := .tickCalls ⟨.unfollow id, ()⟩

namespace Relay
open Follow Pass

def start (capacity : Nat) : Relay := ⟨.ofCapacity capacity, .empty, none, none⟩

/-- Whether the thing can happen: each call is the next one of the pass or of the tick, and what is
admitted is the oldest request. -/
def Allows (x : Relay) : Happening → Prop
  | .passBegins _ _ => x.pass = none
  | .passCalls e => ∃ w, x.pass = some w ∧
      (reconcile w.policy w.resource).run.Begins (w.log ++ [e])
  | .passEnds => ∃ w result, x.pass = some w ∧ Job.Ran (reconcile w.policy w.resource) w.log result
  | .admitted q => x.hub.takeNext.1 = some q
  | .tickBegins _ entries => x.tick = none ∧ entries.Perm x.watch.registry.entries
  | .tickCalls e => ∃ t, x.tick = some t ∧ (Follow.tick t.secs t.entries).Begins (t.log ++ [e])
  | .tickEnds => ∃ t total, x.tick = some t ∧ Program.Ran (Follow.tick t.secs t.entries) t.log total
  | .elsewhere => True

/-- The relay after the thing has happened. -/
def after (x : Relay) : Happening → Relay
  | .passBegins p l => { x with pass := some ⟨p, l, []⟩ }
  | .passCalls e =>
    { x with pass := x.pass.map fun w => { w with log := w.log ++ [e] }, hub := x.hub.after e }
  | .passEnds => { x with pass := none }
  | .admitted q => { x with hub := x.hub.takeNext.2, watch := x.watch.accept q }
  | .tickBegins secs entries => { x with tick := some ⟨secs, entries, []⟩ }
  | .tickCalls e =>
    { x with tick := x.tick.map fun t => { t with log := t.log ++ [e] }, watch := x.watch.after e }
  | .tickEnds => { x with tick := none }
  | .elsewhere => x

/-- What one thing that happens makes of the relay. -/
def Takes (x : Relay) (h : Happening) (x' : Relay) : Prop := x.Allows h ∧ x' = x.after h

/-- A request for the stack is in the queue. -/
def Waits (x : Relay) (id : String) : Prop := ∃ q ∈ x.hub.toList, q.stackId = id

/-- The stack is followed, or a request for it is in the queue. -/
def InHand (x : Relay) (id : String) : Prop := x.Waits id ∨ x.watch.Follows id

/-- The event is a call of the tick that is under way. -/
def HasSeen (x : Relay) (e : Event) : Prop := ∃ t, x.tick = some t ∧ e ∈ t.log

variable {x x' y : Relay} {h : Happening} {q : FollowRequest} {id : String} {e : Event}
  {run later : List Happening} {n : Nat}

theorem eq_of_chain (hc : Chain Takes x run x') : x' = run.foldl after x := by
  induction run generalizing x with
  | nil => exact hc
  | cons h run ih =>
    obtain ⟨m, ⟨-, rfl⟩, hc⟩ := hc
    exact ih hc

/-! ### One step -/

theorem hub_after_event (hh : ∀ q, e ≠ ⟨.submit q, ()⟩) (hub : Handoff) : hub.after e = hub := by
  obtain ⟨c, answer⟩ := e
  cases c with
  | submit q => exact absurd rfl (hh q)
  | getResource _ | updateResource _ | updateStatus _ | listResources | getStack _ | getMembers _
  | createStack _ _ | updateStack _ | deleteStack _ | unfollow _ => rfl

theorem watch_after_event (hh : ∀ id, e ≠ ⟨.unfollow id, ()⟩) (w : Watch) : w.after e = w := by
  obtain ⟨c, answer⟩ := e
  cases c with
  | unfollow id => exact absurd rfl (hh id)
  | getResource _ | updateResource _ | updateStatus _ | listResources | getStack _ | getMembers _
  | createStack _ _ | updateStack _ | deleteStack _ | submit _ => rfl

/-- What a step does to the queue and to the follower. -/
inductive Effect (x : Relay) : Happening → Relay → Prop
  | handsOver (q : FollowRequest) {x' : Relay} (hub : x'.hub = x.hub.submit q)
    (watch : x'.watch = x.watch) : Effect x (.handsOver q) x'
  | admits (q : FollowRequest) {x' : Relay} (next : x.hub.takeNext.1 = some q)
    (hub : x'.hub = x.hub.takeNext.2) (watch : x'.watch = x.watch.accept q) :
    Effect x (.admitted q) x'
  | stops (id : String) {x' : Relay} (hub : x'.hub = x.hub) (watch : x'.watch = x.watch.stop id) :
    Effect x (.stops id) x'
  | leaves {h : Happening} {x' : Relay} (hub : x'.hub = x.hub) (watch : x'.watch = x.watch)
    (no : ∀ q, h ≠ .handsOver q) : Effect x h x'

theorem effect_of_takes (ht : x.Takes h x') : Effect x h x' := by
  obtain ⟨hallows, rfl⟩ := ht
  cases h with
  | admitted q => exact .admits q hallows rfl rfl
  | passCalls e =>
    by_cases hs : ∃ q, e = ⟨.submit q, ()⟩
    · obtain ⟨q, rfl⟩ := hs
      exact .handsOver q rfl rfl
    · have hne : ∀ q, e ≠ ⟨.submit q, ()⟩ := fun q hq => hs ⟨q, hq⟩
      exact .leaves (hub_after_event hne x.hub) rfl
        fun q hq => hne q (Happening.passCalls.inj hq)
  | tickCalls e =>
    by_cases hs : ∃ id, e = ⟨.unfollow id, ()⟩
    · obtain ⟨id, rfl⟩ := hs
      exact .stops id rfl rfl
    · exact .leaves rfl (watch_after_event (fun id hid => hs ⟨id, hid⟩) x.watch)
        (by simp [Happening.handsOver])
  | passBegins p l | passEnds | tickBegins secs entries | tickEnds | elsewhere =>
    exact .leaves rfl rfl (by simp [Happening.handsOver])

theorem isOpen_of_takes (ho : x.hub.IsOpen) (ht : x.Takes h x') : x'.hub.IsOpen := by
  cases effect_of_takes ht with
  | handsOver q hub watch => exact hub ▸ ho.submit q
  | admits q next hub watch => exact hub ▸ ho.takeNext
  | stops id hub watch => exact hub ▸ ho
  | leaves hub watch no => exact hub ▸ ho

theorem isOpen_of_chain (ho : x.hub.IsOpen) (hc : Chain Takes x run x') : x'.hub.IsOpen := by
  induction run generalizing x with
  | nil => exact hc ▸ ho
  | cons h run ih =>
    obtain ⟨m, hm, hc⟩ := hc
    exact ih (isOpen_of_takes ho hm) hc

/-- A stack that is handed over waits. -/
theorem waits_of_handsOver (ho : x.hub.IsOpen) (ht : x.Takes (.handsOver q) x') :
    x'.Waits q.stackId := by
  obtain ⟨-, rfl⟩ := ht
  exact ⟨q, (Handoff.mem_submit_iff ho).mpr (.inr rfl), rfl⟩

/-- A stack that is in hand stays so, unless it is followed no longer while no request for it waits. -/
theorem dropped_of_step (ho : x.hub.IsOpen) (hid : id ≠ "") (ht : x.Takes h x')
    (hx : x.InHand id) (hx' : ¬ x'.InHand id) : h = .stops id ∧ ¬ x.Waits id := by
  cases effect_of_takes ht with
  | handsOver q hub watch =>
    refine absurd ?_ hx'
    rcases hx with ⟨q', hq', rfl⟩ | hf
    · exact .inl ⟨q', hub ▸ (Handoff.mem_submit_iff ho).mpr (.inl hq'), rfl⟩
    · exact .inr (watch ▸ hf)
  | admits q next hub watch =>
    refine absurd ?_ hx'
    rcases hx with ⟨q', hq', rfl⟩ | hf
    · rcases (Handoff.mem_takeNext_iff next).mp hq' with rfl | hq'
      · exact .inr (watch ▸ (Watch.follows_accept_iff hid).mpr (.inr rfl))
      · exact .inl ⟨q', hub ▸ hq', rfl⟩
    · by_cases hq : q.stackId = ""
      · exact .inr (by rwa [watch, Watch.accept_of_no_id hq])
      · exact .inr (watch ▸ (Watch.follows_accept_iff hq).mpr (.inl hf))
  | stops id' hub watch =>
    have hnw : ¬ x.Waits id := by
      rintro ⟨q, hq, rfl⟩
      exact hx' (.inl ⟨q, hub ▸ hq, rfl⟩)
    have hf : x.watch.Follows id := hx.resolve_left hnw
    by_cases hne : id = id'
    · exact ⟨by rw [hne], hnw⟩
    · exact absurd (.inr (watch ▸ Watch.follows_stop_iff.mpr ⟨hne, hf⟩)) hx'
  | leaves hub watch no =>
    refine absurd ?_ hx'
    rwa [InHand, Waits, hub, watch]

/-- A stack that is not in hand stays so until it is handed over. -/
theorem not_inHand_of_step (ht : x.Takes h x') (hx : ¬ x.InHand id)
    (hh : ∀ q, h = .handsOver q → q.stackId ≠ id) : ¬ x'.InHand id := by
  cases effect_of_takes ht with
  | handsOver q hub watch =>
    rintro (⟨q', hq', rfl⟩ | hf)
    · rcases Handoff.mem_submit (hub ▸ hq') with hq' | rfl
      · exact hx (.inl ⟨q', hq', rfl⟩)
      · exact hh q' rfl rfl
    · exact hx (.inr (watch ▸ hf))
  | admits q next hub watch =>
    rintro (⟨q', hq', rfl⟩ | hf)
    · exact hx (.inl ⟨q', (Handoff.mem_takeNext_iff next).mpr (.inr (hub ▸ hq')), rfl⟩)
    · rw [watch] at hf
      by_cases hq : q.stackId = ""
      · exact hx (.inr (by rwa [Watch.accept_of_no_id hq] at hf))
      · rcases (Watch.follows_accept_iff hq).mp hf with hf | rfl
        · exact hx (.inr hf)
        · exact hx (.inl ⟨q, (Handoff.mem_takeNext_iff next).mpr (.inl rfl), rfl⟩)
  | stops id' hub watch =>
    rintro (⟨q', hq', rfl⟩ | hf)
    · exact hx (.inl ⟨q', hub ▸ hq', rfl⟩)
    · exact hx (.inr (Watch.follows_stop_iff.mp (watch ▸ hf)).2)
  | leaves hub watch no => rwa [InHand, Waits, hub, watch]

/-! ### Runs -/

theorem not_inHand_of_chain (hc : Chain Takes x run x') (hx : ¬ x.InHand id)
    (hh : ∀ q, .handsOver q ∈ run → q.stackId ≠ id) : ¬ x'.InHand id := by
  induction run generalizing x with
  | nil => exact hc ▸ hx
  | cons h run ih =>
    obtain ⟨m, hm, hc⟩ := hc
    refine ih hc (not_inHand_of_step hm hx fun q hq => hh q (hq ▸ List.mem_cons_self)) ?_
    exact fun q hq => hh q (List.mem_cons_of_mem _ hq)

/-- What the tick under way has seen it has seen during the run, or before it. -/
theorem seen_of_chain (hc : Chain Takes x run x') (he : x'.HasSeen e) :
    .tickCalls e ∈ run ∨ x.HasSeen e := by
  induction run generalizing x with
  | nil => exact .inr (hc ▸ he)
  | cons h run ih =>
    obtain ⟨m, ⟨-, rfl⟩, hc⟩ := hc
    rcases ih hc with hrun | ⟨t, ht, het⟩
    · exact .inl (List.mem_cons_of_mem _ hrun)
    · cases h with
      | tickBegins secs entries =>
        cases ht
        cases het
      | tickEnds => cases ht
      | tickCalls e' =>
        obtain ⟨t', ht', rfl⟩ := Option.map_eq_some_iff.mp ht
        rcases List.mem_append.mp het with het | het
        · exact .inr ⟨t', ht', het⟩
        · rw [List.mem_singleton.mp het]
          exact .inl List.mem_cons_self
      | passBegins p l | passCalls e' | passEnds | admitted q | elsewhere => exact .inr ⟨t, ht, het⟩

/-- The reason for which the stack is followed no longer is no reason to give up the request: it is from
before the stack was handed over, or it is that another resource is gone. -/
def IsMisplaced (x : Relay) (q : FollowRequest) (l : Locator) (e : Event) : Prop :=
  x.HasSeen e ∨ l ≠ q.resource ∧ ∃ error, e = ⟨.getResource l, .error error⟩

/-- After its stack was handed over, the request is lost: the stack is followed no longer, for a
misplaced reason and while no request for it waits, and it is not handed over again. -/
inductive Swallowed (x : Relay) (q : FollowRequest) : List Happening → Prop
  | intro {y : Relay} {between rest : List Happening} {t : TickAtWork} {l : Locator} {e : Event}
    (before : Chain Takes x between y) (idle : ¬ y.Waits q.stackId) (tick : y.tick = some t)
    (entry : (q.stackId, l) ∈ t.entries) (seen : e ∈ t.log) (reason : EndsFollowing q.stackId l e)
    (misplaced : x.IsMisplaced q l e)
    (since : ∀ q', .handsOver q' ∈ rest → q'.stackId ≠ q.stackId) :
    Swallowed x q (between ++ .stops q.stackId :: rest)

theorem not_inHand_of_swallowed (hs : x.Swallowed q later) (hc : Chain Takes x later x') :
    ¬ x'.InHand q.stackId := by
  cases hs with
  | intro before idle tick entry seen reason misplaced since =>
    obtain ⟨y', hbetween, m, hm, hrest⟩ := chain_append.mp hc
    obtain rfl := (eq_of_chain hbetween).trans (eq_of_chain before).symm
    refine not_inHand_of_chain hrest ?_ since
    obtain ⟨-, rfl⟩ := hm
    rintro (hw | hf)
    · exact idle hw
    · exact (Watch.follows_stop_iff.mp hf).1 rfl

/-- A stack is followed no longer only for a reason that the tick has seen. -/
theorem reason_of_stops (ht : x.Takes (.stops id) x') :
    ∃ t l e, x.tick = some t ∧ (id, l) ∈ t.entries ∧ e ∈ t.log ∧ EndsFollowing id l e := by
  obtain ⟨⟨t, ht, hbegins⟩, -⟩ := ht
  obtain ⟨l, hentry, e, he, hreason⟩ := reason_of_unfollow hbegins
  exact ⟨t, l, e, ht, hentry, he, hreason⟩

theorem swallowed_of_not_inHand (ho : x.hub.IsOpen) (hid : q.stackId ≠ "") (hx : x.InHand q.stackId)
    (hc : Chain Takes x later x')
    (hlater : ∀ e, .tickCalls e ∈ later → ¬ EndsFollowing q.stackId q.resource e)
    (hx' : ¬ x'.InHand q.stackId) : x.Swallowed q later := by
  induction later using List.reverseRecOn generalizing x' with
  | nil => exact absurd (hc ▸ hx) hx'
  | append_singleton later h ih =>
    obtain ⟨y, hbefore, hlast⟩ := chain_append.mp hc
    obtain ⟨_, hstep, rfl⟩ := hlast
    by_cases hy : y.InHand q.stackId
    · -- This step drops the stack, so it has a reason, which cannot be a good one.
      obtain ⟨rfl, hidle⟩ := dropped_of_step (isOpen_of_chain ho hbefore) hid hstep hy hx'
      obtain ⟨t, l, e, htick, hentry, hseen, hreason⟩ := reason_of_stops hstep
      refine .intro hbefore hidle htick hentry hseen hreason ?_ (by simp)
      rcases seen_of_chain hbefore ⟨t, htick, hseen⟩ with hmem | hold
      · refine .inr ?_
        have hnot := hlater e (List.mem_append_left _ hmem)
        cases hreason with
        | resourceGone error he =>
          exact ⟨fun hl => hnot (hl ▸ .resourceGone error he), error, rfl⟩
        | stackGone error he => exact absurd (.stackGone error he) hnot
        | terminal s hs => exact absurd (.terminal s hs) hnot
      · exact .inl hold
    · have hprev := ih hbefore (fun e he => hlater e (List.mem_append_left _ he)) hy
      cases hprev with
      | intro before idle tick entry seen reason misplaced since =>
        rw [List.append_assoc, List.cons_append]
        refine .intro before idle tick entry seen reason misplaced ?_
        intro q' hq'
        rcases List.mem_append.mp hq' with hq' | hq'
        · exact since q' hq'
        · -- Handing the stack over again would bring it back in hand.
          obtain rfl := List.mem_singleton.mp hq'
          intro hsame
          have hwaits := waits_of_handsOver (isOpen_of_chain ho hbefore) hstep
          exact hx' (.inl (hsame ▸ hwaits))

/-- A stack that was handed over is waiting or followed until a look-up gives a reason to stop, except
when its request was swallowed. -/
theorem inHand_iff_not_swallowed
    (hrun : Chain Takes (start n) (run ++ [.handsOver q]) x) (hid : q.stackId ≠ "")
    (hc : Chain Takes x later x')
    (hlater : ∀ e, .tickCalls e ∈ later → ¬ EndsFollowing q.stackId q.resource e) :
    x'.InHand q.stackId ↔ ¬ x.Swallowed q later := by
  have hstart : (start n).hub.IsOpen := Handoff.isOpen_ofCapacity n
  obtain ⟨y, hbefore, hlast⟩ := chain_append.mp hrun
  obtain ⟨_, hstep, rfl⟩ := hlast
  have hwaits := waits_of_handsOver (isOpen_of_chain hstart hbefore) hstep
  constructor
  · intro hx' hs
    exact not_inHand_of_swallowed hs hc hx'
  · intro hs
    refine Classical.byContradiction fun hx' => hs ?_
    exact swallowed_of_not_inHand (isOpen_of_chain hstart hrun) hid (.inl hwaits) hc hlater hx'

/-! ### Calls in a row -/

/-- A pass that begins and makes the calls of the log. -/
def passOf (p : Policy) (l : Locator) (log : Log) : List Happening :=
  .passBegins p l :: log.map .passCalls

theorem chain_passCalls {w : PassAtWork} {log : Log}
    (hb : (reconcile w.policy w.resource).run.Begins (w.log ++ log)) :
    Chain Takes { x with pass := some w } (log.map .passCalls)
      { x with
        pass := some { w with log := w.log ++ log }
        hub := log.foldl Handoff.after x.hub } := by
  induction log generalizing x w with
  | nil => simp
  | cons e log ih =>
    rw [← List.singleton_append, ← List.append_assoc] at hb ⊢
    obtain ⟨rest, result, hran⟩ := hb
    refine ⟨_, ⟨⟨w, rfl, log ++ rest, result, ?_⟩, rfl⟩, ?_⟩
    · rwa [← List.append_assoc]
    · exact ih (x := { x with hub := x.hub.after e }) (w := { w with log := w.log ++ [e] })
        ⟨rest, result, hran⟩

theorem chain_tickCalls {t : TickAtWork} {log : Log}
    (hb : (Follow.tick t.secs t.entries).Begins (t.log ++ log)) :
    Chain Takes { x with tick := some t } (log.map .tickCalls)
      { x with
        tick := some { t with log := t.log ++ log }
        watch := log.foldl Watch.after x.watch } := by
  induction log generalizing x t with
  | nil => simp
  | cons e log ih =>
    rw [← List.singleton_append, ← List.append_assoc] at hb ⊢
    obtain ⟨rest, total, hran⟩ := hb
    refine ⟨_, ⟨⟨t, rfl, log ++ rest, total, ?_⟩, rfl⟩, ?_⟩
    · rwa [← List.append_assoc]
    · exact ih (x := { x with watch := x.watch.after e }) (t := { t with log := t.log ++ [e] })
        ⟨rest, total, hran⟩

theorem chain_passOf {p : Policy} {l : Locator} {log : Log} (hx : x.pass = none)
    (hb : (reconcile p l).run.Begins log) :
    Chain Takes x (passOf p l log)
      { x with pass := some ⟨p, l, log⟩, hub := log.foldl Handoff.after x.hub } :=
  ⟨_, ⟨hx, rfl⟩, chain_passCalls (w := ⟨p, l, []⟩) hb⟩

/-- A pass ends and the request that it made is admitted. -/
theorem chain_admitted {p : Policy} {l : Locator} {log : Log} {result : Except Error Outcome}
    (hran : Job.Ran (reconcile p l) log result) :
    Chain Takes { x with pass := some ⟨p, l, log⟩, hub := (Handoff.ofCapacity 1).submit q }
      [.passEnds, .admitted q]
      { x with pass := none, hub := .ofCapacity 1, watch := x.watch.accept q } :=
  ⟨_, ⟨⟨_, result, rfl, hran⟩, rfl⟩, _, ⟨rfl, rfl⟩, rfl⟩

/-- A tick makes its last calls and ends. -/
theorem chain_tickEnds {t : TickAtWork} (log : Log) {total : TickSummary}
    (hran : Program.Ran (Follow.tick t.secs t.entries) (t.log ++ log) total) :
    Chain Takes { x with tick := some t } (log.map .tickCalls ++ [.tickEnds])
      { x with tick := none, watch := log.foldl Watch.after x.watch } :=
  chain_append.mpr ⟨_, chain_tickCalls (Program.begins_of_ran hran),
    _, ⟨⟨_, total, rfl, hran⟩, rfl⟩, rfl⟩

/-! ### A request that an older look-up swallows -/

def busyStack : RemoteStack := { Store.restingStack with status := "UPDATE_IN_PROGRESS" }

/-- A pass that finds the stack at work. -/
def attendingLog (r : Resource) : Log :=
  [⟨.getResource r.locator, .ok r⟩, ⟨.getStack r.stackRef, .ok busyStack⟩,
    ⟨.submit (r.followRequest "s1"), ()⟩]

theorem ran_attendingLog {r : Resource} (hm : r.isMarked = false)
    (hf : r.hasFinalizer stackFinalizer = true) :
    Job.Ran (reconcile plainPolicy r.locator) (attendingLog r) (.ok .handedOff) :=
  (PassLog.read r (.settling hm hf (.atWork busyStack (by decide) (by decide) (by decide)))).ran

/-- Nothing waits or goes on. -/
def resting (w : Watch) : Relay := ⟨.ofCapacity 1, w, none, none⟩

theorem not_inHand_of_stop {w : Watch} : ¬ (resting (w.stop id)).InHand id := by
  rintro (⟨q, hq, -⟩ | hf)
  · cases hq
  · exact (Watch.follows_stop_iff.mp hf).1 rfl

theorem chain_attendingLog {r : Resource} (w : Watch) (hm : r.isMarked = false)
    (hf : r.hasFinalizer stackFinalizer = true) :
    Chain Takes (resting w) (passOf plainPolicy r.locator (attendingLog r))
      { resting w with
        pass := some ⟨plainPolicy, r.locator, attendingLog r⟩
        hub := (Handoff.ofCapacity 1).submit (r.followRequest "s1") } :=
  chain_passOf rfl (Program.begins_of_ran (ran_attendingLog hm hf))

def heldRequest : FollowRequest := heldResource.followRequest "s1"

/-- A pass hands the stack over and it is followed. -/
def followingRun : List Happening :=
  passOf plainPolicy Store.webLocator (attendingLog heldResource) ++ [.passEnds, .admitted heldRequest]

theorem chain_followingRun :
    Chain Takes (start 1) followingRun (resting (Watch.empty.accept heldRequest)) :=
  chain_append.mpr ⟨_, chain_attendingLog (r := heldResource) Watch.empty rfl (by decide),
    chain_admitted (x := resting Watch.empty) (ran_attendingLog (r := heldResource) rfl (by decide))⟩

/-- The stack is followed. A tick sees it at rest, and then a pass submits other inputs. -/
def overtakingRun : List Happening :=
  followingRun ++
    (.tickBegins 30 [("s1", Store.webLocator)] :: (Store.watchingLog.take 2).map .tickCalls) ++
    passOf plainPolicy Store.webLocator (Store.recordingLog.take 4)

/-- The request is admitted, and the tick goes on with what it saw. -/
def overtakenRest : List Happening :=
  [.passEnds, .admitted heldRequest] ++ ((Store.watchingLog.drop 2).map .tickCalls ++ [.tickEnds])

/-- The stack is followed and was seen at rest. -/
def watching : Relay :=
  { resting (Watch.empty.accept heldRequest) with
    tick := some ⟨30, [("s1", Store.webLocator)], Store.watchingLog.take 2⟩ }

/-- The stack is followed, was seen at rest and is handed over. -/
def overtaken : Relay :=
  { watching with
    pass := some ⟨plainPolicy, Store.webLocator, Store.recordingLog⟩
    hub := (Handoff.ofCapacity 1).submit heldRequest }

theorem ran_watchingTick :
    Program.Ran (Follow.tick 30 [("s1", Store.webLocator)]) Store.watchingLog ⟨1, 1, 0⟩ :=
  ran_lookAtAll_cons.mpr ⟨_, _, [], lookLog_of_ran Store.ran_watchingLog, ⟨rfl, rfl⟩,
    (List.append_nil _).symm⟩

theorem passOf_recordingLog : passOf plainPolicy Store.webLocator Store.recordingLog =
    passOf plainPolicy Store.webLocator (Store.recordingLog.take 4) ++ [.handsOver heldRequest] := by
  simp [passOf, Store.recordingLog, Happening.handsOver, heldRequest, submittedAs,
    Resource.followRequest, Resource.withAppliedHash, Resource.locator]

theorem hub_after_recordingLog (hub : Handoff) :
    Store.recordingLog.foldl Handoff.after hub = hub.submit heldRequest := by
  simp [Store.recordingLog, Handoff.after, readEvent, writeEvent, heldRequest, submittedAs,
    Resource.followRequest, Resource.withAppliedHash, Resource.locator]

theorem chain_overtakingRun :
    Chain Takes (start 1) (overtakingRun ++ [.handsOver heldRequest]) overtaken := by
  have htick : Chain Takes (resting (Watch.empty.accept heldRequest))
      (.tickBegins 30 [("s1", Store.webLocator)] :: (Store.watchingLog.take 2).map .tickCalls)
      watching :=
    ⟨_, ⟨⟨rfl, .refl _⟩, rfl⟩, chain_tickCalls (t := ⟨30, [("s1", Store.webLocator)], []⟩)
      ⟨Store.watchingLog.drop 2, _, ran_watchingTick⟩⟩
  have hpass := chain_passOf (x := watching) rfl (Program.begins_of_ran Store.ran_recordingLog)
  rw [hub_after_recordingLog, passOf_recordingLog] at hpass
  rw [overtakingRun, List.append_assoc]
  exact chain_append.mpr ⟨_, chain_append.mpr ⟨_, chain_followingRun, htick⟩, hpass⟩

theorem chain_overtakenRest : Chain Takes overtaken overtakenRest
    (resting (((Watch.empty.accept heldRequest).accept heldRequest).stop "s1")) := by
  have hadmitted := chain_admitted (x := watching) (q := heldRequest) Store.ran_recordingLog
  have hends := chain_tickEnds
    (x := resting ((Watch.empty.accept heldRequest).accept heldRequest))
    (t := ⟨30, [("s1", Store.webLocator)], Store.watchingLog.take 2⟩)
    (Store.watchingLog.drop 2) ran_watchingTick
  exact chain_append.mpr ⟨_, hadmitted, hends⟩

/-- The stack is at work with the new inputs, and nobody follows it, although there was no look-up at
all since it was handed over. -/
theorem dropped_by_older_look :
    ¬ ∀ (n : Nat) (run later : List Happening) (q : FollowRequest) (x x' : Relay),
        Chain Takes (start n) (run ++ [.handsOver q]) x → q.stackId ≠ "" →
        Chain Takes x later x' →
        (∀ l e, .tickCalls e ∈ later → ¬ EndsFollowing q.stackId l e) →
        x'.InHand q.stackId := by
  intro h
  have hlater : ∀ l e, .tickCalls e ∈ overtakenRest → ¬ EndsFollowing heldRequest.stackId l e := by
    intro l e he hends
    cases hends <;> simp [overtakenRest, Store.watchingLog, writeEvent] at he
  exact not_inHand_of_stop
    (h 1 overtakingRun overtakenRest heldRequest _ _ chain_overtakingRun (by decide)
      chain_overtakenRest hlater)

/-! ### A request that another resource takes along -/

/-- Another resource that declares the same stack. -/
def twinResource : Resource :=
  ⟨⟨"api", "default", "v", 1, none, none, [stackFinalizer]⟩,
    { Spec.empty with template := some "t", stackName := some "default-web" }, Status.empty⟩

def twinRequest : FollowRequest := twinResource.followRequest "s1"

/-- The stack is followed for the first resource when a pass over the other one begins. -/
def sharingRun : List Happening :=
  followingRun ++ passOf plainPolicy twinResource.locator ((attendingLog twinResource).take 2)

def missingLog : Log :=
  [⟨.getResource Store.webLocator, .error (.resourceNotFound "default/web")⟩, ⟨.unfollow "s1", ()⟩]

/-- The request is admitted, and a tick finds the first resource gone. -/
def sharedRest : List Happening :=
  [.passEnds, .admitted twinRequest] ++
    .tickBegins 30 [("s1", Store.webLocator)] :: (missingLog.map .tickCalls ++ [.tickEnds])

theorem ran_missingLog :
    Program.Ran (Follow.tick 30 [("s1", Store.webLocator)]) missingLog ⟨1, 1, 0⟩ :=
  ran_lookAtAll_cons.mpr
    ⟨_, _, [], .resourceGone (.resourceNotFound "default/web") rfl, ⟨rfl, rfl⟩, rfl⟩

/-- The stack is followed for the first resource and is handed over for the other one. -/
def shared : Relay :=
  { resting (Watch.empty.accept heldRequest) with
    pass := some ⟨plainPolicy, twinResource.locator, attendingLog twinResource⟩
    hub := (Handoff.ofCapacity 1).submit twinRequest }

theorem chain_sharingRun :
    Chain Takes (start 1) (sharingRun ++ [.handsOver twinRequest]) shared := by
  have hsecond := chain_attendingLog (r := twinResource) (Watch.empty.accept heldRequest) rfl
    (by decide)
  rw [sharingRun, List.append_assoc]
  exact chain_append.mpr ⟨_, chain_followingRun, hsecond⟩

theorem chain_sharedRest : Chain Takes shared sharedRest
    (resting (((Watch.empty.accept heldRequest).accept twinRequest).stop "s1")) := by
  have hadmitted := chain_admitted (x := shared) (q := twinRequest)
    (ran_attendingLog (r := twinResource) rfl (by decide))
  have hends := chain_tickEnds
    (x := resting ((Watch.empty.accept heldRequest).accept twinRequest))
    (t := ⟨30, [("s1", Store.webLocator)], []⟩) missingLog ran_missingLog
  exact chain_append.mpr ⟨_, hadmitted, _, ⟨⟨rfl, .refl _⟩, rfl⟩, hends⟩

/-- The other resource is there and its stack is at work, and nobody follows it. -/
theorem swallowed_sharedRest :
    Chain Takes (start 1) (sharingRun ++ [.handsOver twinRequest]) shared ∧
      twinRequest.stackId ≠ "" ∧ ∃ x', Chain Takes shared sharedRest x' ∧
        (∀ e, .tickCalls e ∈ sharedRest →
          ¬ EndsFollowing twinRequest.stackId twinRequest.resource e) ∧
        ¬ x'.InHand twinRequest.stackId ∧ shared.Swallowed twinRequest sharedRest := by
  have hne : twinRequest.resource ≠ Store.webLocator := by decide
  have hid : twinRequest.stackId ≠ "" := by decide
  have hlater : ∀ e, .tickCalls e ∈ sharedRest →
      ¬ EndsFollowing twinRequest.stackId twinRequest.resource e := by
    intro e he hends
    cases hends <;> simp [sharedRest, missingLog, hne] at he
  have hiff := inHand_iff_not_swallowed chain_sharingRun hid chain_sharedRest hlater
  exact ⟨chain_sharingRun, hid, _, chain_sharedRest, hlater, not_inHand_of_stop,
    Classical.byContradiction fun hs => not_inHand_of_stop (hiff.mpr hs)⟩

end Relay
end StackKeeper
