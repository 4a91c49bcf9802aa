import Mathlib.Data.List.Induction
import StackKeeper.Proofs.Relay
/-!
# What the follower counts

The follower keeps its stacks in a registry and reports two numbers on them: how many it follows, and
how many it has ever begun to follow. Requests are admitted one after another and ticks are made one
after another; a request may also be admitted between two calls of a tick. Nothing is assumed of the
requests, nor of the answers that the calls of a tick get.

Results:
* `stopped_of_ran`: a tick stops an entry once at most, and its summary counts what it stopped.
* `effect_of_takes`: the four things that a step can do to the registry and to the numbers.
* `agrees_of_chain`: after every run the numbers, the registry and the summaries agree.
-/
namespace StackKeeper

/-! ## What a tick stops -/

/-- The stack that the call ends the following of. -/
def Event.unfollowed? : Event → Option String
  | ⟨.unfollow id, _⟩ => some id
  | _ => none

/-- The stacks that the calls end the following of, in order. -/
def Log.unfollowed (log : Log) : List String := log.filterMap Event.unfollowed?

@[simp] theorem Log.unfollowed_append (log rest : Log) :
    unfollowed (log ++ rest) = unfollowed log ++ unfollowed rest :=
  List.filterMap_append

/-- A call ends the following of a stack, or it is no matter of the follower. -/
theorem Event.unfollows_or (e : Event) : (∃ id, e = ⟨.unfollow id, ()⟩) ∨
    Log.unfollowed [e] = [] ∧ ∀ w : Watch, w.after e = w := by
  obtain ⟨c, answer⟩ := e
  cases c with
  | unfollow id => exact .inl ⟨id, rfl⟩
  | getResource _ | updateResource _ | updateStatus _ | listResources | getStack _ | getMembers _
  | createStack _ _ | updateStack _ | deleteStack _ | submit _ => exact .inr ⟨rfl, fun _ => rfl⟩

namespace Follow

variable {secs : Nat} {id : String} {l : Locator} {log : Log} {entries : List (String × Locator)}
  {sum total : TickSummary}

theorem unfollowed_refreshLog {r : Resource} {s : RemoteStack} {x : Except Error (Resource × Bool)}
    (h : Refresh.RefreshLog r s log x) : log.unfollowed = [] := by
  cases h <;> rfl

theorem unfollowed_seen (r : Resource) (s : RemoteStack) :
    Log.unfollowed (⟨.getResource l, .ok r⟩ :: ⟨.getStack id, .ok s⟩ :: log) = log.unfollowed := rfl

/-- A look ends the following of its own stack at most, and it counts as stopped exactly if it does. -/
theorem stopped_of_lookLog {x : Except Error EntryOutcome} (h : LookLog id l log x)
    (sum : TickSummary) :
    log.unfollowed.Sublist [id] ∧ (sum.count x).stopped = sum.stopped + log.unfollowed.length := by
  cases h with
  | unread e he | unseen r e he => exact ⟨List.nil_sublist _, rfl⟩
  | resourceGone e he | stackGone r e he => exact ⟨List.Sublist.refl _, rfl⟩
  | unrefreshed r s e h | atWork r s ht h =>
    rw [unfollowed_seen, unfollowed_refreshLog h]
    exact ⟨List.nil_sublist _, rfl⟩
  | settled r s ht h =>
    rw [unfollowed_seen, Log.unfollowed_append, unfollowed_refreshLog h]
    exact ⟨List.Sublist.refl _, rfl⟩

/-- What a tick stops are entries of it, each of them once, and it counts them. -/
theorem stopped_of_ran (h : Program.Ran (lookAtAll secs sum entries) log total) :
    log.unfollowed.Sublist (entries.map (·.1)) ∧
      total.stopped = sum.stopped + log.unfollowed.length := by
  induction entries generalizing sum log with
  | nil =>
    obtain ⟨rfl, rfl⟩ := h
    exact ⟨List.nil_sublist _, rfl⟩
  | cons entry entries ih =>
    obtain ⟨id, l⟩ := entry
    obtain ⟨x, first, rest, hfirst, hrest, rfl⟩ := ran_lookAtAll_cons.mp h
    obtain ⟨hone, hcount⟩ := stopped_of_lookLog hfirst sum
    obtain ⟨hsub, htotal⟩ := ih hrest
    rw [Log.unfollowed_append, List.length_append]
    exact ⟨hone.append hsub, by omega⟩

/-- A tick over different stacks stops one that it has not stopped yet. -/
theorem fresh_of_begins (h : (tick secs entries).Begins (log ++ [⟨.unfollow id, ()⟩]))
    (hn : (entries.map (·.1)).Nodup) : id ∈ entries.map (·.1) ∧ id ∉ log.unfollowed := by
  obtain ⟨rest, total, h⟩ := h
  have hsub := (stopped_of_ran h).1
  simp only [Log.unfollowed_append] at hsub
  change (log.unfollowed ++ [id] ++ rest.unfollowed).Sublist _ at hsub
  refine ⟨hsub.subset (by simp), fun hid => ?_⟩
  have hnodup := (List.sublist_append_left _ _).trans hsub |>.nodup hn
  exact (List.nodup_append.mp hnodup).2.2 id hid id (List.mem_singleton.mpr rfl) rfl

end Follow

/-! ## What the follower keeps -/

namespace Watch

variable {w : Watch} {q : FollowRequest} {id : String} {l : Locator}

theorem accept_of_refused (h : w.accepts q = false) : w.accept q = w := by
  rw [accept, if_neg (by simp [h])]

theorem accept_of_accepts (h : w.accepts q = true) : w.accept q =
    ⟨w.registry.insertNew q.stackId q.resource,
      ⟨w.metrics.following + 1, w.metrics.followedTotal + 1⟩⟩ := by
  rw [accept, if_pos h]
  rfl

theorem stop_of_follows (h : w.Follows id) : w.stop id =
    ⟨w.registry.erase id, { w.metrics with following := w.metrics.following - 1 }⟩ := by
  have hcontains : w.registry.contains id = true := h
  rw [stop, if_pos hcontains]
  rfl

theorem Follows.accept (h : w.Follows id) (q : FollowRequest) : (w.accept q).Follows id := by
  by_cases hq : q.stackId = ""
  · rwa [accept_of_no_id hq]
  · exact (follows_accept_iff hq).mpr (.inl h)

theorem Follows.after {e : Event} (h : w.Follows id) (hid : id ∉ Log.unfollowed [e]) :
    (w.after e).Follows id := by
  obtain ⟨id', rfl⟩ | ⟨-, hkeeps⟩ := e.unfollows_or
  · exact follows_stop_iff.mpr ⟨fun heq => hid (List.mem_singleton.mpr heq), h⟩
  · rwa [hkeeps]

theorem accepts_iff : w.accepts q = true ↔ q.stackId ≠ "" ∧ q.stackId ∉ w.registry.ids := by
  rw [accepts, Registry.mem_ids]
  simp

/-- No stack is registered twice, all of them have an id, and the gauge says how many they are. -/
structure IsSound (w : Watch) : Prop where
  nodup : w.registry.ids.Nodup
  named : "" ∉ w.registry.ids
  gauge : w.metrics.following = Int64.ofNat w.registry.size

theorem isSound_empty : empty.IsSound := ⟨List.nodup_nil, List.not_mem_nil, rfl⟩

theorem IsSound.accept (hw : w.IsSound) (h : w.accepts q = true) :
    (w.accept q).IsSound ∧ (w.accept q).registry.size = w.registry.size + 1 := by
  obtain ⟨hname, hfresh⟩ := accepts_iff.mp h
  have hids : (w.accept q).registry.ids = w.registry.ids ++ [q.stackId] := by
    rw [accept_of_accepts h]
    exact Registry.ids_insertNew (by simpa [Registry.mem_ids] using hfresh) _
  have hsize : (w.accept q).registry.size = w.registry.size + 1 := by
    rw [← Registry.length_ids, hids, List.length_append, Registry.length_ids]
    rfl
  refine ⟨⟨?_, ?_, ?_⟩, hsize⟩
  · rw [hids, List.nodup_append]
    refine ⟨hw.nodup, List.pairwise_singleton _ _, ?_⟩
    rintro id hid _ hnew rfl
    exact hfresh (List.mem_singleton.mp hnew ▸ hid)
  · rw [hids, List.mem_append, List.mem_singleton]
    exact not_or.mpr ⟨hw.named, hname.symm⟩
  · rw [hsize, Int64.ofNat_add, ← hw.gauge, accept_of_accepts h]
    rfl

theorem IsSound.stop (hw : w.IsSound) (h : w.Follows id) :
    (w.stop id).IsSound ∧ (w.stop id).registry.size + 1 = w.registry.size := by
  have hids : (w.stop id).registry.ids = w.registry.ids.erase id := by
    rw [stop_of_follows h, hw.nodup.erase_eq_filter]
    exact Registry.ids_erase _ _
  have hsize : (w.stop id).registry.size + 1 = w.registry.size := by
    have hmem : id ∈ w.registry.ids := Registry.mem_ids.mpr h
    rw [← Registry.length_ids, ← Registry.length_ids, hids, List.length_erase_of_mem hmem]
    exact Nat.sub_add_cancel (List.length_pos_of_mem hmem)
  refine ⟨⟨?_, ?_, ?_⟩, hsize⟩
  · exact hids ▸ hw.nodup.erase id
  · exact fun hmem => hw.named (List.mem_of_mem_erase (hids ▸ hmem))
  · have hgauge : (w.stop id).metrics.following = w.metrics.following - 1 := by
      rw [stop_of_follows h]
    rw [hgauge, hw.gauge, ← hsize, Int64.ofNat_add]
    exact Int64.add_sub_cancel _ _

end Watch

/-! ## Admissions and ticks -/

/-- The follower, with the tick that is under way. -/
structure Following where
  watch : Watch
  tick : Option TickAtWork

namespace Following
open Follow

def start : Following := ⟨.empty, none⟩

inductive Act where
  /-- A request is admitted or refused, as the answer says. -/
  | admits (q : FollowRequest) (answer : Bool)
  | tickBegins (secs : Nat) (entries : List (String × Locator))
  | calls (e : Event)
  | tickEnds (total : TickSummary)

/-- The stack is followed no longer. -/
def Act.stops (id : String) : Act := .calls ⟨.unfollow id, ()⟩

/-- A request is admitted. -/
def Act.isAdmission : Act → Bool
  | .admits _ answer => answer
  | _ => false

def Act.log : Act → Log
  | .calls e => [e]
  | _ => []

/-- The summary of the tick that ends. -/
def Act.summary? : Act → Option TickSummary
  | .tickEnds total => some total
  | _ => none

/-- What one thing that happens makes of the follower. A tick goes through the entries that are
registered when it begins, in some order. -/
inductive Takes : Following → Act → Following → Prop
  | admits (w : Watch) (tick : Option TickAtWork) (q : FollowRequest) :
    Takes ⟨w, tick⟩ (.admits q (w.accepts q)) ⟨w.accept q, tick⟩
  | tickBegins (w : Watch) (secs : Nat) {entries : List (String × Locator)}
    (h : entries.Perm w.registry.entries) :
    Takes ⟨w, none⟩ (.tickBegins secs entries) ⟨w, some ⟨secs, entries, []⟩⟩
  | calls (w : Watch) {t : TickAtWork} {e : Event}
    (h : (Follow.tick t.secs t.entries).Begins (t.log ++ [e])) :
    Takes ⟨w, some t⟩ (.calls e) ⟨w.after e, some { t with log := t.log ++ [e] }⟩
  | tickEnds (w : Watch) {t : TickAtWork} {total : TickSummary}
    (h : Program.Ran (Follow.tick t.secs t.entries) t.log total) :
    Takes ⟨w, some t⟩ (.tickEnds total) ⟨w, none⟩

def admissions (run : List Act) : Nat := run.countP Act.isAdmission

def summaries (run : List Act) : List TickSummary := run.filterMap Act.summary?

/-- How many stacks all ticks have stopped, as their summaries say. -/
def stopped (run : List Act) : Nat := (summaries run).foldl (fun n total => n + total.stopped) 0

/-- How many stacks the tick under way has stopped so far. -/
def stopping (x : Following) : Nat := (x.tick.map fun t => t.log.unfollowed.length).getD 0

/-- The stack was registered for the resource, and its following has not ended since. -/
def Registers (run : List Act) (id : String) (l : Locator) : Prop :=
  ∃ earlier q later, run = earlier ++ .admits q true :: later ∧ q.stackId = id ∧ q.resource = l ∧
    .stops id ∉ later

variable {x y : Following} {a : Act} {run : List Act} {id : String} {l : Locator}

/-! ### One step -/

/-- The tick under way goes through different stacks, and what it has not stopped yet is followed. -/
def Covers (x : Following) : Prop :=
  ∀ t, x.tick = some t → (t.entries.map (·.1)).Nodup ∧
    ∀ id ∈ t.entries.map (·.1), id ∉ t.log.unfollowed → x.watch.Follows id

/-- What a step does to the registry and to the numbers. -/
inductive Effect (w : Watch) : Act → Watch → Prop
  | registers (q : FollowRequest) (h : w.accepts q = true) : Effect w (.admits q true) (w.accept q)
  | refuses (q : FollowRequest) : Effect w (.admits q false) w
  | stops (id : String) (h : w.Follows id) : Effect w (.stops id) (w.stop id)
  | leaves {a : Act} (ha : a.isAdmission = false) (hs : a.log.unfollowed = []) : Effect w a w

theorem effect_of_takes (hc : x.Covers) (h : Takes x a y) : Effect x.watch a y.watch := by
  cases h with
  | admits w tick q =>
    cases hq : w.accepts q with
    | true => exact .registers q hq
    | false => exact (Watch.accept_of_refused hq).symm ▸ .refuses q
  | @calls w t e h =>
    obtain ⟨id, rfl⟩ | ⟨hnone, hkeeps⟩ := e.unfollows_or
    · obtain ⟨hnodup, hfollows⟩ := hc t rfl
      obtain ⟨hmem, hfresh⟩ := fresh_of_begins h hnodup
      exact .stops id (hfollows id hmem hfresh)
    · rw [hkeeps]
      exact .leaves rfl hnone
  | tickBegins w secs h | tickEnds w h => exact .leaves rfl rfl

theorem covers_of_takes (hw : x.watch.IsSound) (hc : x.Covers) (h : Takes x a y) : y.Covers := by
  cases h with
  | admits w tick q =>
    intro t ht
    obtain ⟨hnodup, hfollows⟩ := hc t ht
    exact ⟨hnodup, fun id hid hfresh => (hfollows id hid hfresh).accept q⟩
  | @tickBegins w secs entries h =>
    rintro _ ⟨⟩
    have hids : (entries.map (·.1)).Perm w.registry.ids := h.map _
    exact ⟨hids.nodup_iff.mpr hw.nodup, fun id hid _ => Registry.mem_ids.mp (hids.mem_iff.mp hid)⟩
  | calls w h =>
    rintro _ ⟨⟩
    obtain ⟨hnodup, hfollows⟩ := hc _ rfl
    refine ⟨hnodup, fun id hid hfresh => ?_⟩
    rw [Log.unfollowed_append, List.mem_append, not_or] at hfresh
    exact (hfollows id hid hfresh.1).after hfresh.2
  | tickEnds w h => nofun

theorem isSound_of_effect {w w' : Watch} (hw : w.IsSound) (h : Effect w a w') : w'.IsSound := by
  cases h with
  | registers q h => exact (hw.accept h).1
  | stops id h => exact (hw.stop h).1
  | refuses q | leaves ha hs => exact hw

/-- The registry grows with an admission and shrinks with a stop. -/
theorem size_of_effect {w w' : Watch} (hw : w.IsSound) (h : Effect w a w') :
    w'.registry.size + a.log.unfollowed.length = w.registry.size + admissions [a] := by
  cases h with
  | registers q h => exact (hw.accept h).2
  | stops id h => exact (hw.stop h).2
  | refuses q => rfl
  | leaves ha hs => simp [admissions, ha, hs]

/-- The counter goes up with an admission. -/
theorem followedTotal_of_effect {w w' : Watch} (h : Effect w a w') :
    w'.metrics.followedTotal = w.metrics.followedTotal + UInt64.ofNat (admissions [a]) := by
  cases h with
  | registers q h =>
    rw [Watch.accept_of_accepts h]
    rfl
  | stops id h =>
    rw [Watch.stop_of_follows h]
    exact (UInt64.add_zero _).symm
  | refuses q => exact (UInt64.add_zero _).symm
  | leaves ha hs => simp [admissions, ha]

/-- What a tick has stopped so far goes into its summary. -/
theorem stopping_of_takes (h : Takes x a y) :
    y.stopping + stopped [a] = x.stopping + a.log.unfollowed.length := by
  cases h with
  | admits w tick q => rfl
  | tickBegins w secs h => rfl
  | @calls w t e h =>
    show (t.log ++ [e]).unfollowed.length = t.log.unfollowed.length + (Log.unfollowed [e]).length
    rw [Log.unfollowed_append, List.length_append]
  | @tickEnds w t total h =>
    have htotal : total.stopped = 0 + t.log.unfollowed.length := (stopped_of_ran h).2
    show 0 + (0 + total.stopped) = t.log.unfollowed.length
    omega

/-- An entry stays as it is unless its following ends, and the only new one is that of the request that
is admitted. -/
theorem get?_of_effect {w w' : Watch} (h : Effect w a w') :
    w'.registry.get? id = some l ↔ (w.registry.get? id = some l ∧ a ≠ .stops id) ∨
      ∃ q, a = .admits q true ∧ q.stackId = id ∧ q.resource = l := by
  cases h with
  | registers q h =>
    have hnone : w.registry.get? q.stackId = none := by
      have hnot := (Watch.accepts_iff.mp h).2
      rw [Registry.mem_ids, Registry.contains] at hnot
      simpa using hnot
    rw [Watch.accept_of_accepts h, Registry.get?_insertNew]
    by_cases hid : q.stackId = id
    · subst hid
      simp [hnone]
    · simp [hid, Ne.symm hid, Act.stops]
  | refuses q => simp [Act.stops]
  | stops id' h =>
    rw [Watch.stop_of_follows h, Registry.get?_erase]
    by_cases hid : id' = id
    · simp [hid, Act.stops]
    · simp [hid, Ne.symm hid, Act.stops]
  | leaves ha hs =>
    have hstops : a ≠ .stops id := by
      rintro rfl
      cases hs
    have hadmits : ∀ q, a ≠ .admits q true := by
      rintro q rfl
      cases ha
    simp [hstops, hadmits]

/-! ### Runs -/

theorem registers_concat : Registers (run ++ [a]) id l ↔
    (Registers run id l ∧ a ≠ .stops id) ∨
      ∃ q, a = .admits q true ∧ q.stackId = id ∧ q.resource = l := by
  constructor
  · rintro ⟨earlier, q, later, heq, rfl, rfl, hkept⟩
    rcases List.eq_nil_or_concat later with rfl | ⟨later, b, rfl⟩
    · obtain ⟨-, ha⟩ := List.append_inj' heq rfl
      exact .inr ⟨q, List.singleton_inj.mp ha, rfl, rfl⟩
    · rw [List.concat_eq_append] at heq hkept
      rw [← List.cons_append, ← List.append_assoc] at heq
      obtain ⟨rfl, hb⟩ := List.append_inj' heq rfl
      obtain rfl := List.singleton_inj.mp hb
      rw [List.mem_append, List.mem_singleton, not_or] at hkept
      exact .inl ⟨⟨earlier, q, later, rfl, rfl, rfl, hkept.1⟩, fun h => hkept.2 h.symm⟩
  · rintro (⟨⟨earlier, q, later, rfl, rfl, rfl, hkept⟩, ha⟩ | ⟨q, rfl, rfl, rfl⟩)
    · refine ⟨earlier, q, later ++ [a], by simp, rfl, rfl, ?_⟩
      simpa [hkept] using fun h => ha h.symm
    · exact ⟨run, q, [], rfl, rfl, rfl, List.not_mem_nil⟩

/-- What a run keeps: the counter counts the admissions, and each of them has led to an entry that is
still registered or that some tick has stopped. -/
structure Tallies (run : List Act) (x : Following) : Prop where
  isSound : x.watch.IsSound
  covers : x.Covers
  counter : x.watch.metrics.followedTotal = UInt64.ofNat (admissions run)
  balance : x.watch.registry.size + stopped run + x.stopping = admissions run
  registered : ∀ id l, x.watch.registry.get? id = some l ↔ Registers run id l

theorem admissions_concat : admissions (run ++ [a]) = admissions run + admissions [a] :=
  List.countP_append

theorem stopped_concat : stopped (run ++ [a]) = stopped run + stopped [a] := by
  rw [stopped, summaries, List.filterMap_append, List.foldl_append]
  cases h : a.summary? <;> simp [stopped, summaries, h]

theorem tallies_start : Tallies [] start where
  isSound := Watch.isSound_empty
  covers := nofun
  counter := rfl
  balance := rfl
  registered := fun id l => ⟨nofun, fun ⟨_, _, _, h, _⟩ => by simp at h⟩

theorem Tallies.takes (hx : Tallies run x) (h : Takes x a y) : Tallies (run ++ [a]) y := by
  have heffect := effect_of_takes hx.covers h
  refine ⟨isSound_of_effect hx.isSound heffect, covers_of_takes hx.isSound hx.covers h, ?_, ?_, ?_⟩
  · rw [followedTotal_of_effect heffect, hx.counter, admissions_concat, UInt64.ofNat_add]
  · have hsize := size_of_effect hx.isSound heffect
    have hstopping := stopping_of_takes h
    have hbalance := hx.balance
    rw [admissions_concat, stopped_concat]
    omega
  · intro id l
    rw [get?_of_effect heffect, hx.registered, registers_concat]

theorem tallies_of_chain (h : Chain Takes start run x) : Tallies run x := by
  induction run using List.reverseRecOn generalizing x with
  | nil => exact h ▸ tallies_start
  | append_singleton run a ih =>
    obtain ⟨m, hm, ht⟩ := chain_concat.mp h
    exact (ih hm).takes ht

/-- The numbers, the registry and the summaries say the same of a run. -/
structure Agrees (run : List Act) (x : Following) : Prop where
  gauge : x.watch.metrics.following.toInt = x.watch.registry.size
  counter : x.watch.metrics.followedTotal.toNat = admissions run
  difference : x.watch.metrics.followedTotal.toNat - x.watch.metrics.following.toInt =
    ((stopped run + x.stopping : Nat) : Int)
  nodup : x.watch.registry.ids.Nodup
  named : "" ∉ x.watch.registry.ids
  registered : ∀ id l, x.watch.registry.get? id = some l ↔ Registers run id l

theorem Tallies.agrees (hx : Tallies run x) (hfew : admissions run < 2 ^ 63) : Agrees run x := by
  have hbalance := hx.balance
  have hgauge : x.watch.metrics.following.toInt = x.watch.registry.size := by
    rw [hx.isSound.gauge, Int64.toInt_ofNat_of_lt (by omega)]
  have hcounter : x.watch.metrics.followedTotal.toNat = admissions run := by
    rw [hx.counter, UInt64.toNat_ofNat_of_lt' (by simp only [UInt64.size]; omega)]
  refine ⟨hgauge, hcounter, ?_, hx.isSound.nodup, hx.isSound.named, hx.registered⟩
  rw [hgauge, hcounter]
  omega

/-- After every run the gauge is the number of registered stacks, the counter that of the admitted
requests, and their difference is what the ticks have stopped. No stack is registered twice or without
an id, and each is registered for the resource of the request that was admitted for it, until its
following ends. A request is admitted exactly if it has an id that is not registered, and the counter
never goes down. -/
theorem agrees_of_chain (h : Chain Takes start run x) (hfew : admissions run < 2 ^ 63) :
    Agrees run x ∧
      (∀ q answer y, Takes x (.admits q answer) y →
        (answer = true ↔ q.stackId ≠ "" ∧ q.stackId ∉ x.watch.registry.ids)) ∧
      ∀ earlier later m, run = earlier ++ later → Chain Takes start earlier m →
        m.watch.metrics.followedTotal ≤ x.watch.metrics.followedTotal := by
  have hagrees := (tallies_of_chain h).agrees hfew
  refine ⟨hagrees, ?_, ?_⟩
  · rintro q _ y ⟨⟩
    exact Watch.accepts_iff
  · rintro earlier later m rfl hm
    have hle : admissions earlier ≤ admissions (earlier ++ later) := by simp [admissions]
    have hm := (tallies_of_chain hm).agrees (Nat.lt_of_le_of_lt hle hfew)
    rw [UInt64.le_iff_toNat_le, hm.counter, hagrees.counter]
    exact hle

/-! ### A stack that is followed to its end -/

theorem chain_calls {w : Watch} {t : TickAtWork} {log : Log}
    (hb : (Follow.tick t.secs t.entries).Begins (t.log ++ log)) :
    Chain Takes ⟨w, some t⟩ (log.map .calls)
      ⟨log.foldl Watch.after w, some { t with log := t.log ++ log }⟩ := by
  induction log generalizing w t with
  | nil => simp
  | cons e log ih =>
    rw [← List.singleton_append, ← List.append_assoc] at hb ⊢
    obtain ⟨rest, total, hran⟩ := hb
    have hfirst : (Follow.tick t.secs t.entries).Begins (t.log ++ [e]) :=
      ⟨log ++ rest, total, by rwa [← List.append_assoc]⟩
    exact ⟨_, .calls w hfirst, ih (t := { t with log := t.log ++ [e] }) ⟨rest, total, hran⟩⟩

/-- A tick that makes all its calls in a row. -/
def tickOf (secs : Nat) (entries : List (String × Locator)) (log : Log) (total : TickSummary) :
    List Act :=
  .tickBegins secs entries :: (log.map .calls ++ [.tickEnds total])

theorem chain_tickOf {w : Watch} {secs : Nat} {entries : List (String × Locator)} {log : Log}
    {total : TickSummary} (hp : entries.Perm w.registry.entries)
    (hran : Program.Ran (Follow.tick secs entries) log total) :
    Chain Takes ⟨w, none⟩ (tickOf secs entries log total) ⟨log.foldl Watch.after w, none⟩ :=
  ⟨_, .tickBegins w secs hp, chain_append.mpr
    ⟨_, chain_calls (t := ⟨secs, entries, []⟩) (Program.begins_of_ran hran),
      _, .tickEnds _ hran, rfl⟩⟩

/-- A request is admitted, and it is refused when it comes again or without an id. Then a tick finds
the stack at rest. -/
def finishedRun : List Act :=
  [.admits Relay.heldRequest true, .admits Relay.heldRequest false,
    .admits { Relay.heldRequest with stackId := "" } false] ++
  tickOf 30 [("s1", Store.webLocator)] Store.watchingLog ⟨1, 1, 0⟩

theorem chain_finishedRun :
    Chain Takes start finishedRun ⟨(Watch.empty.accept Relay.heldRequest).stop "s1", none⟩ :=
  chain_append.mpr ⟨⟨Watch.empty.accept Relay.heldRequest, none⟩,
    ⟨_, .admits .empty none _, _, .admits _ none _, _, .admits _ none _, rfl⟩,
    chain_tickOf (.refl _) Relay.ran_watchingTick⟩

theorem agrees_of_finishedRun :
    Chain Takes start finishedRun ⟨(Watch.empty.accept Relay.heldRequest).stop "s1", none⟩ ∧
      admissions finishedRun = 1 ∧ stopped finishedRun = 1 ∧
      Agrees finishedRun ⟨(Watch.empty.accept Relay.heldRequest).stop "s1", none⟩ ∧
      (∀ q answer y, Takes ⟨(Watch.empty.accept Relay.heldRequest).stop "s1", none⟩
        (.admits q answer) y → (answer = true ↔ q.stackId ≠ "" ∧
          q.stackId ∉ ((Watch.empty.accept Relay.heldRequest).stop "s1").registry.ids)) ∧
      ∀ earlier later m, finishedRun = earlier ++ later → Chain Takes start earlier m →
        m.watch.metrics.followedTotal ≤
          ((Watch.empty.accept Relay.heldRequest).stop "s1").metrics.followedTotal :=
  ⟨chain_finishedRun, rfl, rfl, agrees_of_chain chain_finishedRun (by decide)⟩

end Following
end StackKeeper
