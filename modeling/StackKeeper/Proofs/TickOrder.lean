import Mathlib.Data.List.Nodup
import StackKeeper.Proofs.FollowCount
import StackKeeper.Proofs.Party
/-!
# The order of a tick

A tick goes through the registered entries one after another, in an order that nobody chooses. Here
whoever answers its calls is told for which resource each of them is made, and answers for one
resource without regard to what is called for others. Then every entry goes as if it were the only
one: the order is of no consequence, and what fails for one entry is nothing to the others.

Results:
* `visitAll_eq`: a tick is made of looks that go as they would alone.
* `stop_comm`, `foldl_after`: the entries that are dropped can be dropped in any order.
* `drops_iff`: which entries are dropped.
* `entries_independent`: what a tick leaves, whatever its order and whatever fails.
-/
namespace StackKeeper

/-- The calls that were made for resources, in order. -/
abbrev Journal := List (Locator × Event)

/-- Whoever answers calls that are made for resources. -/
abbrev Responder := Journal → Locator → (c : Call) → c.Answer

namespace Journal

def made (h : Journal) (l : Locator) : Journal := h.filter fun e => e.1 = l

/-- The calls of a log as they are made for one resource. -/
def ofLog (l : Locator) (log : Log) : Journal := log.map fun e => (l, e)

def log (h : Journal) : Log := h.map (·.2)

theorem made_ofLog_self (l : Locator) (log : Log) : made (ofLog l log) l = ofLog l log :=
  List.filter_eq_self.mpr fun e he => by
    obtain ⟨_, -, rfl⟩ := List.mem_map.mp he
    simp

theorem made_ofLog_other {l l' : Locator} (h : l' ≠ l) (log : Log) : made (ofLog l' log) l = [] :=
  List.filter_eq_nil_iff.mpr fun e he => by
    obtain ⟨_, -, rfl⟩ := List.mem_map.mp he
    simpa using h

theorem log_ofLog (l : Locator) (log : Log) : Journal.log (ofLog l log) = log := by
  simp [Journal.log, ofLog, Function.comp_def]

end Journal

namespace Responder

variable {b b' : Responder} {h : Journal} {l : Locator}

/-- What is answered for a resource depends on what was called for it before, and on no other call. -/
def IsSeparate (b : Responder) : Prop := ∀ h l c, b h l c = b (Journal.made h l) l c

/-- The party that the calls for a resource meet after what was called so far. -/
def after (b : Responder) (h : Journal) (l : Locator) : Party :=
  fun own c => b (h ++ Journal.ofLog l own) l c

theorem IsSeparate.after_eq (hb : b.IsSeparate) (h : Journal) (l : Locator) :
    b.after h l = b.after (Journal.made h l) l := by
  funext own c
  rw [after, after, hb, hb (Journal.made h l ++ _), Journal.made, Journal.made, List.filter_append,
    List.filter_append, Journal.made, List.filter_filter]
  simp only [Bool.and_self]

theorem IsSeparate.after_of_none (hb : b.IsSeparate) (hl : ∀ e ∈ h, e.1 ≠ l) :
    b.after h l = b.after [] l := by
  have hnone : Journal.made h l = [] := List.filter_eq_nil_iff.mpr fun e he => by simpa using hl e he
  rw [hb.after_eq, hnone]

end Responder

/-! ## Stops in any order -/

theorem Registry.erase_comm (g : Registry) (id id' : String) :
    (g.erase id).erase id' = (g.erase id').erase id := by
  simp only [Registry.erase, List.filter_filter, Bool.and_comm]

theorem Registry.erase_of_not_mem {g : Registry} {id : String} (h : g.contains id = false) :
    g.erase id = g := by
  have hmem : id ∉ g.ids := fun hmem => by simp [Registry.mem_ids.mp hmem] at h
  have hall : g.entries.filter (fun e => e.1 != id) = g.entries :=
    List.filter_eq_self.mpr fun e he => by
      simpa using fun heq => hmem (List.mem_map.mpr ⟨e, he, heq⟩)
  rw [Registry.erase, hall]

namespace Watch

theorem registry_stop (w : Watch) (id : String) : (w.stop id).registry = w.registry.erase id := by
  rw [stop]
  split
  · rfl
  · rename_i h
    exact (Registry.erase_of_not_mem (by simpa using h)).symm

theorem metrics_stop (w : Watch) (id : String) : (w.stop id).metrics =
    if w.registry.contains id then w.metrics.decrement Metrics.followingName else w.metrics := by
  rw [stop]
  split <;> rfl

theorem stop_comm (w : Watch) (id id' : String) :
    (w.stop id).stop id' = (w.stop id').stop id := by
  by_cases hid : id = id'
  · rw [hid]
  have other : ∀ {a b : String}, a ≠ b →
      (w.registry.erase a).contains b = w.registry.contains b := fun h => by
    rw [Registry.contains, Registry.get?_erase, if_neg h.symm, Registry.contains]
  have hregistry : ((w.stop id).stop id').registry = ((w.stop id').stop id).registry := by
    simp only [registry_stop, Registry.erase_comm]
  have hmetrics : ((w.stop id).stop id').metrics = ((w.stop id').stop id).metrics := by
    simp only [metrics_stop, registry_stop, other hid, other (Ne.symm hid)]
    split <;> split <;> rfl
  show mk ((w.stop id).stop id').registry ((w.stop id).stop id').metrics = _
  rw [hregistry, hmetrics]

/-- What the follower keeps after the calls of a log. -/
def afterAll (w : Watch) (log : Log) : Watch := log.foldl after w

/-- Of the calls only those count that end the following of a stack. -/
theorem afterAll_eq (w : Watch) (log : Log) : w.afterAll log = log.unfollowed.foldl stop w := by
  induction log generalizing w with
  | nil => rfl
  | cons e log ih =>
    have hcons : Log.unfollowed (e :: log) = Log.unfollowed [e] ++ Log.unfollowed log :=
      Log.unfollowed_append [e] log
    rw [afterAll, List.foldl_cons, ← afterAll, ih, hcons, List.foldl_append]
    obtain ⟨id, rfl⟩ | ⟨hnone, hkeeps⟩ := e.unfollows_or
    · rfl
    · rw [hnone, hkeeps, List.foldl_nil]

theorem entries_foldl_stop (w : Watch) (ids : List String) :
    (ids.foldl stop w).registry.entries = w.registry.entries.filter fun e => e.1 ∉ ids := by
  induction ids generalizing w with
  | nil => exact (List.filter_eq_self.mpr fun e _ => by simp).symm
  | cons id ids ih =>
    rw [List.foldl_cons, ih, registry_stop, Registry.erase, List.filter_filter]
    refine List.filter_congr fun e _ => ?_
    by_cases he : e.1 = id <;> simp [he]

end Watch

namespace Follow
open Job

variable {b b' : Responder} {secs : Nat} {h : Journal} {id : String} {l : Locator}
  {entry : String × Locator} {entries entries' : List (String × Locator)} {sum : TickSummary}

/-! ## Looks that are answered -/

/-- The calls of a look at an entry, and what becomes of it. -/
def visit (b : Responder) (secs : Nat) (h : Journal) (entry : String × Locator) :
    Log × Except Error EntryOutcome :=
  (lookAt secs entry.1 entry.2).run.against (b.after h entry.2) []

/-- The calls so far and those of looks at all entries in turn, and the summary. -/
def visitAll (b : Responder) (secs : Nat) :
    Journal → TickSummary → List (String × Locator) → Journal × TickSummary
  | h, sum, [] => (h, sum)
  | h, sum, entry :: rest =>
    visitAll b secs (h ++ Journal.ofLog entry.2 (visit b secs h entry).1)
      (sum.count (visit b secs h entry).2) rest

/-- The calls of a tick over the entries, and its summary. -/
def visits (b : Responder) (secs : Nat) (entries : List (String × Locator)) :
    Journal × TickSummary :=
  visitAll b secs [] TickSummary.zero entries

theorem lookLog_visit (b : Responder) (secs : Nat) (h : Journal) (entry : String × Locator) :
    LookLog entry.1 entry.2 (visit b secs h entry).1 (visit b secs h entry).2 :=
  lookLog_of_ran (Program.ran_against _ _ _).1

theorem ran_visitAll (b : Responder) (secs : Nat) (h : Journal) (sum : TickSummary)
    (entries : List (String × Locator)) :
    ∃ rest, (visitAll b secs h sum entries).1 = h ++ rest ∧
      Program.Ran (lookAtAll secs sum entries) (Journal.log rest)
        (visitAll b secs h sum entries).2 := by
  induction entries generalizing h sum with
  | nil => exact ⟨[], (List.append_nil h).symm, rfl, rfl⟩
  | cons entry entries ih =>
    obtain ⟨rest, hrest, hran⟩ := ih (h ++ Journal.ofLog entry.2 (visit b secs h entry).1)
      (sum.count (visit b secs h entry).2)
    refine ⟨Journal.ofLog entry.2 (visit b secs h entry).1 ++ rest, ?_, ?_⟩
    · rw [visitAll, hrest, List.append_assoc]
    · refine ran_lookAtAll_cons.mpr ⟨_, _, _, lookLog_visit b secs h entry, hran, ?_⟩
      rw [Journal.log, List.map_append, ← Journal.log, ← Journal.log, Journal.log_ofLog]

/-- The calls of the visits are those of a tick. -/
theorem ran_visits (b : Responder) (secs : Nat) (entries : List (String × Locator)) :
    Program.Ran (tick secs entries) (Journal.log (visits b secs entries).1)
      (visits b secs entries).2 := by
  obtain ⟨rest, hrest, hran⟩ := ran_visitAll b secs [] TickSummary.zero entries
  rw [visits, hrest]
  exact hran

/-! ## Each as if it were the only one -/

/-- The calls of looks at all entries, each of which goes as it would alone. -/
def callsOf (b : Responder) (secs : Nat) (entries : List (String × Locator)) : Journal :=
  entries.flatMap fun entry => Journal.ofLog entry.2 (visit b secs [] entry).1

/-- What becomes of all entries when each goes as it would alone. -/
def outcomesOf (b : Responder) (secs : Nat) (entries : List (String × Locator)) :
    List (Except Error EntryOutcome) :=
  entries.map fun entry => (visit b secs [] entry).2

theorem visit_of_none (hb : b.IsSeparate) (hl : ∀ e ∈ h, e.1 ≠ entry.2) :
    visit b secs h entry = visit b secs [] entry := by
  rw [visit, hb.after_of_none hl, visit]

theorem visitAll_eq (hb : b.IsSeparate) (hn : (entries.map (·.2)).Nodup)
    (hl : ∀ e ∈ h, e.1 ∉ entries.map (·.2)) :
    visitAll b secs h sum entries =
      (h ++ callsOf b secs entries, (outcomesOf b secs entries).foldl .count sum) := by
  induction entries generalizing h sum with
  | nil => simp [visitAll, callsOf, outcomesOf]
  | cons entry entries ih =>
    obtain ⟨hfresh, hn⟩ := List.nodup_cons.mp hn
    have halone : visit b secs h entry = visit b secs [] entry :=
      visit_of_none hb fun e he heq => hl e he (heq ▸ List.mem_cons_self)
    rw [visitAll, halone, ih hn]
    · simp [callsOf, outcomesOf]
    · intro e he
      rcases List.mem_append.mp he with he | he
      · exact fun hmem => hl e he (List.mem_cons_of_mem _ hmem)
      · obtain ⟨_, -, rfl⟩ := List.mem_map.mp he
        exact hfresh

theorem visits_eq (hb : b.IsSeparate) (hn : (entries.map (·.2)).Nodup) :
    visits b secs entries =
      (callsOf b secs entries, (outcomesOf b secs entries).foldl .count .zero) := by
  rw [visits, visitAll_eq hb hn (by simp), List.nil_append]

/-! ## What becomes of an entry -/

def isDropped : Except Error EntryOutcome → Bool
  | .ok (.stopped _) => true
  | _ => false

def isFailed : Except Error EntryOutcome → Bool
  | .error _ => true
  | .ok _ => false

/-- The entry stays, with its stack at work. -/
def isUnderWay : Except Error EntryOutcome → Bool
  | .ok .inProgress => true
  | _ => false

theorem unfollowed_of_lookLog {log : Log} {x : Except Error EntryOutcome} (h : LookLog id l log x) :
    log.unfollowed = if isDropped x then [id] else [] := by
  cases h with
  | unread e he | unseen r e he | resourceGone e he | stackGone r e he => rfl
  | unrefreshed r s e h | atWork r s ht h =>
    rw [unfollowed_seen, unfollowed_refreshLog h]
    rfl
  | settled r s ht h =>
    rw [unfollowed_seen, Log.unfollowed_append, unfollowed_refreshLog h]
    rfl

theorem count_comm (sum : TickSummary) (x y : Except Error EntryOutcome) :
    (sum.count x).count y = (sum.count y).count x := by
  rcases x with e | (reason | _) <;> rcases y with e' | (reason' | _) <;> rfl

/-- A summary counts every entry, and for each what became of it. -/
theorem foldl_count (sum : TickSummary) (xs : List (Except Error EntryOutcome)) :
    xs.foldl .count sum =
      ⟨sum.processed + xs.length, sum.stopped + xs.countP isDropped,
        sum.failed + xs.countP isFailed⟩ := by
  induction xs generalizing sum with
  | nil => rfl
  | cons x xs ih =>
    rw [List.foldl_cons, ih, TickSummary.mk.injEq]
    rcases x with e | (reason | _) <;>
      simp [TickSummary.count, List.countP_cons, isDropped, isFailed] <;> omega

theorem length_eq_countP (xs : List (Except Error EntryOutcome)) :
    xs.length = xs.countP isDropped + xs.countP isFailed + xs.countP isUnderWay := by
  induction xs with
  | nil => rfl
  | cons x xs ih =>
    rcases x with e | (reason | _) <;>
      simp [List.countP_cons, isDropped, isFailed, isUnderWay] <;> omega

/-- What the answers for an entry say when it is dropped: its resource is gone, or its stack is, or both
are there, the stack is at rest, and refreshing the status succeeds. -/
inductive Drops (b : Party) (secs : Nat) (id : String) (l : Locator) : Prop
  | resourceGone (e : Error) (he : e.isNotFound = true) (h : b [] (.getResource l) = .error e)
  | stackGone (r : Resource) (e : Error) (he : e.isStackNotFound = true)
    (hr : b [] (.getResource l) = .ok r)
    (hs : b [⟨.getResource l, .ok r⟩] (.getStack id) = .error e)
  | terminal (r : Resource) (s : RemoteStack) (x : Resource × Bool)
    (hr : b [] (.getResource l) = .ok r)
    (hs : b [⟨.getResource l, .ok r⟩] (.getStack id) = .ok s)
    (ht : Lifecycle.isTerminal s.status = true)
    (hm : ((Refresh.refresh (some ⟨"update stack status", secs⟩) r (some s)).run.against b
      [⟨.getResource l, .ok r⟩, ⟨.getStack id, .ok s⟩]).2 = .ok x)

theorem drops_iff (b : Party) (secs : Nat) (id : String) (l : Locator) :
    isDropped ((lookAt secs id l).run.against b []).2 = true ↔ Drops b secs id l := by
  constructor
  · obtain ⟨hran, hgives⟩ := Program.ran_against (lookAt secs id l).run b []
    intro hdrop
    generalize (lookAt secs id l).run.against b [] = x at hran hgives hdrop
    obtain ⟨log, result⟩ := x
    cases lookLog_of_ran hran with
    | unread e he | unseen r e he | unrefreshed r s e h | atWork r s ht h => cases hdrop
    | resourceGone e he => exact .resourceGone e he hgives.1.symm
    | stackGone r e he => exact .stackGone r e he hgives.1.symm hgives.2.1.symm
    | @settled r s ht x log h =>
      obtain ⟨hr, hs, hrest⟩ := hgives
      exact .terminal r s x hr.symm hs.symm ht
        (congrArg Prod.snd (Program.against_of_ran h.ran (Party.gives_append.mp hrest).1))
  · intro h
    have of_log : ∀ {log : Log} {x : Except Error EntryOutcome}, LookLog id l log x →
        b.Gives [] log → isDropped x = true →
        isDropped ((lookAt secs id l).run.against b []).2 = true := by
      intro log x hlog hgives hx
      rw [Program.against_of_ran hlog.ran hgives]
      exact hx
    cases h with
    | resourceGone e he h => exact of_log (.resourceGone e he) ⟨h.symm, rfl, trivial⟩ rfl
    | stackGone r e he hr hs =>
      exact of_log (.stackGone r e he) ⟨hr.symm, hs.symm, rfl, trivial⟩ rfl
    | terminal r s x hr hs ht hm =>
      obtain ⟨hran, hgives⟩ := Program.ran_against
        (Refresh.refresh (some ⟨"update stack status", secs⟩) r (some s)).run b
        [⟨.getResource l, .ok r⟩, ⟨.getStack id, .ok s⟩]
      rw [hm] at hran
      exact of_log (.settled r s ht (Refresh.refreshLog_of_ran hran))
        ⟨hr.symm, hs.symm, Party.gives_append.mpr ⟨hgives, rfl, trivial⟩⟩ rfl

/-! ## What a tick leaves -/

/-- Whether an entry is dropped when it goes as it would alone. -/
def dropped (b : Responder) (secs : Nat) (entry : String × Locator) : Bool :=
  isDropped (visit b secs [] entry).2

theorem unfollowed_callsOf (b : Responder) (secs : Nat) (entries : List (String × Locator)) :
    (Journal.log (callsOf b secs entries)).unfollowed =
      (entries.filter (dropped b secs)).map (·.1) := by
  induction entries with
  | nil => rfl
  | cons entry entries ih =>
    have hcons : Journal.log (callsOf b secs (entry :: entries)) =
        (visit b secs [] entry).1 ++ Journal.log (callsOf b secs entries) := by
      rw [callsOf, List.flatMap_cons, Journal.log, List.map_append, ← Journal.log, ← Journal.log,
        Journal.log_ofLog, callsOf]
    rw [hcons, Log.unfollowed_append, ih, unfollowed_of_lookLog (lookLog_visit b secs [] entry),
      List.filter_cons, dropped]
    split <;> simp

theorem made_callsOf (b : Responder) (secs : Nat) (entries : List (String × Locator))
    (l : Locator) : Journal.made (callsOf b secs entries) l =
      callsOf b secs (entries.filter fun entry => entry.2 = l) := by
  induction entries with
  | nil => rfl
  | cons entry entries ih =>
    rw [callsOf, List.flatMap_cons, Journal.made, List.filter_append, ← Journal.made,
      ← Journal.made, ← callsOf, ih, List.filter_cons]
    by_cases hl : entry.2 = l
    · subst hl
      rw [Journal.made_ofLog_self]
      simp [callsOf]
    · rw [Journal.made_ofLog_other hl]
      simp [hl]

/-- Of different resources a list has at most one entry each, wherever it stands. -/
theorem filter_eq_of_perm (hp : entries'.Perm entries) (hn : (entries.map (·.2)).Nodup)
    (l : Locator) : (entries'.filter fun entry => entry.2 = l) =
      entries.filter fun entry => entry.2 = l := by
  have hperm := hp.filter fun entry => entry.2 = l
  have hnodup : ((entries.filter fun entry => entry.2 = l).map (·.2)).Nodup :=
    (List.filter_sublist.map _).nodup hn
  have hall : ∀ entry ∈ entries.filter (fun entry => entry.2 = l), entry.2 = l := fun entry he => by
    simpa using (List.mem_filter.mp he).2
  rcases hf : entries.filter fun entry => entry.2 = l with _ | ⟨a, _ | ⟨a', rest⟩⟩
  · rw [hf] at hperm ⊢
    exact hperm.eq_nil
  · rw [hf] at hperm ⊢
    exact List.perm_singleton.mp hperm
  · rw [hf] at hnodup hall
    have ha : a.2 = a'.2 := (hall a (by simp)).trans (hall a' (by simp)).symm
    simp [ha] at hnodup

theorem registry_callsOf {w : Watch} (hp : entries.Perm w.registry.entries)
    (hids : w.registry.ids.Nodup) :
    (w.afterAll (Journal.log (callsOf b secs entries))).registry.entries =
      w.registry.entries.filter fun entry => !dropped b secs entry := by
  rw [Watch.afterAll_eq, unfollowed_callsOf, Watch.entries_foldl_stop]
  refine List.filter_congr fun entry he => ?_
  have hmem : entry.1 ∈ (entries.filter (dropped b secs)).map (·.1) ↔ dropped b secs entry = true := by
    constructor
    · intro h
      obtain ⟨other, hother, hid⟩ := List.mem_map.mp h
      obtain ⟨hin, hdropped⟩ := List.mem_filter.mp hother
      rwa [← List.inj_on_of_nodup_map hids (hp.mem_iff.mp hin) he hid]
    · exact fun h => List.mem_map.mpr ⟨entry, List.mem_filter.mpr ⟨hp.mem_iff.mpr he, h⟩, rfl⟩
  cases hd : dropped b secs entry <;> simp [hmem, hd]

/-- For resources that are answered alike, the looks go alike. -/
theorem visit_congr (h : ∀ own c, b'.after [] entry.2 own c = b.after [] entry.2 own c) :
    visit b' secs [] entry = visit b secs [] entry := by
  have hafter : b'.after [] entry.2 = b.after [] entry.2 := funext fun own => funext fun c => h own c
  rw [visit, hafter, visit]

theorem callsOf_congr
    (h : ∀ entry ∈ entries, visit b' secs [] entry = visit b secs [] entry) :
    callsOf b' secs entries = callsOf b secs entries := by
  rw [callsOf, callsOf]
  exact List.flatMap_congr fun entry he => by rw [h entry he]

theorem nodup_of_perm {w : Watch} (hp : entries.Perm w.registry.entries)
    (hl : (w.registry.entries.map (·.2)).Nodup) : (entries.map (·.2)).Nodup :=
  (hp.map _).nodup_iff.mpr hl

/-- Whatever the order, the summary, the follower and what is answered afterwards are the same. -/
theorem visits_of_perm {w : Watch} (hp : entries.Perm w.registry.entries)
    (hp' : entries'.Perm w.registry.entries) (hl : (w.registry.entries.map (·.2)).Nodup)
    (hb : b.IsSeparate) : (visits b secs entries').2 = (visits b secs entries).2 ∧
      w.afterAll (Journal.log (visits b secs entries').1) =
        w.afterAll (Journal.log (visits b secs entries).1) ∧
      ∀ l c, b (visits b secs entries').1 l c = b (visits b secs entries).1 l c := by
  have hperm : entries'.Perm entries := hp'.trans hp.symm
  rw [visits_eq hb (nodup_of_perm hp hl), visits_eq hb (nodup_of_perm hp' hl)]
  refine ⟨?_, ?_, fun l c => ?_⟩
  · exact (hperm.map _).foldl_eq' (fun x _ y _ sum => count_comm sum x y) _
  · rw [Watch.afterAll_eq, Watch.afterAll_eq, unfollowed_callsOf, unfollowed_callsOf]
    exact ((hperm.filter _).map _).foldl_eq' (fun id _ id' _ w => Watch.stop_comm w id id') _
  · rw [hb, hb (callsOf b secs entries), made_callsOf, made_callsOf,
      filter_eq_of_perm hperm (nodup_of_perm hp hl)]

/-- What is answered for one resource is nothing to the entries of others. -/
theorem visits_of_other {w : Watch} (hp : entries.Perm w.registry.entries)
    (hids : w.registry.ids.Nodup) (hl : (w.registry.entries.map (·.2)).Nodup)
    (hb : b.IsSeparate) (hb' : b'.IsSeparate) (hsame : ∀ h l' c, l' ≠ l → b' h l' c = b h l' c)
    (hne : entry.2 ≠ l) :
    Journal.made (visits b' secs entries).1 entry.2 =
        Journal.made (visits b secs entries).1 entry.2 ∧
      (entry ∈ (w.afterAll (Journal.log (visits b' secs entries).1)).registry.entries ↔
        entry ∈ (w.afterAll (Journal.log (visits b secs entries).1)).registry.entries) ∧
      ∀ c, b' (visits b' secs entries).1 entry.2 c = b (visits b secs entries).1 entry.2 c := by
  have alike : ∀ other : String × Locator, other.2 = entry.2 →
      visit b' secs [] other = visit b secs [] other := fun other hother =>
    visit_congr fun own c => hsame _ _ _ (hother ▸ hne)
  rw [visits_eq hb (nodup_of_perm hp hl), visits_eq hb' (nodup_of_perm hp hl)]
  have hmade : Journal.made (callsOf b' secs entries) entry.2 =
      Journal.made (callsOf b secs entries) entry.2 := by
    rw [made_callsOf, made_callsOf]
    exact callsOf_congr fun other hother => alike other (by simpa using (List.mem_filter.mp hother).2)
  refine ⟨hmade, ?_, fun c => ?_⟩
  · rw [registry_callsOf hp hids, registry_callsOf hp hids, List.mem_filter, List.mem_filter, dropped,
      dropped, alike entry rfl]
  · rw [hb', hmade, hsame _ _ _ hne, ← hb]

/-- With entries of different resources and answers for one resource that have no regard to what is
called for others, the order of a tick is of no consequence, and what is answered for one resource
is nothing to the other entries. The entries that are dropped are those that `Drops` describes; all
others stay, and the summary counts them all. -/
theorem entries_independent {w : Watch} (hp : entries.Perm w.registry.entries)
    (hids : w.registry.ids.Nodup) (hl : (w.registry.entries.map (·.2)).Nodup)
    (hb : b.IsSeparate) :
    Program.Ran (tick secs entries) (Journal.log (visits b secs entries).1)
      (visits b secs entries).2 ∧
    (∀ entries', entries'.Perm w.registry.entries →
      (visits b secs entries').2 = (visits b secs entries).2 ∧
      w.afterAll (Journal.log (visits b secs entries').1) =
        w.afterAll (Journal.log (visits b secs entries).1) ∧
      ∀ l c, b (visits b secs entries').1 l c = b (visits b secs entries).1 l c) ∧
    (∀ l b', b'.IsSeparate → (∀ h l' c, l' ≠ l → b' h l' c = b h l' c) →
      ∀ entry ∈ entries, entry.2 ≠ l →
        Journal.made (visits b' secs entries).1 entry.2 =
          Journal.made (visits b secs entries).1 entry.2 ∧
        (entry ∈ (w.afterAll (Journal.log (visits b' secs entries).1)).registry.entries ↔
          entry ∈ (w.afterAll (Journal.log (visits b secs entries).1)).registry.entries) ∧
        ∀ c, b' (visits b' secs entries).1 entry.2 c = b (visits b secs entries).1 entry.2 c) ∧
    (∀ entry ∈ entries,
      entry ∉ (w.afterAll (Journal.log (visits b secs entries).1)).registry.entries ↔
        Drops (b.after [] entry.2) secs entry.1 entry.2) ∧
    (visits b secs entries).2 = ⟨w.registry.size, (outcomesOf b secs entries).countP isDropped,
      (outcomesOf b secs entries).countP isFailed⟩ ∧
    w.registry.size = (outcomesOf b secs entries).countP isDropped +
      (outcomesOf b secs entries).countP isFailed +
      (outcomesOf b secs entries).countP isUnderWay := by
  have heq : visits b secs entries = _ := visits_eq hb (nodup_of_perm hp hl)
  refine ⟨ran_visits b secs entries, fun entries' hp' => visits_of_perm hp hp' hl hb,
    fun l b' hb' hsame entry _ hne => visits_of_other hp hids hl hb hb' hsame hne,
    fun entry he => ?_, ?_, ?_⟩
  · rw [heq, registry_callsOf hp hids, List.mem_filter, ← drops_iff]
    simp [hp.mem_iff.mp he, dropped, visit]
  · rw [heq, foldl_count]
    simp [TickSummary.zero, outcomesOf, hp.length_eq, Registry.size]
  · rw [← length_eq_countP, outcomesOf, List.length_map, hp.length_eq, Registry.size]

end Follow

/-! ### A store with one document -/

/-- The store after the status updates among the calls. -/
def Store.recorded (s : Store) (h : Journal) : Store :=
  h.foldl (fun s e =>
    match e.2 with
    | ⟨.updateStatus r, _⟩ => (s.updateStatus r).2
    | _ => s) s

theorem Store.recorded_of_unwritten (s : Store) {l : Locator} {own : Log}
    (h : ∀ e ∈ own, e.1.isStoreWrite = false) : s.recorded (Journal.ofLog l own) = s := by
  induction own with
  | nil => rfl
  | cons e own ih =>
    obtain ⟨he, hrest⟩ := List.forall_mem_cons.mp h
    obtain ⟨c, answer⟩ := e
    cases c with
    | updateStatus r => cases he
    | _ => exact ih hrest

namespace Responder

/-- A store as it looks to each resource, with the updates that were made for it, and an API that does
not change. -/
def ofStore (s : Store) (look : String → Except Error RemoteStack)
    (members : String → Except Error (List Member)) : Responder := fun h l c =>
  match c with
  | .getResource l' => (s.recorded (Journal.made h l)).get l'
  | .updateStatus r => ((s.recorded (Journal.made h l)).updateStatus r).1
  | .getStack id => look id
  | .getMembers id => members id
  | c => c.failed (.internal "no call of a tick")

theorem isSeparate_ofStore (s : Store) (look : String → Except Error RemoteStack)
    (members : String → Except Error (List Member)) : (ofStore s look members).IsSeparate := by
  intro h l c
  have hmade : Journal.made (Journal.made h l) l = Journal.made h l := by
    simp only [Journal.made, List.filter_filter, Bool.and_self]
  cases c <;> simp only [ofStore, hmade]

/-- Before it is written, a resource meets the store as it was. -/
theorem after_ofStore {s : Store} {look : String → Except Error RemoteStack}
    {members : String → Except Error (List Member)} {l : Locator} {own : Log}
    (h : ∀ e ∈ own, e.1.isStoreWrite = false) :
    (ofStore s look members).after [] l own (.getResource l) = s.get l ∧
      ∀ r, (ofStore s look members).after [] l own (.updateStatus r) = (s.updateStatus r).1 := by
  have hsame : s.recorded (Journal.made (Journal.ofLog l own) l) = s := by
    rw [Journal.made_ofLog_self, Store.recorded_of_unwritten s h]
  constructor
  · show (s.recorded (Journal.made (Journal.ofLog l own) l)).get l = _
    rw [hsame]
  · intro r
    show ((s.recorded (Journal.made (Journal.ofLog l own) l)).updateStatus r).1 = _
    rw [hsame]

/-- A store with one document, and an API with the stack of its resource at rest. -/
def ofWebStore : Responder :=
  ofStore (Store.webStore (Document.text Pass.heldResource))
    (fun id => if id = "s1" then .ok Store.restingStack else .error (.stackNotFound id))
    fun _ => .ok []

end Responder

namespace Follow

/-- A stack that is at rest, and one whose resource is gone. -/
def restingEntries : List (String × Locator) :=
  [("s1", Store.webLocator), ("s2", ⟨"default", "api"⟩)]

theorem drops_ofWebStore :
    Drops (Responder.ofWebStore.after [] Store.webLocator) 30 "s1" Store.webLocator := by
  have hwrite : (Store.webStore (Document.text Pass.heldResource)).updateStatus
      (Refresh.merged Pass.heldResource Store.restingStack []) = _ :=
    Store.updateStatus_webStore (by decide) rfl rfl
  have hlog := Refresh.RefreshLog.written (r := Pass.heldResource) (s := Store.restingStack) []
    (by decide)
  have hread : Responder.ofWebStore.after [] Store.webLocator [] (.getResource Store.webLocator) =
      .ok Pass.heldResource :=
    (Responder.after_ofStore (by simp)).1.trans (Store.get_webStore (by decide))
  have hrecord : Responder.ofWebStore.after [] Store.webLocator
      [⟨.getResource Store.webLocator, .ok Pass.heldResource⟩,
        ⟨.getStack "s1", .ok Store.restingStack⟩, ⟨.getMembers Store.restingStack.id, .ok []⟩]
      (.updateStatus (Refresh.merged Pass.heldResource Store.restingStack [])) = .ok () :=
    ((Responder.after_ofStore (by simp [Call.isStoreWrite])).2 _).trans (congrArg Prod.fst hwrite)
  exact .terminal Pass.heldResource Store.restingStack _ hread rfl (by decide)
    (congrArg Prod.snd (Program.against_of_ran hlog.ran ⟨rfl, hrecord.symm, trivial⟩))

theorem entries_independent_restingEntries :
    let w : Watch := ⟨⟨restingEntries⟩, ⟨2, 2⟩⟩
    (visits .ofWebStore 30 restingEntries.reverse).2 = (visits .ofWebStore 30 restingEntries).2 ∧
      w.afterAll (Journal.log (visits .ofWebStore 30 restingEntries.reverse).1) =
        w.afterAll (Journal.log (visits .ofWebStore 30 restingEntries).1) ∧
      ("s1", Store.webLocator) ∉
        (w.afterAll (Journal.log (visits .ofWebStore 30 restingEntries).1)).registry.entries := by
  intro w
  have hall : restingEntries.Perm w.registry.entries := .refl _
  obtain ⟨-, horder, -, hdropped, -⟩ := entries_independent hall (by decide) (by decide)
    (Responder.isSeparate_ofStore _ _ _)
  obtain ⟨hsum, hwatch, -⟩ := horder restingEntries.reverse (List.reverse_perm _)
  exact ⟨hsum, hwatch, (hdropped _ List.mem_cons_self).mpr drops_ofWebStore⟩

end Follow
end StackKeeper
