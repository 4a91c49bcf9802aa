import StackKeeper.Proofs.Lifecycle
import StackKeeper.Proofs.Relay
/-!
# Followed stacks and the incarnations of their resources

A request to follow a stack names the incarnation of the resource for which the stack was handed over.
The follower keeps the locator alone: a tick reads whatever is stored under it by then, and writes
what it sees of the stack to that. Here the relay runs beside the store, in which users create,
change and remove resources at any time.

Results:
* `read_of_begins`: a pass hands over stacks for the incarnation that it has read.
* `traced_of_chain`: whatever a tick looks at was handed over and admitted.
* `meant_incarnation_iff`: when a status that the follower writes goes to the incarnation for which the
  stack was handed over.
-/
namespace StackKeeper

/-! ## What a pass hands over -/

namespace Pass

variable {p : Policy} {log : Log}

/-- A stack is handed over for what the pass has read, which it has read only once. -/
theorem read_of_begins {l : Locator} {q : FollowRequest}
    (h : (reconcile p l).run.Begins (log ++ [⟨.submit q, ()⟩])) :
    ∃ r rest, log = ⟨.getResource l, .ok r⟩ :: rest ∧ q.resource = r.locator ∧
      q.uid = r.metadata.uid ∧ ∀ l' r', ⟨.getResource l', .ok r'⟩ ∈ log → r' = r := by
  obtain ⟨rest, result, hran⟩ := h
  have hpass := passLog_of_ran (show Job.Ran (reconcile p l) _ result from hran)
  rcases afterRead_of_passLog hpass (e := ⟨.submit q, ()⟩) (by simp) with
    ⟨error, he⟩ | ⟨r, tail, hlog, he | he⟩
  · cases he
  · cases he
  · obtain ⟨hresource, huid⟩ : q.resource = r.locator ∧ q.uid = r.metadata.uid := by
      cases he with
      | submits w hw id => exact ⟨by rw [Resource.locator, ← hw]; rfl, congrArg Metadata.uid hw⟩
    have honce : ∀ l' r', ⟨.getResource l', .ok r'⟩ ∈ log → r' = r := by
      intro l' r' hmem
      have hmem' : ⟨.getResource l', .ok r'⟩ ∈ log ++ [⟨.submit q, ()⟩] ++ rest := by simp [hmem]
      rcases afterRead_of_passLog hpass hmem' with ⟨error, he⟩ | ⟨r'', tail', hlog', he | he⟩
      · cases he
      · cases hlog.symm.trans hlog'
        cases he
        rfl
      · cases he
    cases log with
    | nil => cases hlog
    | cons e log =>
      obtain ⟨rfl, -⟩ := List.cons.inj hlog
      exact ⟨r, log, rfl, hresource, huid, honce⟩

end Pass

/-! ## What a tick writes -/

namespace Follow

/-- A status that a tick writes is what it saw of the stack of an entry, merged into what it had read
under the locator of the entry. -/
theorem merged_of_begins {secs : Nat} {entries : List (String × Locator)} {sum : TickSummary}
    {log : Log} {w : Resource} {answer : Except Error Unit}
    (h : (lookAtAll secs sum entries).Begins (log ++ [⟨.updateStatus w, answer⟩])) :
    ∃ id l r shown members, (id, l) ∈ entries ∧ ⟨.getResource l, .ok r⟩ ∈ log ∧
      ⟨.getStack id, .ok shown⟩ ∈ log ∧ w = Refresh.merged r shown members := by
  obtain ⟨id, l, before, after, x, hentry, hlook, hsub⟩ := look_of_begins h
  have hmem : ⟨.updateStatus w, answer⟩ ∈ before ++ ⟨.updateStatus w, answer⟩ :: after := by simp
  obtain ⟨r, shown, rest, members, heq, hw⟩ := Course.writes_of_lookLog hlook hmem
  -- The write is neither of the first two calls of the look.
  match before, heq with
  | [], heq => cases heq
  | [_], heq => cases heq
  | _ :: _ :: before, heq =>
    obtain ⟨rfl, rfl, -⟩ : _ ∧ _ ∧ _ := by simpa only [List.cons_append, List.cons.injEq] using heq
    exact ⟨id, l, r, shown, members, hentry, hsub (by simp), hsub (by simp), hw⟩

end Follow

/-! ## Where requests and entries come from -/

namespace Relay

variable {x x' : Relay} {h : Happening} {run : List Happening} {n : Nat}

/-- An entry goes back to an admitted request. -/
def IsAdmitted (run : List Happening) (e : String × Locator) : Prop :=
  ∃ q, .admitted q ∈ run ∧ e = (q.stackId, q.resource)

/-- Everything in the relay goes back to a stack that was handed over in the run. -/
structure Traced (run : List Happening) (x : Relay) : Prop where
  requests : ∀ q ∈ x.hub.toList, .handsOver q ∈ run
  entries : ∀ e ∈ x.watch.registry.entries, IsAdmitted run e
  looks : ∀ t, x.tick = some t → ∀ e ∈ t.entries, IsAdmitted run e
  admitted : ∀ q, .admitted q ∈ run → .handsOver q ∈ run

theorem traced_start (n : Nat) : Traced [] (start n) :=
  ⟨fun _ hq => (List.not_mem_nil hq).elim, fun _ he => (List.not_mem_nil he).elim,
    fun _ ht => (Option.some_ne_none _ ht.symm).elim, fun _ hq => (List.not_mem_nil hq).elim⟩

theorem IsAdmitted.later {e : String × Locator} (h : IsAdmitted run e) (h' : Happening) :
    IsAdmitted (run ++ [h']) e :=
  let ⟨q, hq, he⟩ := h
  ⟨q, List.mem_append_left _ hq, he⟩

theorem traced_takes (ht : Traced run x) (hs : x.Takes h x') : Traced (run ++ [h]) x' := by
  have hrequests : ∀ q ∈ x'.hub.toList, .handsOver q ∈ run ++ [h] := by
    intro q hq
    cases effect_of_takes hs with
    | handsOver q' hub watch =>
      rcases Handoff.mem_submit (hub ▸ hq) with hq | rfl
      · exact List.mem_append_left _ (ht.requests q hq)
      · simp
    | admits q' next hub watch =>
      have hmem := (Handoff.mem_takeNext_iff next).mpr (.inr (hub ▸ hq))
      exact List.mem_append_left _ (ht.requests q hmem)
    | stops id hub watch | leaves hub watch no =>
      exact List.mem_append_left _ (ht.requests q (hub ▸ hq))
  have hentries : ∀ e ∈ x'.watch.registry.entries, IsAdmitted (run ++ [h]) e := by
    intro e he
    cases effect_of_takes hs with
    | handsOver q hub watch | leaves hub watch no => exact (ht.entries e (watch ▸ he)).later _
    | admits q next hub watch =>
      rcases Watch.mem_accept (watch ▸ he) with he | rfl
      · exact (ht.entries e he).later _
      · exact ⟨q, by simp, rfl⟩
    | stops id hub watch => exact (ht.entries e (Watch.mem_stop (watch ▸ he))).later _
  refine ⟨hrequests, hentries, ?_, ?_⟩
  · intro t htick e he
    obtain ⟨hallows, rfl⟩ := hs
    cases h with
    | tickBegins secs entries =>
      cases htick
      exact (ht.entries e (hallows.2.mem_iff.mp he)).later _
    | tickCalls e' =>
      obtain ⟨t', ht', rfl⟩ := Option.map_eq_some_iff.mp htick
      exact (ht.looks t' ht' e he).later _
    | tickEnds => cases htick
    | passBegins p l | passCalls e' | passEnds | admitted q | elsewhere =>
      exact (ht.looks t htick e he).later _
  · intro q hq
    rcases List.mem_append.mp hq with hq | hq
    · exact List.mem_append_left _ (ht.admitted q hq)
    · obtain rfl := List.mem_singleton.mp hq
      have hmem := (Handoff.mem_takeNext_iff hs.1).mpr (.inl rfl)
      exact List.mem_append_left _ (ht.requests q hmem)

theorem traced_of_chain (hc : Chain Takes (start n) run x) : Traced run x := by
  induction run using List.reverseRecOn generalizing x with
  | nil => exact hc ▸ traced_start n
  | append_singleton run h ih =>
    obtain ⟨m, hbefore, _, hstep, rfl⟩ := chain_append.mp hc
    exact traced_takes (ih hbefore) hstep

end Relay

/-! ## The relay beside the store -/

/-- One thing that happens, with the writes that the store is asked for meanwhile. -/
structure Deed where
  happening : Happening
  writes : List Write

/-- Things that happen without a write. -/
def quietly (run : List Happening) : List Deed := run.map (Deed.mk · [])

def writesOf (run : List Deed) : List Write := run.flatMap Deed.writes

/-- The event is answered by the store, which performs the writes. A call may fail, and a write that
failed for its caller may have been performed all the same. -/
def Store.Answers (s : Store) (e : Event) (ws : List Write) : Prop :=
  match e with
  | ⟨.getResource l, answer⟩ => ws = [] ∧ ∀ r, answer = .ok r → s.get l = .ok r
  | ⟨.updateResource r, answer⟩ =>
    ws = [.update r] ∧ (answer = .ok () → (s.update r).1 = .ok ()) ∨ ws = [] ∧ answer ≠ .ok ()
  | ⟨.updateStatus r, answer⟩ =>
    ws = [.updateStatus r] ∧ (answer = .ok () → (s.updateStatus r).1 = .ok ()) ∨
      ws = [] ∧ answer ≠ .ok ()
  | _ => ws = []

/-- The relay and the store. -/
structure Site where
  relay : Relay
  store : Store

namespace Site
open Store Pass

/-- What one thing that happens makes of relay and store. Users may write whatever they want, and all
resources have plain locators. -/
def Takes (x : Site) (d : Deed) (x' : Site) : Prop :=
  x.relay.Takes d.happening x'.relay ∧ x'.store = x.store.run d.writes ∧
    (∀ w ∈ d.writes, w.locator.IsPlain) ∧
    match d.happening with
    | .passCalls e | .tickCalls e => x.store.Answers e d.writes
    | .passBegins _ l => d.writes = [] ∧ l.IsPlain
    | .elsewhere => True
    | _ => d.writes = []

variable {x x' y : Site} {d : Deed} {run past since later : List Deed} {s₀ : Store} {n : Nat}
  {l : Locator} {r w : Resource} {e : Event} {q : FollowRequest}

@[simp] theorem writesOf_append : writesOf (run ++ later) = writesOf run ++ writesOf later :=
  List.flatMap_append

theorem relay_of_chain (hc : Chain Takes x run x') :
    Chain Relay.Takes x.relay (run.map Deed.happening) x'.relay := by
  induction run generalizing x with
  | nil => exact congrArg Site.relay hc
  | cons d run ih =>
    obtain ⟨m, hm, hc⟩ := hc
    exact ⟨m.relay, hm.1, ih hc⟩

theorem store_of_chain (hc : Chain Takes x run x') : x'.store = x.store.run (writesOf run) := by
  induction run generalizing x with
  | nil => exact congrArg Site.store hc
  | cons d run ih =>
    obtain ⟨m, ⟨-, hm, -⟩, hc⟩ := hc
    rw [ih hc, hm, ← Store.run_append]
    rfl

theorem plain_of_chain (hc : Chain Takes x run x') : ∀ w ∈ writesOf run, w.locator.IsPlain := by
  induction run generalizing x with
  | nil => simp [writesOf]
  | cons d run ih =>
    obtain ⟨m, ⟨-, -, hplain, -⟩, hc⟩ := hc
    intro w hw
    rcases List.mem_append.mp (show w ∈ d.writes ++ writesOf run from hw) with hw | hw
    · exact hplain w hw
    · exact ih hc w hw

/-- What a pass or a tick has read was stored at that time. -/
theorem get_of_read (hc : Chain Takes x run x') (hd : d ∈ run)
    (he : d.happening = .passCalls ⟨.getResource l, .ok r⟩ ∨
      d.happening = .tickCalls ⟨.getResource l, .ok r⟩) :
    ∃ past later, run = past ++ d :: later ∧ (x.store.run (writesOf past)).get l = .ok r := by
  obtain ⟨past, later, rfl⟩ := List.append_of_mem hd
  obtain ⟨y, hbefore, m, hm, -⟩ := chain_append.mp hc
  refine ⟨past, later, rfl, ?_⟩
  rw [← store_of_chain hbefore]
  obtain ⟨-, -, -, hm⟩ := hm
  rcases he with he | he <;>
  · rw [he] at hm
    exact hm.2 r rfl

/-- What was read under a plain locator is its own. -/
theorem locator_of_read (hempty : s₀.IsEmpty) (hc : Chain Takes ⟨.start n, s₀⟩ run x')
    (hl : l.IsPlain) (hd : d ∈ run)
    (he : d.happening = .passCalls ⟨.getResource l, .ok r⟩ ∨
      d.happening = .tickCalls ⟨.getResource l, .ok r⟩) : r.locator = l := by
  obtain ⟨past, later, rfl, hget⟩ := get_of_read hc hd he
  have hplain := plain_of_chain hc
  rw [writesOf_append] at hplain
  have hsound := hempty.sound.run fun w hw => hplain w (List.mem_append_left _ hw)
  exact (hsound.fits hl (stored?_eq_some_iff.mpr hget)).own

/-! ### Passes that hand over -/

/-- The run begins with the read of a pass that then hands over the stack of the request. -/
inductive HandedOver (q : FollowRequest) : List Deed → Prop
  | intro {r : Resource} {between later : List Deed} (ws : List Write)
    (same : ∀ d ∈ between, d.happening ≠ .passEnds) :
    HandedOver q (⟨.passCalls ⟨.getResource q.resource, .ok r⟩, []⟩ ::
      (between ++ ⟨.handsOver q, ws⟩ :: later))

/-- A pass that does not end goes on. -/
theorem pass_of_chain {p : PassAtWork} (hc : Chain Takes x run x') (hx : x.relay.pass = some p)
    (hrun : ∀ d ∈ run, d.happening ≠ .passEnds) :
    ∃ p', x'.relay.pass = some p' ∧ p'.policy = p.policy ∧ p'.resource = p.resource ∧
      p.log ⊆ p'.log := by
  induction run generalizing x p with
  | nil => exact ⟨p, hc ▸ hx, rfl, rfl, List.Subset.refl _⟩
  | cons d run ih =>
    rw [List.forall_mem_cons] at hrun
    obtain ⟨m, ⟨⟨hallows, hm⟩, -⟩, hc⟩ := hc
    obtain ⟨h, ws⟩ := d
    have same : m.relay.pass = x.relay.pass → _ := fun hsame => ih hc (hsame ▸ hx) hrun.2
    cases h with
    | passBegins p' l =>
      rw [hallows] at hx
      cases hx
    | passEnds => exact absurd rfl hrun.1
    | passCalls e =>
      have hm' : m.relay.pass = some { p with log := p.log ++ [e] } := by
        rw [hm, Relay.after, hx]
        rfl
      obtain ⟨p', hp', hpolicy, hresource, hlog⟩ := ih hc hm' hrun.2
      exact ⟨p', hp', hpolicy, hresource, fun e he => hlog (List.mem_append_left _ he)⟩
    | admitted q | tickBegins secs entries | tickCalls e | tickEnds | elsewhere =>
      exact same (by rw [hm]; rfl)

/-- The first call of the pass under way was made in the run. -/
theorem first_call_of_chain {p : PassAtWork} {rest : Log} (hc : Chain Takes x run x')
    (hx : x.relay.pass = none) (hx' : x'.relay.pass = some p) (hlog : p.log = e :: rest) :
    ∃ past ws later, run = past ++ ⟨.passCalls e, ws⟩ :: later ∧
      ∀ d ∈ later, d.happening ≠ .passEnds := by
  induction run using List.reverseRecOn generalizing x' p rest with
  | nil =>
    rw [show x' = x from hc, hx] at hx'
    cases hx'
  | append_singleton run d ih =>
    obtain ⟨m, hbefore, _, ⟨⟨hallows, hm⟩, -⟩, rfl⟩ := chain_append.mp hc
    obtain ⟨h, ws⟩ := d
    have later : ∀ {p' : PassAtWork} {rest' : Log}, m.relay.pass = some p' → p'.log = e :: rest' →
        h ≠ .passEnds → ∃ past ws' later, run ++ [⟨h, ws⟩] = past ++ ⟨.passCalls e, ws'⟩ :: later ∧
          ∀ d ∈ later, d.happening ≠ .passEnds := by
      intro p' rest' hp' hlog' hne
      obtain ⟨past, ws', later, rfl, hlater⟩ := ih hbefore hp' hlog'
      refine ⟨past, ws', later ++ [⟨h, ws⟩], by simp, ?_⟩
      rw [List.forall_mem_append, List.forall_mem_singleton]
      exact ⟨hlater, hne⟩
    rw [hm] at hx'
    cases h with
    | passBegins p' l =>
      cases hx'
      cases hlog
    | passEnds => cases hx'
    | passCalls e' =>
      obtain ⟨p', hp', rfl⟩ := Option.map_eq_some_iff.mp hx'
      cases hfirst : p'.log with
      | nil =>
        rw [hfirst] at hlog
        cases hlog
        exact ⟨run, ws, [], rfl, by simp⟩
      | cons e₀ rest₀ =>
        rw [hfirst] at hlog
        cases hlog
        exact later hp' hfirst (by simp)
    | admitted q | tickBegins secs entries | tickCalls e' | tickEnds | elsewhere =>
      exact later hx' hlog (by simp)

/-- The locator of the pass under way is plain. -/
theorem plain_of_pass {p : PassAtWork} (hc : Chain Takes x run x') (hx : x.relay.pass = none)
    (hx' : x'.relay.pass = some p) : p.resource.IsPlain := by
  induction run using List.reverseRecOn generalizing x' p with
  | nil =>
    rw [show x' = x from hc, hx] at hx'
    cases hx'
  | append_singleton run d ih =>
    obtain ⟨m, hbefore, _, ⟨⟨-, hm⟩, -, -, hd⟩, rfl⟩ := chain_append.mp hc
    obtain ⟨h, ws⟩ := d
    rw [hm] at hx'
    cases h with
    | passBegins p' l =>
      cases hx'
      exact hd.2
    | passEnds => cases hx'
    | passCalls e' =>
      obtain ⟨p', hp', rfl⟩ := Option.map_eq_some_iff.mp hx'
      exact ih (p := p') hbefore hp'
    | admitted q | tickBegins secs entries | tickCalls e' | tickEnds | elsewhere =>
      exact ih hbefore hx'

/-- The request of a stack that was handed over carries the uid that was stored when the pass read. -/
theorem uid_of_handedOver (hc : Chain Takes ⟨.start n, s₀⟩ (past ++ since) x)
    (hq : HandedOver q since) :
    ∃ r, (s₀.run (writesOf past)).get q.resource = .ok r ∧ r.metadata.uid = q.uid := by
  cases hq with
  | @intro r between later ws same =>
    obtain ⟨y, hpast, m, hread, hc⟩ := chain_append.mp hc
    obtain ⟨m', hbetween, _, hhands, -⟩ := chain_append.mp hc
    obtain ⟨⟨⟨p, hp, -⟩, hm⟩, -, -, -, hanswer⟩ := hread
    have hm' : m.relay.pass = some { p with log := p.log ++ [⟨.getResource q.resource, .ok r⟩] } := by
      rw [hm, Relay.after, hp]
      rfl
    obtain ⟨p', hp', hpolicy, hresource, hlog⟩ := pass_of_chain hbetween hm' same
    obtain ⟨⟨⟨p'', hp'', hbegins⟩, -⟩, -⟩ := hhands
    cases hp'.symm.trans hp''
    obtain ⟨r₀, rest, -, -, huid, honce⟩ := read_of_begins hbegins
    have hmem : ⟨.getResource q.resource, .ok r⟩ ∈ p'.log := hlog (by simp)
    refine ⟨r, ?_, by rw [honce _ _ hmem, huid]⟩
    have hget := hanswer r rfl
    rwa [store_of_chain hpast] at hget

/-- A stack that was handed over was so by a pass that had read the resource before. -/
theorem handedOver_of_mem (hempty : s₀.IsEmpty) (hc : Chain Takes ⟨.start n, s₀⟩ run x)
    (hd : d ∈ run) (hq : d.happening = .handsOver q) :
    q.resource.IsPlain ∧ ∃ past since, run = past ++ since ∧ HandedOver q since := by
  obtain ⟨before, later, rfl⟩ := List.append_of_mem hd
  obtain ⟨y, hbefore, m, ⟨⟨hallows, -⟩, -⟩, -⟩ := chain_append.mp hc
  rw [hq] at hallows
  obtain ⟨p, hp, hbegins⟩ := hallows
  obtain ⟨r, rest, hlog, hresource, -, -⟩ := read_of_begins hbegins
  obtain ⟨past, ws, between, rfl, hbetween⟩ := first_call_of_chain hbefore rfl hp hlog
  have hplain := plain_of_pass hbefore rfl hp
  have hl : r.locator = p.resource :=
    locator_of_read hempty hbefore hplain (d := ⟨.passCalls ⟨.getResource p.resource, .ok r⟩, ws⟩)
      (by simp) (.inl rfl)
  have hws : ws = [] := by
    obtain ⟨y', -, m', ⟨-, -, -, hanswer⟩, -⟩ := chain_append.mp hbefore
    exact hanswer.1
  obtain ⟨h, ws'⟩ := d
  obtain rfl : h = .handsOver q := hq
  subst hws
  rw [hl] at hresource
  rw [hresource]
  refine ⟨hplain, past, _, by rw [List.append_assoc, List.cons_append], ?_⟩
  rw [← hresource]
  exact .intro ws' hbetween

/-! ### Writes of the follower -/

/-- What the follower writes is what it saw of a stack that was handed over for the resource under the
locator and admitted. -/
theorem observation_of_write (hempty : s₀.IsEmpty) (hc : Chain Takes ⟨.start n, s₀⟩ run x)
    {answer : Except Error Unit}
    (hs : x.relay.Allows (.tickCalls ⟨.updateStatus w, answer⟩)) :
    ∃ q r shown members,
      (∃ ws, ⟨.tickCalls ⟨.getStack q.stackId, .ok shown⟩, ws⟩ ∈ run) ∧
      w = Refresh.merged r shown members ∧ q.resource = w.locator ∧ q.resource.IsPlain ∧
      (∃ ws, ⟨.admitted q, ws⟩ ∈ run) ∧ ∃ past since, run = past ++ since ∧ HandedOver q since := by
  obtain ⟨t, ht, hbegins⟩ := hs
  obtain ⟨id, l, r, shown, members, hentry, hread, hlook, rfl⟩ := Follow.merged_of_begins hbegins
  have hrelay := relay_of_chain hc
  have htraced := Relay.traced_of_chain hrelay
  obtain ⟨q, hadmitted, heq⟩ := htraced.looks t ht _ hentry
  obtain ⟨rfl, rfl⟩ := Prod.mk.inj heq
  have seen : ∀ e ∈ t.log, ∃ d ∈ run, d.happening = .tickCalls e := by
    intro e he
    rcases Relay.seen_of_chain hrelay ⟨t, ht, he⟩ with hmem | ⟨t', ht', -⟩
    · exact List.mem_map.mp hmem
    · cases ht'
  obtain ⟨d, hd, hq⟩ := List.mem_map.mp (htraced.admitted q hadmitted)
  obtain ⟨hplain, hhanded⟩ := handedOver_of_mem hempty hc hd hq
  obtain ⟨d₁, hd₁, hread₁⟩ := seen _ hread
  have hl := locator_of_read hempty hc hplain hd₁ (.inr hread₁)
  obtain ⟨⟨_, ws₂⟩, hd₂, rfl⟩ := seen _ hlook
  obtain ⟨⟨_, ws₃⟩, hd₃, rfl⟩ := List.mem_map.mp hadmitted
  exact ⟨q, r, shown, members, ⟨ws₂, hd₂⟩, rfl, hl.symm, hplain, ⟨ws₃, hd₃⟩, hhanded⟩

/-- Whatever status the follower writes is received by the incarnation that is stored by then. It is the
one for which the stack was handed over exactly if the resource was there all the time since the pass
read it. -/
theorem meant_incarnation_iff (hempty : s₀.IsEmpty) (hc : Chain Takes ⟨.start n, s₀⟩ run x)
    (hfresh : ((writesOf run).filterMap Write.uid?).Nodup) {answer : Except Error Unit}
    (hs : x.Takes ⟨.tickCalls ⟨.updateStatus w, answer⟩, [.updateStatus w]⟩ x')
    (haccepted : (x.store.updateStatus w).1 = .ok ()) :
    (∃ q r shown members,
      (∃ ws, ⟨.tickCalls ⟨.getStack q.stackId, .ok shown⟩, ws⟩ ∈ run) ∧
      w = Refresh.merged r shown members ∧ q.resource = w.locator ∧
      (∃ ws, ⟨.admitted q, ws⟩ ∈ run) ∧ ∃ past since, run = past ++ since ∧ HandedOver q since) ∧
    ∃ stored, x.store.get w.locator = .ok stored ∧
      x'.store.get w.locator = .ok (stored.withStatus w.status) ∧
      ∀ q past since, run = past ++ since → HandedOver q since → q.resource = w.locator →
        (stored.metadata.uid = q.uid ↔
          (s₀.run (writesOf past)).KeptThroughout w.locator (writesOf since)) := by
  obtain ⟨hrelay, hstore, -⟩ := hs
  obtain ⟨q, r, shown, members, hseen, hw, hresource, hplain, hadmitted, hhanded⟩ :=
    observation_of_write hempty hc hrelay.1
  refine ⟨⟨q, r, shown, members, hseen, hw, hresource, hadmitted, hhanded⟩, ?_⟩
  rw [hresource] at hplain
  have hrun := store_of_chain hc
  have hsound : x.store.Sound := by
    rw [hrun]
    exact hempty.sound.run (plain_of_chain hc)
  have heq : x.store.updateStatus w = (.ok (), x'.store) := by
    rw [hstore, ← haccepted]
    rfl
  obtain ⟨stored, hinc⟩ := incarnation_of_updateStatus_ok heq
  obtain ⟨hget, huid⟩ := incarnation_eq_ok_iff.mp hinc
  have hstored : x.store.stored? w.locator = some stored := stored?_eq_some_iff.mpr hget
  refine ⟨stored, hget, ?_, ?_⟩
  · exact (get_of_updateStatus_ok hget (hsound.fits hplain hstored).own rfl heq).2
  · rintro q past since rfl hq hql
    obtain ⟨r₀, hget₀, huid₀⟩ := uid_of_handedOver hc hq
    have hall := plain_of_chain hc
    rw [writesOf_append] at hall hfresh hrun
    rw [hql] at hget₀
    rw [hrun, Store.run_append] at hstored
    rw [List.forall_mem_append] at hall
    rw [← huid₀]
    exact (keptThroughout_iff hempty hall.1 hall.2 hfresh hplain (stored?_eq_some_iff.mpr hget₀)
      hstored).symm

/-! ### A successor that gets the status of its predecessor -/

/-- The thing asks nothing of the store but what it answers without being changed. -/
def IsQuiet (s : Store) : Happening → Prop
  | .passCalls e | .tickCalls e => s.Answers e []
  | .passBegins _ l => l.IsPlain
  | _ => True

theorem chain_quiet {x x' : Relay} {s : Store} {run : List Happening} (hc : Chain Relay.Takes x run x')
    (hq : ∀ h ∈ run, IsQuiet s h) :
    Chain Takes ⟨x, s⟩ (quietly run) ⟨x', s⟩ := by
  induction run generalizing x with
  | nil =>
    cases hc
    rfl
  | cons h run ih =>
    rw [List.forall_mem_cons] at hq
    obtain ⟨m, hm, hc⟩ := hc
    refine ⟨⟨m, s⟩, ⟨hm, rfl, by simp, ?_⟩, ih hc hq.2⟩
    cases h with
    | passBegins p l => exact ⟨rfl, hq.1⟩
    | passCalls e | tickCalls e => exact hq.1
    | passEnds | admitted q | tickBegins secs entries | tickEnds | elsewhere => trivial

def firstResource : Resource := incarnate Course.newResource "u1" daybreak

def secondResource : Resource := incarnate Course.newResource "u2" daybreak

/-- The first resource, marked for deletion and with nothing that keeps it. -/
def releasedResource : Resource := (firstResource.withFinalizers []).marked daybreak

/-- The first resource is removed, and another one is created under its locator. -/
def succeeding : List Write := [.update releasedResource, .create Course.newResource "u2" daybreak]

/-- A store without documents, in which the directory of the namespace is there. -/
def vacantStore : Store := bareStore [(["state", "default"], .directory), (["state"], .directory)]

theorem take_create_web {s : Store} {uid : String} (hbase : s.base = ["state"])
    (hread : s.files.read ["state", "default", "web.json"] = .error .missing)
    (hwrite : ∀ text, s.perform
        (FileTree.replaceSteps ["state", "default", "web.json"] "web.tmp" text) =
      (.ok (), webStore text)) :
    s.take (.create Course.newResource uid daybreak) =
      (.ok (), webStore (Document.text (incarnate Course.newResource uid daybreak))) := by
  have hname : temporaryName ["state", "default", "web.json"] = "web.tmp" := by decide
  have hl : (incarnate Course.newResource uid daybreak).locator = webLocator := rfl
  have hl' : Course.newResource.locator = webLocator := rfl
  refine take_create_of_missing ?_ ?_
  · rw [hl', hbase, documentPath_webLocator, hread]
  · rw [writeSteps_eq_replaceSteps, hl, hbase, documentPath_webLocator, hname, hwrite]

theorem take_first : (bareStore []).take (.create Course.newResource "u1" daybreak) =
    (.ok (), webStore (Document.text firstResource)) := take_create_web rfl rfl fun _ => rfl

theorem take_second : vacantStore.take (.create Course.newResource "u2" daybreak) =
    (.ok (), webStore (Document.text secondResource)) := take_create_web rfl rfl fun _ => rfl

theorem take_released : (webStore (Document.text firstResource)).take (.update releasedResource) =
    (.ok (), vacantStore) := by
  have hget : (webStore (Document.text firstResource)).get releasedResource.locator =
      .ok firstResource := get_webStore (by decide)
  have hl : releasedResource.locator = webLocator := rfl
  rw [take, update_of_incarnation (incarnation_of_get hget rfl rfl), if_pos (by decide), removeSteps,
    hl]
  show (webStore (Document.text firstResource)).perform
    [.remove (documentPath ["state"] webLocator)] = _
  rw [documentPath_webLocator]
  rfl

theorem run_succeeding : (webStore (Document.text firstResource)).run succeeding =
    webStore (Document.text secondResource) := by
  rw [succeeding, run, take_released, run, take_second, run]

def firstRequest : FollowRequest := firstResource.followRequest "s1"

/-- What a tick has done when it has seen the stack and is to write. -/
def seeingLog : Log :=
  [⟨.getResource webLocator, .ok secondResource⟩, ⟨.getStack "s1", .ok Relay.busyStack⟩,
    ⟨.getMembers "s1", .ok []⟩]

def mistakenResource : Resource := Refresh.merged secondResource Relay.busyStack []

/-- The stack is handed over for the first resource, which then gives way to the second one before a
tick sees the stack. -/
def succeedingRun : List Deed :=
  ⟨.elsewhere, [.create Course.newResource "u1" daybreak]⟩ ::
    (quietly (Relay.passOf plainPolicy webLocator (Relay.attendingLog firstResource) ++
      [.passEnds, .admitted firstRequest]) ++
    ⟨.elsewhere, succeeding⟩ ::
    quietly (.tickBegins 30 [("s1", webLocator)] :: seeingLog.map .tickCalls))

/-- The tick is to write. -/
def succeeded : Site where
  relay := { Relay.resting (Watch.empty.accept firstRequest) with
    tick := some ⟨30, [("s1", webLocator)], seeingLog⟩ }
  store := webStore (Document.text secondResource)

/-- What the tick writes. -/
def mistakenDeed : Deed :=
  ⟨.tickCalls ⟨.updateStatus mistakenResource, .ok ()⟩, [.updateStatus mistakenResource]⟩

theorem ran_seeingTick : Program.Ran (Follow.tick 30 [("s1", webLocator)])
    (seeingLog ++ [⟨.updateStatus mistakenResource, .ok ()⟩]) ⟨1, 0, 0⟩ := by
  have hrefresh := Refresh.RefreshLog.written (r := secondResource) (s := Relay.busyStack) []
    (by decide)
  exact Follow.ran_lookAtAll_cons.mpr
    ⟨_, _, [], .atWork secondResource Relay.busyStack (by decide) hrefresh, ⟨rfl, rfl⟩, rfl⟩

theorem get_firstResource :
    (webStore (Document.text firstResource)).get webLocator = .ok firstResource :=
  get_webStore (by decide)

theorem get_secondResource :
    (webStore (Document.text secondResource)).get webLocator = .ok secondResource :=
  get_webStore (by decide)

theorem chain_birth : Chain Takes ⟨.start 1, bareStore []⟩
    [⟨.elsewhere, [.create Course.newResource "u1" daybreak]⟩]
    ⟨.start 1, webStore (Document.text firstResource)⟩ := by
  refine ⟨⟨.start 1, webStore (Document.text firstResource)⟩,
    ⟨⟨trivial, rfl⟩, ?_, by decide, trivial⟩, rfl⟩
  rw [run, take_first, run]

theorem chain_handedOver : Chain Takes ⟨.start 1, webStore (Document.text firstResource)⟩
    (quietly (Relay.passOf plainPolicy webLocator (Relay.attendingLog firstResource) ++
      [.passEnds, .admitted firstRequest]))
    ⟨Relay.resting (Watch.empty.accept firstRequest), webStore (Document.text firstResource)⟩ := by
  have hran := Relay.ran_attendingLog (r := firstResource) rfl (by decide)
  have hpass := Relay.chain_attendingLog (r := firstResource) Watch.empty rfl (by decide)
  have hadmitted := Relay.chain_admitted (x := Relay.resting Watch.empty) (q := firstRequest) hran
  refine chain_quiet (chain_append.mpr ⟨_, hpass, hadmitted⟩) ?_
  have hl : firstResource.locator = webLocator := rfl
  have hplain : webLocator.IsPlain := by decide
  simp [Relay.passOf, Relay.attendingLog, IsQuiet, Answers, hl, hplain, get_firstResource]

theorem chain_seeing : Chain Takes
    ⟨Relay.resting (Watch.empty.accept firstRequest), webStore (Document.text secondResource)⟩
    (quietly (.tickBegins 30 [("s1", webLocator)] :: seeingLog.map .tickCalls)) succeeded := by
  refine chain_quiet ⟨_, ⟨⟨rfl, .refl _⟩, rfl⟩, Relay.chain_tickCalls
    (t := ⟨30, [("s1", webLocator)], []⟩) ⟨_, _, ran_seeingTick⟩⟩ ?_
  simp [seeingLog, IsQuiet, Answers, get_secondResource]

theorem chain_succeedingRun : Chain Takes ⟨.start 1, bareStore []⟩ succeedingRun succeeded := by
  have hsuccession : Takes
      ⟨Relay.resting (Watch.empty.accept firstRequest), webStore (Document.text firstResource)⟩
      ⟨.elsewhere, succeeding⟩
      ⟨Relay.resting (Watch.empty.accept firstRequest), webStore (Document.text secondResource)⟩ :=
    ⟨⟨trivial, rfl⟩, run_succeeding.symm, by decide, trivial⟩
  exact chain_append.mpr ⟨_, chain_birth, chain_append.mpr
    ⟨_, chain_handedOver, chain_cons.mpr ⟨_, hsuccession, chain_seeing⟩⟩⟩

theorem updateStatus_mistakenResource :
    (webStore (Document.text secondResource)).updateStatus mistakenResource =
      (.ok (), webStore (Document.text mistakenResource)) :=
  updateStatus_webStore (by decide) rfl rfl

theorem takes_mistakenDeed : succeeded.Takes mistakenDeed
    ⟨succeeded.relay.after mistakenDeed.happening, webStore (Document.text mistakenResource)⟩ := by
  refine ⟨⟨⟨_, rfl, [], _, ran_seeingTick⟩, rfl⟩, ?_, ?_, .inl ⟨rfl, fun _ => ?_⟩⟩
  · show _ = (webStore (Document.text secondResource)).run [.updateStatus mistakenResource]
    rw [run, take, updateStatus_mistakenResource, run]
  · simp only [mistakenDeed, List.forall_mem_singleton]
    decide
  · show ((webStore (Document.text secondResource)).updateStatus mistakenResource).1 = _
    rw [updateStatus_mistakenResource]

theorem nodup_uids_succeedingRun : ((writesOf succeedingRun).filterMap Write.uid?).Nodup := by
  decide

theorem handedOver_succeedingRun : ∃ past since, succeedingRun = past ++ since ∧
    HandedOver firstRequest since ∧ writesOf past = [.create Course.newResource "u1" daybreak] ∧
    writesOf since = succeeding := by
  refine ⟨succeedingRun.take 2, succeedingRun.drop 2, rfl, ?_, rfl, rfl⟩
  have hsame : ∀ d ∈ quietly [.passCalls ⟨.getStack firstResource.stackRef, .ok Relay.busyStack⟩],
      d.happening ≠ .passEnds := by simp [quietly]
  exact .intro (r := firstResource) [] hsame

/-- The second resource gets the status, and it is not the one for which the stack was handed over. -/
theorem successor_receives_status :
    (bareStore []).IsEmpty ∧ Chain Takes ⟨.start 1, bareStore []⟩ succeedingRun succeeded ∧
      ((writesOf succeedingRun).filterMap Write.uid?).Nodup ∧
      (succeeded.store.updateStatus mistakenResource).1 = .ok () ∧
      ∃ x', succeeded.Takes mistakenDeed x' ∧ ∃ stored,
        succeeded.store.get webLocator = .ok stored ∧ stored.metadata.uid = "u2" ∧
        x'.store.get webLocator = .ok (stored.withStatus mistakenResource.status) ∧
        ¬ ((bareStore []).run [.create Course.newResource "u1" daybreak]).KeptThroughout webLocator
          succeeding := by
  have haccepted : (succeeded.store.updateStatus mistakenResource).1 = .ok () :=
    congrArg Prod.fst updateStatus_mistakenResource
  obtain ⟨-, stored, hget, hafter, hiff⟩ := meant_incarnation_iff (isEmpty_empty ["state"])
    chain_succeedingRun nodup_uids_succeedingRun takes_mistakenDeed haccepted
  obtain ⟨past, since, hrun, hhanded, hpast, hsince⟩ := handedOver_succeedingRun
  cases hget.symm.trans get_secondResource
  refine ⟨isEmpty_empty ["state"], chain_succeedingRun, nodup_uids_succeedingRun, haccepted, _,
    takes_mistakenDeed, secondResource, hget, rfl, hafter, fun hk => ?_⟩
  rw [← hpast, ← hsince] at hk
  exact absurd ((hiff firstRequest past since hrun hhanded rfl).mpr hk) (by decide)

/-- No request for the resource that gets the status was ever admitted. -/
theorem status_for_other_incarnation :
    ¬ ∀ (s₀ : Store) (n : Nat) (run : List Deed) (x x' : Site) (w : Resource)
        (answer : Except Error Unit), s₀.IsEmpty → Chain Takes ⟨.start n, s₀⟩ run x →
        ((writesOf run).filterMap Write.uid?).Nodup →
        x.Takes ⟨.tickCalls ⟨.updateStatus w, answer⟩, [.updateStatus w]⟩ x' →
        (x.store.updateStatus w).1 = .ok () →
        ∃ q ws, ⟨.admitted q, ws⟩ ∈ run ∧ q.resource = w.locator ∧ q.uid = w.metadata.uid := by
  intro h
  obtain ⟨q, ws, hq, -, huid⟩ := h _ 1 _ _ _ mistakenResource (.ok ()) (isEmpty_empty ["state"])
    chain_succeedingRun nodup_uids_succeedingRun takes_mistakenDeed
    (congrArg Prod.fst updateStatus_mistakenResource)
  obtain ⟨rfl, -⟩ : q = firstRequest ∧ ws = [] := by
    simpa [succeedingRun, quietly, Relay.passOf, Relay.attendingLog, seeingLog] using hq
  exact absurd huid (by decide)

end Site
end StackKeeper
