import StackKeeper.Proofs.Shortcut
import StackKeeper.Proofs.Upkeep
/-!
# From edits to calls

A resource is declared and then edited again and again. At the start and after each edit, passes,
admissions and ticks follow one another, and the stack goes on with its work, until it is done. Over
the whole run the stack is created once, and it is updated once for each edit that changes the hash
of the inputs.

Results:
* `Scene.convergence`: the calls that change remote stacks, and where each round ends.
-/
namespace StackKeeper

/-! ## Rounds of work -/

/-- What is done around a resource. -/
inductive Act where
  /-- A pass over the resource. -/
  | pass (log : Log) (result : Except Error Outcome)
  /-- The follower admits all requests. -/
  | admission
  /-- The stack goes on with its work. -/
  | work
  /-- A tick of the follower. -/
  | tick (secs : Nat) (log : Log) (summary : Follow.TickSummary)

namespace Act

def isPass : Act → Bool
  | pass _ _ => true
  | _ => false

/-- The calls of an act that change remote stacks. -/
def mutations : Act → List Call
  | pass log _ | tick _ log _ => log.mutations
  | admission | work => []

/-- What an act makes of the scene. -/
def Takes (p : Policy) (l : Locator) (s : Scene) (act : Act) (s' : Scene) : Prop :=
  match act with
  | pass log result => Job.Ran (Pass.reconcile p l) log result ∧ Chain Scene.Serves s log s'
  | admission =>
    s' = { s with hub := s.hub.takeAll.2, watch := s.hub.takeAll.1.foldl Watch.accept s.watch }
  | work => ∃ n, Obliging.Works s.stack n ∧ s' = { s with stack := n }
  | tick secs log summary =>
    ∃ entries, entries.Perm s.watch.registry.entries ∧
      Program.Ran (Follow.tick secs entries) log summary ∧ Chain Scene.Serves s log s'

end Act

/-- An edit of the spec and what is done until the stack is done. -/
structure Round where
  spec : Spec
  edited : Scene
  acts : List Act
  settled : Scene

def Call.isCreation : Call → Bool
  | .createStack _ _ => true
  | _ => false

/-- The calls of the acts that change remote stacks. -/
def mutationsOf (acts : List Act) : List Call := acts.flatMap Act.mutations

theorem mutationsOf_cons (act : Act) (acts : List Act) :
    mutationsOf (act :: acts) = act.mutations ++ mutationsOf acts := rfl

/-- What a round makes of the scene. -/
structure Round.Takes (p : Policy) (l : Locator) (s : Scene) (rd : Round) (s' : Scene) : Prop where
  proper : rd.spec.IsProper
  edit : ∃ r, s.store.get l = .ok r ∧
    rd.edited = { s with store := (s.store.update (r.withSpec rd.spec)).2 }
  run : Chain (Act.Takes p l) rd.edited rd.acts rd.settled
  done : rd.settled.IsDone
  ends : s' = rd.settled

/-- The two resources have the same hash and not the same tags. -/
def Fingerprint.Collide (p : Policy) (r r' : Resource) : Prop :=
  Fingerprint.ofResource p r = Fingerprint.ofResource p r' ∧ p.effectiveTags r ≠ p.effectiveTags r'

/-- What is stored and what stands agree: the stack is done, the hash of the inputs is the one
recorded, and the tags of the stack are those of the resource. -/
def Scene.IsConverged (p : Policy) (l : Locator) (s : Scene) : Prop :=
  ∃ r b, s.store.get l = .ok r ∧ s.stack = some b ∧ b.IsDone ∧ b.id = r.status.stackId ∧
    r.status.appliedHash = Fingerprint.ofResource p r ∧ b.tags = p.effectiveTags r

/-- The calls of a round are those that its edit asks for, given the specs of the run. -/
structure Round.Answers (p : Policy) (l : Locator) (specs : List Spec) (rd : Round) (r : Resource)
    (t : Template) : Prop where
  stored : rd.edited.store.get l = .ok r
  spec : r.spec = rd.spec
  template : rd.spec.templateSource? = some t
  stack : ∃ b, rd.edited.stack = some b ∧ b.IsDone ∧ b.id = r.status.stackId
  unseen : rd.acts.any Act.isPass = false → mutationsOf rd.acts = []
  changed : rd.acts.any Act.isPass = true → r.status.appliedHash ≠ Fingerprint.ofResource p r →
    mutationsOf rd.acts = [.updateStack (p.inputs r t r.status.stackId)]
  unchanged : r.status.appliedHash = Fingerprint.ofResource p r → mutationsOf rd.acts = [] ∨
    mutationsOf rd.acts = [.updateStack (p.inputs r t r.status.stackId)] ∧
      ∃ spec ∈ specs, Fingerprint.Collide p (r.withSpec spec) r
  converged : rd.acts.any Act.isPass = true → rd.settled.IsConverged p l

namespace Scene
open Follow Pass Obliging

variable {p : Policy} {l : Locator} {r r' : Resource} {t : Template} {tags : TextMap}
  {s s' s₁ : Scene} {act : Act} {acts : List Act} {rounds : List Round} {rd : Round}
  {specs : List Spec}

/-- Admitting requests of the resource leaves nothing but entries of the resource. -/
theorem Attends.admit (h : s.Attends l) :
    Attends l
      { s with hub := s.hub.takeAll.2, watch := s.hub.takeAll.1.foldl Watch.accept s.watch } := by
  refine ⟨by simp [Handoff.takeAll, Handoff.toList], ?_⟩
  have hfold : ∀ (qs : List FollowRequest) (w : Watch), (∀ q ∈ qs, q.resource = l) →
      (∀ e ∈ w.registry.entries, e.2 = l) →
      ∀ e ∈ (qs.foldl Watch.accept w).registry.entries, e.2 = l := by
    intro qs
    induction qs with
    | nil => exact fun w _ hw => hw
    | cons q qs ih =>
      intro w hqs hw
      rw [List.forall_mem_cons] at hqs
      refine ih (w.accept q) hqs.2 fun e he => ?_
      rcases Watch.mem_accept he with he | rfl
      · exact hw e he
      · exact hqs.1
  exact hfold _ _ h.requests h.entries

/-! ## Single acts -/

/-- An act without a stack. -/
theorem Fresh.after_act (hp : p.IsProper) (hr : r.spec.IsProper) (ht : r.spec.templateSource? = some t)
    (h : s.Fresh l r) (ha : act.Takes p l s s') :
    (act.mutations = [] ∧ ∃ fs, s'.Fresh l (r.withFinalizers fs)) ∨
      act.mutations = [creation p r t] ∧
        ∃ id, s'.Live l (createdAs p r id) (p.effectiveTags r) := by
  have same : s'.Fresh l r → ∃ fs, s'.Fresh l (r.withFinalizers fs) := fun h =>
    ⟨r.metadata.finalizers, h⟩
  cases act with
  | pass log result => exact h.pass hp hr ht (passLog_of_ran ha.1) ha.2
  | admission =>
    cases ha
    exact .inl ⟨rfl, same ⟨h.stored, h.unmarked, h.blank, h.noStack, h.attends.admit⟩⟩
  | work =>
    obtain ⟨n, hworks, rfl⟩ := ha
    rw [h.noStack] at hworks
    exact .inl ⟨rfl, same ⟨h.stored, h.unmarked, h.blank, hworks.eq_none, h.attends.1, h.attends.2⟩⟩
  | tick secs log summary =>
    obtain ⟨entries, hperm, hran, hc⟩ := ha
    have hentries : ∀ e ∈ entries, e.2 = l := fun e he =>
      h.attends.entries e (hperm.mem_iff.mp he)
    exact .inl ⟨mutations_lookAtAll hran, same (h.tick hentries hran hc)⟩

/-- An act around a resource with its stack. -/
theorem Live.after_act (hp : p.IsProper) (hr : r.spec.IsProper) (ht : r.spec.templateSource? = some t)
    (h : s.Live l r tags) (ha : act.Takes p l s s') :
    (act.mutations = [] ∧ (act.isPass = true → s.IsDone → Current p r tags) ∧
        ∃ r', r.Keeps r' ∧ s'.Live l r' tags ∧ Works s.stack s'.stack) ∨
      (¬ Current p r tags ∧ act.isPass = true ∧
        act.mutations = [.updateStack (p.inputs r t r.status.stackId)] ∧
        ∃ r', (submittedAs p r).Keeps r' ∧ s'.Live l r' (p.effectiveTags r)) := by
  cases act with
  | pass log result =>
    rcases h.pass hp hr ht (passLog_of_ran ha.1) ha.2 with ⟨hmut, hcur, hlive⟩ | ⟨hcur, hmut, hlive⟩
    · exact .inl ⟨hmut, fun _ => hcur, hlive⟩
    · exact .inr ⟨hcur, rfl, hmut, hlive⟩
  | admission =>
    cases ha
    exact .inl ⟨rfl, (fun h => by cases h), r, .refl r, ⟨h.stored, h.unmarked, h.held, h.known,
      h.stack, h.owned, h.attends.admit⟩, .rests _⟩
  | work =>
    obtain ⟨n, hworks, rfl⟩ := ha
    exact .inl ⟨rfl, (fun h => by cases h), r, .refl r, ⟨h.stored, h.unmarked, h.held, h.known,
      h.standing hworks, h.owned, h.attends.1, h.attends.2⟩, hworks⟩
  | tick secs log summary =>
    obtain ⟨entries, hperm, hran, hc⟩ := ha
    have hentries : ∀ e ∈ entries, e.2 = l := fun e he =>
      h.attends.entries e (hperm.mem_iff.mp he)
    exact .inl ⟨mutations_lookAtAll hran, (fun h => by cases h), h.tick hentries hran hc⟩

/-! ## Acts in turn -/

/-- Acts around a resource whose stack is done or current update it at most once, and only if it is
not current. -/
theorem Live.after_acts (hp : p.IsProper) (hr : r.spec.IsProper) (ht : r.spec.templateSource? = some t)
    (h : s.Live l r tags) (hstart : s.IsDone ∨ Current p r tags)
    (hc : Chain (Act.Takes p l) s acts s') :
    (mutationsOf acts = [] ∧ (acts.any Act.isPass = true → Current p r tags) ∧
        ∃ r', r.Keeps r' ∧ s'.Live l r' tags) ∨
      (¬ Current p r tags ∧ acts.any Act.isPass = true ∧
        mutationsOf acts = [.updateStack (p.inputs r t r.status.stackId)] ∧
        ∃ r', (submittedAs p r).Keeps r' ∧ s'.Live l r' (p.effectiveTags r)) := by
  induction acts generalizing s r tags with
  | nil =>
    cases hc
    exact .inl ⟨rfl, (fun h => by cases h), r, .refl r, h⟩
  | cons act acts ih =>
    obtain ⟨m, hact, hc⟩ := hc
    rcases h.after_act hp hr ht hact with ⟨hmut, hcur, r₁, hk, hlive, hworks⟩ |
      ⟨hncur, hpass, hmut, r₁, hk, hlive⟩
    · -- The scene is as before, and the rest of the acts decides.
      have hstart₁ : m.IsDone ∨ Current p r₁ tags :=
        hstart.imp (·.of_works hworks) (current_iff_of_keeps hk).mpr
      obtain ⟨st, rfl, hid, hhash⟩ := id hk
      rcases ih (r := r.withStatus st) hr ht hlive hstart₁ hc with
        ⟨hmut', hcur', r₂, hk', hlive'⟩ | ⟨hncur', hpass', hmut', r₂, hk', hlive'⟩
      · refine .inl ⟨by rw [mutationsOf_cons, hmut, hmut', List.append_nil], fun hany => ?_, r₂,
          hk.trans hk', hlive'⟩
        rw [List.any_cons, Bool.or_eq_true] at hany
        rcases hany with hany | hany
        · exact hstart.elim (hcur hany) id
        · exact (current_iff_of_keeps hk).mp (hcur' hany)
      · refine .inr ⟨mt (current_iff_of_keeps hk).mpr hncur', by rw [List.any_cons, hpass',
          Bool.or_true], ?_, r₂, ?_, hlive'⟩
        · rw [mutationsOf_cons, hmut, hmut', List.nil_append, ← hid]
          rfl
        · exact Resource.Keeps.trans ⟨(submittedAs p (r.withStatus st)).status, rfl, hid, rfl⟩ hk'
    · -- Once updated, the stack is current.
      have hcur : Current p r₁ (p.effectiveTags r) :=
        (current_iff_of_keeps hk).mpr (current_submittedAs p r)
      have hspec : r₁.spec = r.spec := hk.spec_eq
      rcases ih (hspec ▸ hr) (hspec ▸ ht) hlive (.inr hcur) hc with
        ⟨hmut', -, r₂, hk', hlive'⟩ | ⟨hncur', -⟩
      · exact .inr ⟨hncur, by rw [List.any_cons, hpass, Bool.true_or],
          by rw [mutationsOf_cons, hmut, hmut', List.append_nil], r₂, hk.trans hk', hlive'⟩
      · exact absurd hcur hncur'

/-- Acts around a resource without a stack create it at most once, with its inputs. -/
theorem Fresh.after_acts (hp : p.IsProper) (hr : r.spec.IsProper)
    (ht : r.spec.templateSource? = some t) (h : s.Fresh l r)
    (hc : Chain (Act.Takes p l) s acts s') :
    (mutationsOf acts = [] ∧ s'.stack = none) ∨
      mutationsOf acts = [creation p r t] ∧
        ∃ r' tags, s'.Live l r' tags ∧ Current p r' tags ∧ r'.spec = r.spec := by
  induction acts generalizing s r with
  | nil =>
    cases hc
    exact .inl ⟨rfl, h.noStack⟩
  | cons act acts ih =>
    obtain ⟨m, hact, hc⟩ := hc
    rcases h.after_act hp hr ht hact with ⟨hmut, fs, hfresh⟩ | ⟨hmut, id, hlive⟩
    · rw [mutationsOf_cons, hmut, List.nil_append]
      exact ih (r := r.withFinalizers fs) hr ht hfresh hc
    · have hcur : Current p (createdAs p r id) (p.effectiveTags r) := ⟨rfl, rfl⟩
      rcases hlive.after_acts (r := createdAs p r id) hp hr ht (.inr hcur) hc with
        ⟨hmut', -, r', hk, hlive'⟩ | ⟨hncur, -⟩
      · exact .inr ⟨by rw [mutationsOf_cons, hmut, hmut', List.append_nil], r', _, hlive',
          (current_iff_of_keeps hk).mpr hcur, hk.spec_eq⟩
      · exact absurd hcur hncur

/-! ## Rounds in turn -/

/-- The resource has its stack, which is done, and the record is that of one of the specs. -/
def Settled (p : Policy) (l : Locator) (specs : List Spec) (s : Scene) : Prop :=
  ∃ r tags, s.Live l r tags ∧ s.IsDone ∧ ∃ spec ∈ specs, Current p (r.withSpec spec) tags

theorem isConverged_of_current (h : s.Live l r tags) (hdone : s.IsDone) (hc : Current p r tags) :
    s.IsConverged p l := by
  obtain ⟨b, hb, hbdone⟩ := hdone
  obtain ⟨b', hb', hstands⟩ := h.stack
  cases hb.symm.trans hb'
  exact ⟨r, b, h.stored.get, hb, hbdone, hstands.id, hc.1, hstands.tags.trans hc.2⟩

/-- An edit changes the spec of the resource, and its stack stays as it is. -/
theorem Live.edit (h : s.Live l r tags) (spec : Spec) :
    Live l (Store.revise r (r.withSpec spec)) tags
      { s with store := (s.store.update (r.withSpec spec)).2 } := by
  have hmark : (Store.revise r (r.withSpec spec)).isMarked = false := by
    have hm : r.metadata.deletion = none := by simpa [Resource.isMarked] using h.unmarked
    simp [Resource.isMarked, Store.revise, Resource.withSpec, hm]
  have hrel : Store.isReleased (Store.revise r (r.withSpec spec)) = false := by
    rw [Store.isReleased, hmark, Bool.false_and]
  obtain ⟨s₁, hs₁, hhas⟩ := h.stored.update (w := r.withSpec spec) h.stored.own rfl hrel
  rw [hs₁]
  exact ⟨hhas, hmark, h.held, h.known, h.stack, h.owned, h.attends.1, h.attends.2⟩

/-- What is done after an edit makes the calls that the edit asks for and ends settled again. -/
theorem Live.answers {spec : Spec} (hp : p.IsProper) (hr : r.spec.IsProper) (hspec : r.spec = rd.spec)
    (h : rd.edited.Live l r tags) (hdone : rd.edited.IsDone)
    (hrec : Current p (r.withSpec spec) tags) (hmem : spec ∈ specs) (hmem' : rd.spec ∈ specs)
    (hc : Chain (Act.Takes p l) rd.edited rd.acts rd.settled) (hdone' : rd.settled.IsDone) :
    (∃ t, rd.Answers p l specs r t) ∧ Settled p l specs rd.settled := by
  obtain ⟨t, ht⟩ := Spec.hasOneTemplate_iff.mp hr.template
  obtain ⟨b, hb, hbdone⟩ := id hdone
  obtain ⟨b', hb', hstands⟩ := h.stack
  cases hb.symm.trans hb'
  rcases h.after_acts hp hr ht (.inl hdone) hc with
    ⟨hmut, hany, r', hk, hlive⟩ | ⟨hncur, hpass, hmut, r', hk, hlive⟩
  · refine ⟨⟨t, h.stored.get, hspec, hspec ▸ ht, ⟨b, hb, hbdone, hstands.id⟩, fun _ => hmut,
      fun hpass hne => absurd (hany hpass).1 hne, fun _ => .inl hmut, fun hpass => ?_⟩, ?_⟩
    · exact isConverged_of_current hlive hdone' ((current_iff_of_keeps hk).mpr (hany hpass))
    · obtain ⟨st, rfl, hsame⟩ := hk
      have hk' : (r.withSpec spec).Keeps ((r.withStatus st).withSpec spec) := ⟨st, rfl, hsame⟩
      exact ⟨_, tags, hlive, hdone', spec, hmem, (current_iff_of_keeps hk').mpr hrec⟩
  · have hcur : Current p r' (p.effectiveTags r) :=
      (current_iff_of_keeps hk).mpr (current_submittedAs p r)
    refine ⟨⟨t, h.stored.get, hspec, hspec ▸ ht, ⟨b, hb, hbdone, hstands.id⟩, fun hnone => ?_,
      fun _ _ => hmut, fun heq => .inr ⟨hmut, spec, hmem, ?_⟩, fun _ => ?_⟩, ?_⟩
    · cases hpass.symm.trans hnone
    · -- The hash is the recorded one, so that the update is made for the tags.
      have hhash : r.status.appliedHash = Fingerprint.ofResource p (r.withSpec spec) := hrec.1
      exact ⟨hhash.symm.trans heq, fun htags => hncur ⟨heq, hrec.2.trans htags⟩⟩
    · exact isConverged_of_current hlive hdone' hcur
    · obtain ⟨st, rfl, hsame⟩ := hk
      refine ⟨_, _, hlive, hdone', rd.spec, hmem', ?_⟩
      rw [← hspec]
      exact hcur

/-- A round makes the calls that its edit asks for and ends settled again. -/
theorem Settled.after_round (hp : p.IsProper) (h : Settled p l specs s) (hmem : rd.spec ∈ specs)
    (hrd : rd.Takes p l s s') : (∃ r t, rd.Answers p l specs r t) ∧ Settled p l specs s' := by
  obtain ⟨r, tags, hlive, ⟨b, hb, hbdone⟩, spec, hspec, hrec⟩ := h
  obtain ⟨hproper, ⟨r₁, hget, hedit⟩, hrun, hdone, rfl⟩ := hrd
  cases hlive.stored.get.symm.trans hget
  have hlive' : rd.edited.Live l (Store.revise r (r.withSpec rd.spec)) tags :=
    hedit ▸ hlive.edit rd.spec
  obtain ⟨⟨t, hanswers⟩, hsettled⟩ := Live.answers (r := Store.revise r (r.withSpec rd.spec)) hp
    hproper rfl hlive' ⟨b, by rw [hedit, hb], hbdone⟩ hrec hspec hmem hrun hdone
  exact ⟨⟨_, t, hanswers⟩, hsettled⟩

/-- Every round makes the calls that its edit asks for. -/
theorem Settled.after_rounds (hp : p.IsProper) (h : Settled p l specs s)
    (hmem : ∀ rd ∈ rounds, rd.spec ∈ specs) (hc : Chain (Round.Takes p l) s rounds s') :
    ∀ rd ∈ rounds, ∃ r t, rd.Answers p l specs r t := by
  induction rounds generalizing s with
  | nil => simp
  | cons rd rounds ih =>
    rw [List.forall_mem_cons] at hmem
    obtain ⟨m, hrd, hc⟩ := hc
    obtain ⟨hanswers, hsettled⟩ := h.after_round hp hmem.1 hrd
    exact List.forall_mem_cons.mpr ⟨hanswers, ih hsettled hmem.2 hc⟩

/-- A round creates no stack. -/
theorem creations_of_answers (h : rd.Answers p l specs r t) :
    (mutationsOf rd.acts).filter Call.isCreation = [] := by
  have hcalls : mutationsOf rd.acts = [] ∨
      mutationsOf rd.acts = [.updateStack (p.inputs r t r.status.stackId)] := by
    by_cases heq : r.status.appliedHash = Fingerprint.ofResource p r
    · exact (h.unchanged heq).imp_right And.left
    · cases hpass : rd.acts.any Act.isPass with
      | false => exact .inl (h.unseen hpass)
      | true => exact .inr (h.changed hpass heq)
  rcases hcalls with hcalls | hcalls <;> rw [hcalls] <;> rfl

/-- When a resource without a stack is declared and then edited again and again, and after each edit
passes, admissions and ticks follow one another until the stack is done, the stack is created once.
After that, an edit that a pass has seen leads to an update exactly if it changed the hash of the
inputs; an update without a change of the hash gives away a collision of hashes. -/
theorem convergence (hp : p.IsProper) (hr : r.spec.IsProper) (h : s.Fresh l r)
    (hacts : Chain (Act.Takes p l) s acts s₁) (hdone : s₁.IsDone)
    (hrounds : Chain (Round.Takes p l) s₁ rounds s') :
    (∃ t, r.spec.templateSource? = some t ∧ mutationsOf acts = [creation p r t] ∧
      (mutationsOf (acts ++ rounds.flatMap (·.acts))).filter Call.isCreation = [creation p r t]) ∧
      s₁.IsConverged p l ∧
      ∀ rd ∈ rounds, ∃ r' t, rd.Answers p l (r.spec :: rounds.map (·.spec)) r' t := by
  obtain ⟨t, ht⟩ := Spec.hasOneTemplate_iff.mp hr.template
  rcases h.after_acts hp hr ht hacts with ⟨-, hnone⟩ | ⟨hmut, r', tags, hlive, hcur, hspec⟩
  · obtain ⟨b, hb, -⟩ := hdone
    cases hb.symm.trans hnone
  · have hsettled : Settled p l (r.spec :: rounds.map (·.spec)) s₁ :=
      ⟨r', tags, hlive, hdone, r.spec, List.mem_cons_self, by rw [← hspec]; exact hcur⟩
    have hanswers := hsettled.after_rounds hp
      (fun rd hrd => List.mem_cons_of_mem _ (List.mem_map_of_mem hrd)) hrounds
    refine ⟨⟨t, ht, hmut, ?_⟩, isConverged_of_current hlive hdone hcur, hanswers⟩
    have hnone : (mutationsOf (rounds.flatMap (·.acts))).filter Call.isCreation = [] := by
      simp only [mutationsOf, List.flatMap_assoc, List.filter_flatMap, List.flatMap_eq_nil_iff]
      intro rd hrd
      obtain ⟨r'', t', hrd⟩ := hanswers rd hrd
      simpa [mutationsOf, List.filter_flatMap] using creations_of_answers hrd
    rw [mutationsOf, List.flatMap_append, ← mutationsOf, ← mutationsOf, hmut, List.filter_append,
      hnone]
    rfl

/-! ## A stack that is created and updated once -/

section
open Course Store

/-- A resource in a store of its own, with its stack, an empty queue and what the follower keeps. -/
def webScene (r : Resource) (b : Option RemoteStack) (w : Watch) : Scene :=
  ⟨webStore (Document.text r), b, Handoff.ofCapacity 1, w⟩

def webRequest : FollowRequest := ⟨"s1", webLocator, "u"⟩

/-- A tick that sees a stack which is done. -/
def observingLog (r : Resource) (b : RemoteStack) : Log :=
  [⟨.getResource webLocator, .ok r⟩, ⟨.getStack "s1", .ok b⟩, ⟨.getMembers b.id, .ok []⟩,
    ⟨.updateStatus (Refresh.merged r b []), .ok ()⟩, ⟨.unfollow "s1", ()⟩]

/-- What is done after a pass that handed the stack over. -/
def settlingActs (r : Resource) (b : RemoteStack) : List Act :=
  [.admission, .work, .tick 30 (observingLog r b) ⟨1, 1, 0⟩]

theorem takes_settlingActs {busy b : RemoteStack} {w : Watch}
    (hg : r.metadata.generation ≤ maxGeneration) (hl : r.locator = webLocator) (hid : b.id = "s1")
    (hworks : Works (some busy) (some b)) (hterm : Lifecycle.isTerminal b.status = true)
    (hnews : r.status.isNews b [] = true)
    (hw : (w.accept webRequest).registry.entries = [("s1", webLocator)]) :
    Chain (Act.Takes p webLocator)
      { webScene r (some busy) w with hub := (Handoff.ofCapacity 1).submit webRequest }
      (settlingActs r b)
      (webScene (Refresh.merged r b []) (some b) ((w.accept webRequest).stop "s1")) := by
  refine ⟨webScene r (some busy) (w.accept webRequest), rfl,
    webScene r (some b) (w.accept webRequest), ⟨_, hworks, rfl⟩, _, ?_, rfl⟩
  refine ⟨[("s1", webLocator)], by rw [webScene, hw], ?_, ?_⟩
  · exact ran_lookAtAll_cons.mpr ⟨_, _, [], .settled r b hterm (.written [] hnews), ⟨rfl, rfl⟩, rfl⟩
  · exact ⟨_, serves_read (get_webStore hg), _, serves_found rfl (by simp [RemoteStack.isNamed, hid]),
      _, serves_members _ _, _, serves_written (updateStatus_webStore hg hl rfl), _,
      serves_unfollowed "s1", rfl⟩

def creatingStack : RemoteStack := { createdStack with status := "CREATE_IN_PROGRESS" }

def updatingStack : RemoteStack := { createdStack with status := "UPDATE_IN_PROGRESS" }

def observedResource : Resource := Refresh.merged createdResource createdStack []

def changedResource : Resource := revise observedResource (observedResource.withSpec (webSpec "u"))

def updatedResource : Resource :=
  Refresh.merged (submittedAs plainPolicy changedResource) updatedStack []

/-- A spec with an empty role, which counts as none. -/
def emptyRoleSpec : Spec := { webSpec "u" with role := some "" }

/-- The resource after an empty role was declared. -/
def emptyRoleResource : Resource := revise updatedResource (updatedResource.withSpec emptyRoleSpec)

theorem appliedHash_changedResource :
    changedResource.status.appliedHash ≠ Fingerprint.ofResource plainPolicy changedResource := by
  have hold : changedResource.status.appliedHash =
      Fingerprint.ofResource plainPolicy newResource := by
    simp only [changedResource, revise, observedResource, Refresh.merged, Resource.withStatus,
      Status.merge, createdResource, createdAs, Resource.withAppliedHash]
  have hnew : Fingerprint.ofResource plainPolicy changedResource =
      Fingerprint.ofResource plainPolicy editedResource := Fingerprint.ofResource_congr rfl rfl
  exact fun h => ofResource_newResource_ne (hold.symm.trans (h.trans hnew))

theorem appliedHash_emptyRoleResource :
    emptyRoleResource.status.appliedHash = Fingerprint.ofResource plainPolicy emptyRoleResource := by
  have hold : emptyRoleResource.status.appliedHash =
      Fingerprint.ofResource plainPolicy changedResource := by
    simp only [emptyRoleResource, revise, updatedResource, Refresh.merged, Resource.withStatus,
      Status.merge, submittedAs, Resource.withAppliedHash]
  have huid : emptyRoleResource.metadata.uid = "u" := rfl
  have hnew : Fingerprint.ofResource plainPolicy emptyRoleResource =
      Fingerprint.ofResource plainPolicy changedResource :=
    Fingerprint.ofResource_of_role_empty rfl rfl (huid.trans rfl)
  exact hold.trans hnew.symm

/-- What the follower keeps once it has followed the creation. -/
def createdWatch : Watch := (Watch.empty.accept webRequest).stop "s1"

/-- What the follower keeps once it has followed the update. -/
def updatedWatch : Watch := (createdWatch.accept webRequest).stop "s1"

def webCreatingLog : Log :=
  creatingLog newResource (.error (.stackNotFound newResource.stackRef)) "s1"

theorem takes_webCreatingLog :
    (Act.pass webCreatingLog (.ok .created)).Takes plainPolicy webLocator
      (webScene newResource none Watch.empty)
      { webScene createdResource (some creatingStack) Watch.empty with
        hub := (Handoff.ofCapacity 1).submit webRequest } := by
  constructor
  · exact (takes_creatingLog (m := onlyStack createdStack (by decide))
      (.error (.stackNotFound newResource.stackRef)) "s1" (by decide) rfl rfl (by decide)
      (by decide) (.inl ⟨_, rfl, rfl⟩) (fun _ => by decide)).1
  · refine ⟨_, serves_read (get_webStore (by decide)), _, serves_notFound rfl rfl, _,
      serves_created (b := creatingStack) _ (by decide) (by decide) ⟨rfl, rfl, ?_⟩, _,
      serves_written (updateStatus_webStore (by decide) rfl rfl), _, serves_submitted _, rfl⟩
    exact fun h => absurd h (by decide)

def webUpdatingLog : Log :=
  [⟨.getResource webLocator, .ok changedResource⟩,
    ⟨.getStack changedResource.stackRef, .ok createdStack⟩,
    ⟨.updateStack (plainPolicy.inputs changedResource (.body "u") "s1"), .ok ()⟩,
    ⟨.updateStatus (submittedAs plainPolicy changedResource), .ok ()⟩,
    ⟨.submit ((submittedAs plainPolicy changedResource).followRequest "s1"), ()⟩]

theorem takes_webUpdatingLog :
    (Act.pass webUpdatingLog (.ok .updated)).Takes plainPolicy webLocator
      (webScene changedResource (some createdStack) createdWatch)
      { webScene (submittedAs plainPolicy changedResource) (some updatingStack) createdWatch with
        hub := (Handoff.ofCapacity 1).submit webRequest } := by
  constructor
  · have hcur : isCurrent plainPolicy changedResource createdStack = false :=
      isCurrent_eq_false_iff.mpr fun h => appliedHash_changedResource h.1
    have hupdate := UpdateLog.accepted (.body "u") (by decide) hcur rfl
      (.recorded (.ok ()) (.inl rfl))
    have hsettle := SettleLog.settled createdStack (by decide) (by decide)
      (by decide) hupdate
    exact (PassLog.read changedResource (.settling rfl (by decide) hsettle)).ran
  · refine ⟨_, serves_read (get_webStore (by decide)), _, serves_found rfl (by decide), _,
      serves_updated (c := updatingStack) rfl (by decide) rfl ⟨rfl, rfl, ?_⟩, _,
      serves_written (updateStatus_webStore (by decide) rfl rfl), _, serves_submitted _, rfl⟩
    exact fun h => absurd h (by decide)

def webCurrentLog : Log :=
  [⟨.getResource webLocator, .ok emptyRoleResource⟩,
    ⟨.getStack emptyRoleResource.stackRef, .ok updatedStack⟩, ⟨.getMembers "s1", .ok []⟩]

theorem takes_webCurrentLog :
    (Act.pass webCurrentLog (.ok .upToDate)).Takes plainPolicy webLocator
      (webScene emptyRoleResource (some updatedStack) updatedWatch)
      (webScene emptyRoleResource (some updatedStack) updatedWatch) := by
  constructor
  · have hcur : isCurrent plainPolicy emptyRoleResource updatedStack = true := by
      rw [isCurrent, appliedHash_emptyRoleResource, beq_self_eq_true]
      decide
    have hrefresh := Refresh.RefreshLog.noNews (r := emptyRoleResource) (s := updatedStack) []
      (by decide)
    have hupdate := UpdateLog.current (.body "u") (by decide) hcur hrefresh
    have hsettle := SettleLog.settled updatedStack (by decide) (by decide)
      (by decide) hupdate
    exact (PassLog.read emptyRoleResource (.settling rfl (by decide) hsettle)).ran
  · exact ⟨_, serves_read (get_webStore (by decide)), _, serves_found rfl (by decide), _,
      serves_members _ _, rfl⟩

/-- The acts that bring the resource to its stack. -/
def webActs : List Act :=
  .pass webCreatingLog (.ok .created) :: settlingActs createdResource createdStack

/-- A round in which the template is changed. -/
def webChange : Round where
  spec := webSpec "u"
  edited := webScene changedResource (some createdStack) createdWatch
  acts := .pass webUpdatingLog (.ok .updated) ::
    settlingActs (submittedAs plainPolicy changedResource) updatedStack
  settled := webScene updatedResource (some updatedStack) updatedWatch

/-- A round in which an empty role is declared. -/
def webRepetition : Round where
  spec := emptyRoleSpec
  edited := webScene emptyRoleResource (some updatedStack) updatedWatch
  acts := [.pass webCurrentLog (.ok .upToDate), .tick 30 [] ⟨0, 0, 0⟩]
  settled := webScene emptyRoleResource (some updatedStack) updatedWatch

theorem takes_webActs : Chain (Act.Takes plainPolicy webLocator)
    (webScene newResource none Watch.empty) webActs
    (webScene observedResource (some createdStack) createdWatch) := by
  refine ⟨_, takes_webCreatingLog, takes_settlingActs (by decide) rfl rfl ?_ (by decide)
    (by decide) (by decide)⟩
  exact .goes (by decide) ⟨rfl, rfl, fun _ => .inl rfl⟩ rfl

theorem edit_webScene {b : Option RemoteStack} {w : Watch} (spec : Spec)
    (hg : r.metadata.generation ≤ maxGeneration) (hl : r.locator = webLocator)
    (hm : r.isMarked = false) :
    webScene (revise r (r.withSpec spec)) b w = { webScene r b w with
      store := ((webScene r b w).store.update (r.withSpec spec)).2 } := by
  have h := (takes_edit spec hg hl hm).2
  rw [webScene, webScene]
  exact congrArg (fun x => Scene.mk x b (Handoff.ofCapacity 1) w) h.symm

theorem takes_webChange : webChange.Takes plainPolicy webLocator
    (webScene observedResource (some createdStack) createdWatch)
    (webScene updatedResource (some updatedStack) updatedWatch) := by
  have hone : webChange.spec.HasOneTemplate :=
    Spec.hasOneTemplate_iff.mpr ⟨.body "u", by decide⟩
  refine ⟨⟨hone, rfl⟩, ⟨observedResource, get_webStore (by decide), ?_⟩, ?_, ?_, rfl⟩
  · exact edit_webScene _ (by decide) rfl rfl
  · refine ⟨_, takes_webUpdatingLog, takes_settlingActs (by decide) rfl rfl ?_ (by decide)
      (by decide) (by decide)⟩
    exact .goes (by decide) ⟨rfl, rfl, fun _ => .inr rfl⟩ rfl
  · exact ⟨updatedStack, rfl, .inr rfl⟩

theorem takes_webRepetition : webRepetition.Takes plainPolicy webLocator
    (webScene updatedResource (some updatedStack) updatedWatch)
    (webScene emptyRoleResource (some updatedStack) updatedWatch) := by
  have hone : webRepetition.spec.HasOneTemplate :=
    Spec.hasOneTemplate_iff.mpr ⟨.body "u", by decide⟩
  refine ⟨⟨hone, rfl⟩, ⟨updatedResource, get_webStore (by decide), ?_⟩, ?_, ?_, rfl⟩
  · exact edit_webScene _ (by decide) rfl rfl
  · have hnone : updatedWatch.registry.entries = [] := by decide
    exact ⟨_, takes_webCurrentLog, _, ⟨[], by rw [webScene, hnone], ⟨rfl, rfl⟩, rfl⟩, rfl⟩
  · exact ⟨updatedStack, rfl, .inr rfl⟩

/-- The stack is created, updated for the change of the template, and left alone when an empty role
is declared, which leaves the hash as it is. -/
theorem created_and_updated_once :
    mutationsOf webActs = [creation plainPolicy newResource (.body "t")] ∧
      mutationsOf webChange.acts =
        [.updateStack (plainPolicy.inputs changedResource (.body "u") "s1")] ∧
      mutationsOf webRepetition.acts = [] := by
  have hbody : newResource.spec.templateSource? = some (.body "t") := by decide
  have hfresh : Fresh webLocator newResource (webScene newResource none Watch.empty) := by
    refine ⟨⟨get_webStore (by decide), rfl, isReplaceable_webStore _⟩, rfl, rfl, rfl, ?_⟩
    exact ⟨by simp [webScene, Handoff.ofCapacity, Handoff.toList],
      by simp [webScene, Watch.empty, Registry.empty]⟩
  have hchain : Chain (Round.Takes plainPolicy webLocator)
      (webScene observedResource (some createdStack) createdWatch) [webChange, webRepetition]
      (webScene emptyRoleResource (some updatedStack) updatedWatch) :=
    ⟨_, takes_webChange, _, takes_webRepetition, rfl⟩
  obtain ⟨⟨t, ht, hcreated, -⟩, -, hrounds⟩ :=
    convergence ⟨rfl, rfl⟩ ⟨Spec.hasOneTemplate_iff.mpr ⟨_, hbody⟩, rfl⟩ hfresh takes_webActs
      ⟨createdStack, rfl, .inl rfl⟩ hchain
  cases hbody.symm.trans ht
  obtain ⟨r, t, hchange⟩ := hrounds webChange (by simp)
  obtain ⟨r', t', hsame⟩ := hrounds webRepetition (by simp)
  cases (get_webStore (r := changedResource) (by decide)).symm.trans hchange.stored
  cases (get_webStore (r := emptyRoleResource) (by decide)).symm.trans hsame.stored
  obtain rfl : t = .body "u" := Option.some.inj (hchange.template.symm.trans (by decide))
  refine ⟨hcreated, hchange.changed (by decide) appliedHash_changedResource, ?_⟩
  rcases hsame.unchanged appliedHash_emptyRoleResource with hnone | ⟨-, spec, hspec, -, htags⟩
  · exact hnone
  · -- All specs of the run declare the same tags.
    refine absurd ?_ htags
    simp only [List.mem_cons, List.map_cons, List.map_nil, List.not_mem_nil, or_false] at hspec
    rcases hspec with rfl | rfl | rfl <;> rfl

end

end Scene
end StackKeeper
