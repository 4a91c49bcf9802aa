import StackKeeper.Cli.Commands
import StackKeeper.Proofs.FailedWrites
import StackKeeper.Proofs.Reachable
/-!
# What a declaration changes

A manifest decides over the spec of its resource and over nothing else, whatever else it says. A new
resource gets what belongs to the store and the operator from them alone; of a stored one the spec is
replaced, and its generation counts the change. A second declaration of the same spec finds it stored
and does nothing.

Results:
* `apply_eq_declare`: the command does what a declaration does to a world, and says so.
* `declares`: what a declaration leaves, for each state of its locator.
* `apply_owns_spec`: the same of the command, with its repetition.
* `stray_not_configured`: a document that names another locator than its own is not declared over.
-/
namespace StackKeeper

namespace Resource

/-- The resource with a declared spec; a change of it counts up the generation. -/
def redeclared (r : Resource) (spec : Spec) : Resource where
  metadata :=
    { r.metadata with
      generation :=
        if r.spec = spec then r.metadata.generation
        else min (r.metadata.generation + 1) maxGeneration }
  spec := spec
  status := r.status

/-- The new resource of a declaration, which gives it its name and its spec. -/
def newborn (r : Resource) (uid : String) (now : Instant) : Resource where
  metadata := ⟨r.metadata.name, r.metadata.ns, uid, 1, some now, none, []⟩
  spec := r.spec
  status := Status.empty

variable {r : Resource} {spec : Spec}

@[simp] theorem isMarked_redeclared : (r.redeclared spec).isMarked = r.isMarked := rfl

theorem redeclared_self : r.redeclared r.spec = r := by simp [redeclared]

end Resource

namespace Store

variable {s s' : Store} {r stored : Resource} {uid : String} {now : Instant}

theorem revise_withSpec (stored : Resource) (spec : Spec) :
    revise stored (stored.withSpec spec) = stored.redeclared spec := by
  rw [revise, Resource.withSpec, Option.or_self]
  rfl

theorem apply_of_update (hget : s.get r.locator = .ok stored) (hm : stored.isMarked = false)
    (hs : stored.spec ≠ r.spec) {answer : Except Error Unit}
    (hu : s.update (stored.withSpec r.spec) = (answer, s')) :
    s.apply r uid now = (answer.map fun _ => .configured, s') := by
  cases answer <;> simp [apply, hget, hm, hs, hu, Except.map]

/-- Steps that fail are a failure of the file system. -/
theorem perform_cases (s : Store) (steps : List FileTree.Step) :
    (∃ s', s.perform steps = (.ok (), s')) ∨
      ∃ reason s', s.perform steps = (.error (.storeIo reason), s') := by
  rw [perform]
  split
  · exact .inl ⟨_, rfl⟩
  · rename_i step f files _
    obtain ⟨reason, hreason⟩ := exists_failure f.text step
    exact .inr ⟨reason, _, by rw [hreason]⟩

end Store

namespace World
open Store

variable {x x' : World} {r stored : Resource} {uid : String} {now : Instant}

/-- Keeps a declared resource; a write to the store publishes the change. -/
def declare (x : World) (r : Resource) (uid : String) (now : Instant) :
    Except Error Applied × World :=
  match x.store.get r.locator with
  | .ok stored =>
    if stored.isMarked then
      (.error (.internal ("Stack resource " ++ r.locator.text ++ " is being deleted")), x)
    else if stored.spec = r.spec then (.ok .unchanged, x)
    else
      let (answer, x) := x.take (.update (stored.withSpec r.spec))
      (answer.map fun _ => .configured, x)
  | .error e =>
    if e.isNotFound then
      let (answer, x) := x.take (.create r.declaration uid now)
      (answer.map fun _ => .created, x)
    else (.error e, x)

/-- Both answer alike and leave the same store. -/
theorem declare_eq_apply (x : World) (r : Resource) (uid : String) (now : Instant) :
    (x.declare r uid now).1 = (x.store.apply r uid now).1 ∧
      (x.declare r uid now).2.store = (x.store.apply r uid now).2 := by
  rw [declare, Store.apply]
  cases x.store.get r.locator with
  | ok stored =>
    dsimp only
    split
    · exact ⟨rfl, rfl⟩
    · split
      · exact ⟨rfl, rfl⟩
      · rw [take_eq_afterWrite, Store.take]
        rcases x.store.update (stored.withSpec r.spec) with ⟨_ | _, s⟩ <;> exact ⟨rfl, rfl⟩
  | error e =>
    dsimp only
    split
    · rw [take_eq_afterWrite, Store.take]
      rcases x.store.create r.declaration uid now with ⟨_ | _, s⟩ <;> exact ⟨rfl, rfl⟩
    · exact ⟨rfl, rfl⟩

/-- A change of the resource was published. -/
def Announces (x : World) (l : Locator) (x' : World) : Prop :=
  x'.feed = x.feed.publish l ∧ x'.published = l :: x.published

/-- A write that is about to write a document is read back and published, unless the file system
fails. -/
theorem take_of_plan {w : Write} (hplan : x.store.plan w = .ok (writeSteps x.store.base r))
    (hg : r.metadata.generation ≤ maxGeneration) :
    (∃ x', x.take w = (.ok (), x') ∧ x'.store.get r.locator = .ok r ∧ x.Announces w.locator x') ∨
      ∃ reason x', x.take w = (.error (.storeIo reason), x') := by
  rw [take_eq_afterWrite, take_eq_plan, hplan]
  dsimp only
  rcases perform_cases x.store (writeSteps x.store.base r) with ⟨s', hs'⟩ | ⟨reason, s', hs'⟩
  · rw [hs']
    exact .inl ⟨_, rfl, get_of_written hg hs', rfl, rfl⟩
  · rw [hs']
    exact .inr ⟨reason, _, rfl⟩

/-! ## What each locator leads to -/

theorem declare_of_free (hget : x.store.get r.locator = .error (.resourceNotFound r.locator.text))
    (hio : ∀ reason, (x.declare r uid now).1 ≠ .error (.storeIo reason)) :
    ∃ x', x.declare r uid now = (.ok .created, x') ∧
      x'.store.get r.locator = .ok (r.newborn uid now) ∧ x.Announces r.locator x' := by
  have hget' : x.store.get r.declaration.locator = .error (.resourceNotFound r.locator.text) := hget
  have hplan : x.store.plan (.create r.declaration uid now) =
      .ok (writeSteps x.store.base (r.newborn uid now)) := by
    rw [plan, hget']
    rfl
  have hdeclare : x.declare r uid now =
      ((x.take (.create r.declaration uid now)).1.map fun _ => .created,
        (x.take (.create r.declaration uid now)).2) := by
    rw [declare, hget]
    rfl
  rw [hdeclare] at hio ⊢
  have hone : (1 : Nat) ≤ maxGeneration := by decide
  rcases take_of_plan hplan hone with ⟨x', hx', hread, hannounced⟩ | ⟨reason, x', hx'⟩
  · exact ⟨x', by rw [hx']; rfl, hread, hannounced⟩
  · exact absurd (by rw [hx']; rfl) (hio reason)

theorem declare_of_same (hget : x.store.get r.locator = .ok stored)
    (hm : stored.isMarked = false) (hs : stored.spec = r.spec) :
    x.declare r uid now = (.ok .unchanged, x) := by
  simp [declare, hget, hm, hs]

theorem declare_of_other (hget : x.store.get r.locator = .ok stored)
    (hown : stored.locator = r.locator) (hm : stored.isMarked = false) (hs : stored.spec ≠ r.spec)
    (hio : ∀ reason, (x.declare r uid now).1 ≠ .error (.storeIo reason)) :
    ∃ x', x.declare r uid now = (.ok .configured, x') ∧
      x'.store.get r.locator = .ok (stored.redeclared r.spec) ∧ x.Announces r.locator x' := by
  have hl : (stored.withSpec r.spec).locator = r.locator := hown
  have hkept : isReleased (stored.redeclared r.spec) = false := by
    rw [isReleased, Resource.isMarked_redeclared, hm, Bool.false_and]
  have hplan : x.store.plan (.update (stored.withSpec r.spec)) =
      .ok (writeSteps x.store.base (stored.redeclared r.spec)) := by
    rw [plan, incarnation_of_get hget hl rfl]
    simp [Except.map, revise_withSpec, hkept]
  have hg : (stored.redeclared r.spec).metadata.generation ≤ maxGeneration := by
    rw [← revise_withSpec]
    exact generation_revise_le (generation_le_of_get hget)
  have hdeclare : x.declare r uid now =
      ((x.take (.update (stored.withSpec r.spec))).1.map fun _ => .configured,
        (x.take (.update (stored.withSpec r.spec))).2) := by
    simp [declare, hget, hm, hs]
  rw [hdeclare] at hio ⊢
  rcases take_of_plan hplan hg with ⟨x', hx', hread, hannounced⟩ | ⟨reason, x', hx'⟩
  · exact ⟨x', by rw [hx']; rfl, hown ▸ hread, hown ▸ hannounced⟩
  · exact absurd (by rw [hx']; rfl) (hio reason)

theorem declare_of_marked (hget : x.store.get r.locator = .ok stored)
    (hm : stored.isMarked = true) : x.declare r uid now =
      (.error (.internal ("Stack resource " ++ r.locator.text ++ " is being deleted")), x) := by
  simp [declare, hget, hm]

theorem declare_of_unreadable {e : Error} (hget : x.store.get r.locator = .error e)
    (he : e.isNotFound = false) : x.declare r uid now = (.error e, x) := by
  simp [declare, hget, he]

/-- What a declaration answers and leaves, and that it has nothing left to do once it is accepted. -/
structure Declares (x : World) (r : Resource) (uid : String) (now : Instant)
    (answer : Except Error Applied) (x' : World) : Prop where
  free : x.store.get r.locator = .error (.resourceNotFound r.locator.text) →
    answer = .ok .created ∧ x'.store.get r.locator = .ok (r.newborn uid now) ∧
      x.Announces r.locator x'
  taken : ∀ stored, x.store.get r.locator = .ok stored → stored.isMarked = false →
    x'.store.get r.locator = .ok (stored.redeclared r.spec) ∧
      if stored.spec = r.spec then answer = .ok .unchanged ∧ x' = x
      else answer = .ok .configured ∧ x.Announces r.locator x'
  marked : ∀ stored, x.store.get r.locator = .ok stored → stored.isMarked = true →
    answer = .error (.internal ("Stack resource " ++ r.locator.text ++ " is being deleted")) ∧
      x' = x
  unreadable : ∀ e, x.store.get r.locator = .error e → e.isNotFound = false →
    answer = .error e ∧ x' = x
  repeated : ∀ a, answer = .ok a → ∀ uid' now', x'.declare r uid' now' = (.ok .unchanged, x')

/-- After an accepted declaration the resource is stored with the declared spec, and not marked. -/
theorem stored_of_declare {a : Applied}
    (hown : ∀ stored, x.store.get r.locator = .ok stored → stored.locator = r.locator)
    (h : x.declare r uid now = (.ok a, x')) :
    ∃ stored, x'.store.get r.locator = .ok stored ∧ stored.isMarked = false ∧
      stored.spec = r.spec := by
  have hio : ∀ reason, (x.declare r uid now).1 ≠ .error (.storeIo reason) := fun reason => by
    rw [h]
    exact nofun
  cases hget : x.store.get r.locator with
  | ok stored =>
    cases hm : stored.isMarked with
    | true => cases (declare_of_marked hget hm).symm.trans h
    | false =>
      by_cases hs : stored.spec = r.spec
      · cases (declare_of_same hget hm hs).symm.trans h
        exact ⟨stored, hget, hm, hs⟩
      · obtain ⟨x₁, hx₁, hread, -⟩ := declare_of_other hget (hown stored hget) hm hs hio
        cases hx₁.symm.trans h
        exact ⟨_, hread, hm, rfl⟩
  | error e =>
    cases he : e.isNotFound with
    | true =>
      obtain ⟨x₁, hx₁, hread, -⟩ := declare_of_free (eq_of_isNotFound hget he ▸ hget) hio
      cases hx₁.symm.trans h
      exact ⟨_, hread, rfl, rfl⟩
    | false => cases (declare_of_unreadable hget he).symm.trans h

theorem declares (hown : ∀ stored, x.store.get r.locator = .ok stored → stored.locator = r.locator)
    (hio : ∀ reason, (x.declare r uid now).1 ≠ .error (.storeIo reason)) :
    x.Declares r uid now (x.declare r uid now).1 (x.declare r uid now).2 where
  free hget := by
    obtain ⟨x', hx', hread, hannounced⟩ := declare_of_free hget hio
    rw [hx']
    exact ⟨rfl, hread, hannounced⟩
  taken stored hget hm := by
    by_cases hs : stored.spec = r.spec
    · rw [declare_of_same hget hm hs, if_pos hs, ← hs, Resource.redeclared_self]
      exact ⟨hget, rfl, rfl⟩
    · obtain ⟨x', hx', hread, hannounced⟩ := declare_of_other hget (hown stored hget) hm hs hio
      rw [hx', if_neg hs]
      exact ⟨hread, rfl, hannounced⟩
  marked stored hget hm := by
    rw [declare_of_marked hget hm]
    exact ⟨rfl, rfl⟩
  unreadable e hget he := by
    rw [declare_of_unreadable hget he]
    exact ⟨rfl, rfl⟩
  repeated a ha uid' now' := by
    obtain ⟨stored, hread, hm, hs⟩ := stored_of_declare hown (Prod.ext ha rfl)
    exact declare_of_same hread hm hs

end World

namespace Session
open Store

variable {s : Session} {c : Config} {f : Output.Format} {named : String} {r : Resource} {x : World}

/-- What the command says of a declaration that was accepted. -/
def reportText (s : Session) (f : Output.Format) (l : Locator) (a : Applied) : String :=
  Output.message (s.style f) (appliedText l a) ++ "\n"

theorem apply_of_manifest (hm : s.manifest named = .ok r) {answer : Except Error Applied}
    {next : Store} (h : (s.store c).apply r s.uid s.now = (answer, next)) :
    s.apply c f named = (answer.map (s.reportText f r.locator), next.files) := by
  rw [apply, hm]
  dsimp only
  rw [h]
  rfl

/-- The command does to the files what the declaration does to a world with its store. -/
theorem apply_eq_declare (hm : s.manifest named = .ok r) (hx : x.store = s.store c) :
    s.apply c f named = ((x.declare r s.uid s.now).1.map (s.reportText f r.locator),
      (x.declare r s.uid s.now).2.store.files) := by
  obtain ⟨hanswer, hstore⟩ := World.declare_eq_apply x r s.uid s.now
  rw [hanswer, hstore, hx]
  exact apply_of_manifest hm rfl

/-- Applying a manifest decides over the spec alone. A free locator gets a new resource of that name
and spec, with the uid of the session and nothing else of the manifest; a stored resource that is not
marked for deletion gets the spec and one generation more if that is another one; a marked one is
left alone and the command fails, as it does when the document cannot be read. Once the command was
accepted, the same manifest is reported unchanged and nothing is written or published. All this for
documents that name the locator they lie at, and without a failure of the file system. -/
theorem apply_owns_spec (hm : s.manifest named = .ok r) (hx : x.store = s.store c)
    (hown : ∀ stored, (s.store c).get r.locator = .ok stored → stored.locator = r.locator)
    (hio : ∀ reason, (s.apply c f named).1 ≠ .error (.storeIo reason)) :
    s.apply c f named = ((x.declare r s.uid s.now).1.map (s.reportText f r.locator),
        (x.declare r s.uid s.now).2.store.files) ∧
      x.Declares r s.uid s.now (x.declare r s.uid s.now).1 (x.declare r s.uid s.now).2 ∧
      ∀ a, (x.declare r s.uid s.now).1 = .ok a →
        ∀ (s' : Session) (c' : Config) (f' : Output.Format) (named' : String),
          s'.manifest named' = .ok r → s'.store c' = (x.declare r s.uid s.now).2.store →
          s'.apply c' f' named' = (.ok (s'.reportText f' r.locator .unchanged), s'.files) := by
  have happly := apply_eq_declare (f := f) hm hx
  have hdeclares : x.Declares r s.uid s.now (x.declare r s.uid s.now).1
      (x.declare r s.uid s.now).2 :=
    World.declares (hx ▸ hown) fun reason h => hio reason (by rw [happly, h]; rfl)
  refine ⟨happly, hdeclares, fun a ha s' c' f' named' hm' hx' => ?_⟩
  rw [apply_eq_declare hm' hx'.symm, hdeclares.repeated a ha, ← hx']
  rfl

/-! ## A declaration of a stored resource -/

/-- A session in a directory with a manifest, whose resource has a document of the given text. -/
def withDocument (text : String) : Session :=
  { withManifest "web" with
    files := ⟨[(["/", "work", "state", "default", "web.json"], .file text),
      (["/", "work", "state", "default"], .directory), (["/", "work", "state"], .directory)] ++
      (withManifest "web").files.entries⟩ }

/-- What a manifest declares is in its text alone. -/
theorem manifest_congr {s' : Session}
    (h : s.files.source s.directory named = s'.files.source s'.directory named) :
    s.manifest named = s'.manifest named := by
  rw [manifest, manifest, Manifest.load, Manifest.load, h]

theorem manifest_withDocument (text : String) :
    (withDocument text).manifest "stack.yaml" = .ok (declared "web") := by
  rw [← manifest_web]
  have hpath : Path.under ["/", "work"] (FileTree.namedPath "stack.yaml") =
      ["/", "work", "stack.yaml"] := by decide
  have hfind : (withDocument text).files.find ["/", "work", "stack.yaml"] =
      (withManifest "web").files.find ["/", "work", "stack.yaml"] := rfl
  refine manifest_congr ?_
  show FileTree.source _ ["/", "work"] _ = FileTree.source _ ["/", "work"] _
  rw [FileTree.source, FileTree.source, hpath, hfind]

theorem store_withDocument (text : String) : (withDocument text).store storedHere =
    ⟨["/", "work", "state"], (withDocument text).files⟩ := by
  have hstate : (withDocument text).stateDirectory storedHere = "state" := rfl
  have hunder : Path.under ["/", "work"] (Path.ofText "state") = ["/", "work", "state"] := by decide
  rw [store, hstate]
  show (⟨Path.under ["/", "work"] (Path.ofText "state"), _⟩ : Store) = _
  rw [hunder]

theorem get_withDocument (hg : r.metadata.generation ≤ maxGeneration) :
    ((withDocument (Document.text r)).store storedHere).get (declared "web").locator = .ok r := by
  have hpath : documentPath ["/", "work", "state"] (declared "web").locator =
      ["/", "work", "state", "default", "web.json"] := by decide
  refine get_eq_ok_iff.mpr ⟨Document.text r, ?_, Document.ofText?_text hg⟩
  rw [store_withDocument, hpath]
  rfl

/-- Writing the document of the resource puts its text in place of the other one. -/
theorem perform_withDocument (old : String) (hl : r.locator = (declared "web").locator) :
    ((withDocument old).store storedHere).perform (writeSteps ["/", "work", "state"] r) =
      (.ok (), (withDocument (Document.text r)).store storedHere) := by
  have hpath : documentPath ["/", "work", "state"] r.locator =
      ["/", "work", "state", "default", "web.json"] := by
    rw [hl]
    decide
  have hname : temporaryName ["/", "work", "state", "default", "web.json"] = "web.tmp" := by decide
  rw [store_withDocument, store_withDocument, writeSteps_eq_replaceSteps, hpath, hname]
  rfl

/-- A stored resource with another spec that the operator works on; it was changed as often as
generations are counted. -/
def earlierResource : Resource where
  metadata := ⟨"web", "default", "uid-7", maxGeneration, none, none, [stackFinalizer]⟩
  spec := { Spec.empty with template := some "u" }
  status := { Status.empty with stackId := "s1" }

theorem update_earlierResource :
    ((withDocument (Document.text earlierResource)).store storedHere).update
      (earlierResource.withSpec (declared "web").spec) =
        (.ok (), (withDocument (Document.text
          (earlierResource.redeclared (declared "web").spec))).store storedHere) := by
  have hget := get_withDocument (r := earlierResource) (Nat.le_refl _)
  have hbase : ((withDocument (Document.text earlierResource)).store storedHere).base =
      ["/", "work", "state"] := by rw [store_withDocument]
  have hl : (earlierResource.withSpec (declared "web").spec).locator = (declared "web").locator := rfl
  have hl' : (earlierResource.redeclared (declared "web").spec).locator =
      (declared "web").locator := rfl
  rw [update_of_incarnation (incarnation_of_get hget hl rfl), revise_withSpec, if_neg (by decide),
    hbase, perform_withDocument _ hl']

/-- It is declared anew. -/
theorem apply_over_earlierResource :
    (withDocument (Document.text earlierResource)).apply storedHere .text "stack.yaml" =
      (.ok ((withDocument (Document.text earlierResource)).reportText .text (declared "web").locator
          .configured),
        ((withDocument (Document.text
          (earlierResource.redeclared (declared "web").spec))).store storedHere).files) :=
  apply_of_manifest (manifest_withDocument _)
    (apply_of_update (get_withDocument (Nat.le_refl _)) rfl (by decide) update_earlierResource)

def worldOf (s : Session) : World :=
  { World.start ⟨TextMap.empty, [], false, 30⟩ 1 none [] with store := s.store storedHere }

theorem spec_alone_over_earlierResource :
    let s := withDocument (Document.text earlierResource)
    s.manifest "stack.yaml" = .ok (declared "web") ∧
      (∀ stored, (s.store storedHere).get (declared "web").locator = .ok stored →
        stored.locator = (declared "web").locator) ∧
      (∀ reason, (s.apply storedHere .text "stack.yaml").1 ≠ .error (.storeIo reason)) ∧
      (s.worldOf.declare (declared "web") s.uid s.now).1 = .ok .configured ∧
      (s.worldOf.declare (declared "web") s.uid s.now).2.store.get (declared "web").locator =
        .ok (earlierResource.redeclared (declared "web").spec) := by
  intro s
  have hm : s.manifest "stack.yaml" = .ok (declared "web") := manifest_withDocument _
  have hget : (s.store storedHere).get (declared "web").locator = .ok earlierResource :=
    get_withDocument (Nat.le_refl _)
  have hown : ∀ stored, (s.store storedHere).get (declared "web").locator = .ok stored →
      stored.locator = (declared "web").locator := fun stored h => by
    cases hget.symm.trans h
    rfl
  have hio : ∀ reason, (s.apply storedHere .text "stack.yaml").1 ≠ .error (.storeIo reason) :=
    fun reason h => by cases (congrArg Prod.fst apply_over_earlierResource).symm.trans h
  obtain ⟨-, hdeclares, -⟩ := apply_owns_spec (x := s.worldOf) hm rfl hown hio
  obtain ⟨hread, hanswer⟩ := hdeclares.taken earlierResource hget rfl
  rw [if_neg (by decide)] at hanswer
  exact ⟨hm, hown, hio, hanswer.1, hread⟩

/-! ## A stray document -/

/-- A document that names another locator than its own is the stored resource of its locator, but it is
not the one that is written: the command fails. -/
theorem stray_not_configured :
    let s := withDocument (Document.text strayResource)
    s.manifest "stack.yaml" = .ok (declared "web") ∧
      (s.store storedHere).get (declared "web").locator = .ok strayResource ∧
      strayResource.isMarked = false ∧
      s.apply storedHere .text "stack.yaml" = (.error (.resourceNotFound "default/api"), s.files) := by
  intro s
  have hm : s.manifest "stack.yaml" = .ok (declared "web") := manifest_withDocument _
  have hg : strayResource.metadata.generation ≤ maxGeneration := by decide
  have hget : (s.store storedHere).get (declared "web").locator = .ok strayResource :=
    get_withDocument hg
  have hpath : documentPath ["/", "work", "state"]
      (strayResource.withSpec (declared "web").spec).locator =
        ["/", "work", "state", "default", "api.json"] := by decide
  have hmissing : (s.store storedHere).get (strayResource.withSpec (declared "web").spec).locator =
      .error (.resourceNotFound "default/api") := by
    rw [store_withDocument]
    refine get_of_missing ?_
    rw [hpath]
    rfl
  have hincarnation : (s.store storedHere).incarnation
      (strayResource.withSpec (declared "web").spec) = .error (.resourceNotFound "default/api") := by
    rw [incarnation, hmissing]
  refine ⟨hm, hget, rfl, ?_⟩
  have hrefused : (s.store storedHere).apply (declared "web") s.uid s.now =
      (.error (.resourceNotFound "default/api"), s.store storedHere) :=
    apply_of_update hget rfl (by decide) (refused_of_incarnation hincarnation).2
  rw [apply_of_manifest hm hrefused, store_withDocument]
  rfl

end Session
end StackKeeper
