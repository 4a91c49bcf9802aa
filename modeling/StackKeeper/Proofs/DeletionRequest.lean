import StackKeeper.Proofs.Declaration
/-!
# What a request for deletion leaves and says

A request marks a resource that is not marked yet, and removes it then and there if it has no
finalizers. What it says goes by the finalizers of the operator alone. So the two part ways over a
resource that somebody else keeps, and over a marked one that nothing keeps any longer: both are said
to be deleted and stay stored.

Results:
* `leaves_of_requestDeletion`: what is stored after an accepted request.
* `requestDeletion_again`: a request that follows changes nothing and is answered alike.
* `message_inj`: the output tells messages apart.
* `deletion_told_iff`: the command, and when what it says of the document is true.
* `said_deleted_while_kept`: a resource that is said to be deleted and stays stored.
-/
namespace StackKeeper

namespace Store

variable {s s' : Store} {l : Locator} {r r' : Resource} {now now' : Instant} {d : Deletion}

theorem base_update (s : Store) (r : Resource) : (s.update r).2.base = s.base := by
  rw [update]
  split
  · rfl
  · dsimp only
    split <;> rw [perform_snd]

/-- Marking is all that an update with the mark does. -/
theorem revise_marked (hm : r.isMarked = false) : revise r (r.marked now) = r.marked now := by
  have hnone : r.metadata.deletion = none := by simpa [Resource.isMarked] using hm
  simp [revise, Resource.marked, hnone]

theorem isReleased_marked : isReleased (r.marked now) = true ↔ r.metadata.finalizers = [] := by
  simp [isReleased, Resource.isMarked, Resource.marked]

/-- What an accepted request for the deletion of a stored resource leaves. -/
inductive Leaves (s : Store) (l : Locator) (r : Resource) (now : Instant) (s' : Store) : Prop
  | untouched (hm : r.isMarked = true) (hs : s' = s)
  | removed (hm : r.isMarked = false) (hf : r.metadata.finalizers = [])
    (hget : s'.get l = .error (.resourceNotFound l.text))
  | marked (hm : r.isMarked = false) (hf : r.metadata.finalizers ≠ [])
    (hget : s'.get l = .ok (r.marked now))

theorem leaves_of_requestDeletion (hget : s.get l = .ok r) (hown : r.locator = l)
    (h : s.requestDeletion l now = (.ok d, s')) :
    d = r.deletionOutcome ∧ s'.base = s.base ∧ Leaves s l r now s' := by
  cases hm : r.isMarked with
  | true =>
    cases (requestDeletion_of_marked hget hm).symm.trans h
    exact ⟨rfl, rfl, .untouched hm rfl⟩
  | false =>
    rw [requestDeletion, hget] at h
    simp only [hm, Bool.false_eq_true, if_false] at h
    split at h
    · rename_i s₁ hupdate
      cases h
      have hbase := base_update s (r.marked now)
      rw [hupdate] at hbase
      obtain ⟨-, hread⟩ := get_of_update_ok (r := r.marked now) hget hown hown hupdate
      rw [revise_marked hm] at hread
      by_cases hf : r.metadata.finalizers = []
      · rw [if_pos (isReleased_marked.mpr hf)] at hread
        exact ⟨rfl, hbase, .removed hm hf hread⟩
      · rw [if_neg (mt isReleased_marked.mp hf)] at hread
        exact ⟨rfl, hbase, .marked hm hf hread⟩
    · cases h

namespace Leaves

theorem gone_or_marked (h : Leaves s l r now s') (hget : s.get l = .ok r) :
    s'.get l = .error (.resourceNotFound l.text) ∨
      ∃ r', s'.get l = .ok r' ∧ r'.isMarked = true ∧ r'.deletionOutcome = r.deletionOutcome := by
  cases h with
  | untouched hm hs =>
    subst hs
    exact .inr ⟨r, hget, hm, rfl⟩
  | removed hm hf hread => exact .inl hread
  | marked hm hf hread => exact .inr ⟨r.marked now, hread, rfl, rfl⟩

theorem gone_iff (h : Leaves s l r now s') (hget : s.get l = .ok r) :
    s'.get l = .error (.resourceNotFound l.text) ↔
      r.isMarked = false ∧ r.metadata.finalizers = [] := by
  cases h with
  | untouched hm hs => simp [hs, hget, hm]
  | removed hm hf hread => simp [hread, hm, hf]
  | marked hm hf hread => simp [hread, hf]

end Leaves

/-- A request that follows changes nothing and is answered alike. -/
theorem requestDeletion_again (h : Leaves s l r now s') (hget : s.get l = .ok r)
    (hget' : s'.get l = .ok r') : s'.requestDeletion l now' = (.ok r.deletionOutcome, s') := by
  rcases h.gone_or_marked hget with hgone | ⟨r₁, hr₁, hm, hsame⟩
  · cases hgone.symm.trans hget'
  · rw [requestDeletion_of_marked hr₁ hm, hsame]

end Store

namespace Output

/-- A message can be read off the output. -/
theorem message_inj {style : Style} {m m' : String} (h : message style m = message style m') :
    m = m' := by
  unfold message at h
  split at h
  · have hplain : ∀ m, (Json.obj [("message", .str m), ("status", .str "success")]).IsPlain := by
      simp [Json.IsPlain, Json.HasPlainFields]
    have hread := congrArg Json.ofText? h
    rw [Json.ofText?_pretty (hplain m), Json.ofText?_pretty (hplain m')] at hread
    cases hread
    rfl
  · have hchars := congrArg String.toList h
    simp only [String.toList_append] at hchars
    exact String.toList_inj.mp (List.append_cancel_left hchars)

end Output

namespace Session
open Store

variable {s : Session} {c : Config} {f : Output.Format} {value said : String} {l : Locator}
  {r : Resource} {files : FileTree}

/-- What the command says of a request for deletion that was accepted. -/
def deletionReport (s : Session) (f : Output.Format) (l : Locator) (d : Deletion) : String :=
  Output.message (s.style f) (deletionText l d) ++ "\n"

theorem deletionText_ne (l : Locator) : deletionText l .requested ≠ deletionText l .deleted := by
  intro h
  have htext : "Deletion of " ++ l.text ++ " requested, the operator will remove its stack" =
      "Stack resource " ++ l.text ++ " deleted" := h
  have hhead := congrArg (fun t => t.toList.head?) htext
  simp [String.toList_append] at hhead

theorem deletionReport_inj {d d' : Deletion} :
    s.deletionReport f l d = s.deletionReport f l d' ↔ d = d' := by
  constructor
  · intro h
    have hchars := congrArg String.toList h
    simp only [deletionReport, String.toList_append] at hchars
    have htext : deletionText l d = deletionText l d' :=
      Output.message_inj (String.toList_inj.mp (List.append_cancel_right hchars))
    cases d with
    | requested =>
      cases d' with
      | requested => rfl
      | deleted => exact absurd htext (deletionText_ne l)
    | deleted =>
      cases d' with
      | requested => exact absurd htext.symm (deletionText_ne l)
      | deleted => rfl
  · rintro rfl
    rfl

theorem delete_of_ofText? (hl : Locator.ofText? value = some l) :
    s.delete c f value = (((s.store c).requestDeletion l s.now).1.map (s.deletionReport f l),
      ((s.store c).requestDeletion l s.now).2.files) := by
  rw [delete, locator, hl]
  rfl

def leaving (s : Session) (files : FileTree) : Session := { s with files := files }

@[simp] theorem store_leaving : (s.leaving files).store c = ⟨(s.store c).base, files⟩ := rfl

/-- A command that was accepted made a request that was accepted, and says what became of it. -/
theorem leaves_of_delete (hl : Locator.ofText? value = some l)
    (hget : (s.store c).get l = .ok r) (hown : r.locator = l)
    (h : s.delete c f value = (.ok said, files)) :
    said = s.deletionReport f l r.deletionOutcome ∧
      Leaves (s.store c) l r s.now ((s.leaving files).store c) := by
  rw [delete_of_ofText? hl] at h
  rcases hrequest : (s.store c).requestDeletion l s.now with ⟨answer, next⟩
  rw [hrequest] at h
  cases answer with
  | error e => cases h
  | ok d =>
    obtain ⟨rfl, hbase, hleaves⟩ := leaves_of_requestDeletion hget hown hrequest
    cases h
    rw [store_leaving, ← hbase]
    exact ⟨rfl, hleaves⟩

/-- The command that is accepted over a document naming its own locator. The resource is marked or gone
afterwards, and a mark that was there stays as it was. That it is deleted is said exactly if the
document is gone, provided that a finalizer of the operator keeps the resource, or that it was not
marked and nothing kept it; in all other cases it is said while the document is still there. A command
that finds the resource once more changes nothing and says the same. -/
theorem deletion_told_iff (hl : Locator.ofText? value = some l)
    (hget : (s.store c).get l = .ok r) (hown : r.locator = l)
    (h : s.delete c f value = (.ok said, files)) :
    let next := (s.leaving files).store c
    (next.get l = .error (.resourceNotFound l.text) ∨
        ∃ r', next.get l = .ok r' ∧ r'.isMarked = true) ∧
      (∀ t, r.metadata.deletion = some t →
        ∃ r', next.get l = .ok r' ∧ r'.metadata.deletion = some t) ∧
      ((said = s.deletionReport f l .deleted ↔
          next.get l = .error (.resourceNotFound l.text)) ↔
        r.hasStackFinalizer = true ∨ (r.isMarked = false ∧ r.metadata.finalizers = [])) ∧
      ∀ r', next.get l = .ok r' →
        ∀ (s' : Session) (c' : Config) (f' : Output.Format) (value' : String),
          s'.store c' = next → Locator.ofText? value' = some l →
          s'.delete c' f' value' =
            (.ok (s'.deletionReport f' l r.deletionOutcome), s'.files) := by
  intro next
  obtain ⟨hsaid, hleaves⟩ := leaves_of_delete hl hget hown h
  have hleaves : Leaves (s.store c) l r s.now next := hleaves
  refine ⟨?_, ?_, ?_, ?_⟩
  · exact (hleaves.gone_or_marked hget).imp_right fun ⟨r', hr', hm, _⟩ => ⟨r', hr', hm⟩
  · intro t ht
    cases hleaves with
    | untouched hm hs => exact ⟨r, hs ▸ hget, ht⟩
    | removed hm hf hread => simp [Resource.isMarked, ht] at hm
    | marked hm hf hread => simp [Resource.isMarked, ht] at hm
  · rw [hleaves.gone_iff hget, hsaid, deletionReport_inj, Resource.deletionOutcome]
    cases hf : r.hasStackFinalizer with
    | true =>
      -- Then there is a finalizer, so the document stays.
      have hne : r.metadata.finalizers ≠ [] := fun hnil => by
        simp [Resource.hasStackFinalizer, Resource.hasFinalizer, hnil] at hf
      simp [hne]
    | false => simp
  · intro r' hr' s' c' f' value' hs' hl'
    rw [delete_of_ofText? hl', hs', requestDeletion_again hleaves hget hr', ← hs']
    rfl

/-! ## A resource that stays -/

/-- The document of an unmarked resource with a finalizer gets the mark. -/
theorem delete_withDocument (hg : r.metadata.generation ≤ maxGeneration)
    (hown : r.locator = (declared "web").locator) (hm : r.isMarked = false)
    (hf : r.metadata.finalizers ≠ []) :
    (withDocument (Document.text r)).delete storedHere .text "default/web" =
      (.ok ((withDocument (Document.text r)).deletionReport .text (declared "web").locator
          r.deletionOutcome),
        ((withDocument (Document.text (r.marked leapSecond))).store storedHere).files) := by
  have hl : Locator.ofText? "default/web" = some (declared "web").locator := by decide
  have hget := get_withDocument (r := r) hg
  have hbase : ((withDocument (Document.text r)).store storedHere).base =
      ["/", "work", "state"] := by rw [store_withDocument]
  have hupdate : ((withDocument (Document.text r)).store storedHere).update (r.marked leapSecond) =
      (.ok (), (withDocument (Document.text (r.marked leapSecond))).store storedHere) := by
    rw [update_of_incarnation (incarnation_of_get (r := r.marked leapSecond) hget hown rfl),
      revise_marked hm,
      if_neg (mt isReleased_marked.mp hf), hbase,
      perform_withDocument (r := r.marked leapSecond) _ hown]
  have hrequest : ((withDocument (Document.text r)).store storedHere).requestDeletion
      (declared "web").locator leapSecond = (.ok r.deletionOutcome,
        (withDocument (Document.text (r.marked leapSecond))).store storedHere) := by
    simp [requestDeletion, hget, hm, hupdate]
  have hnow : (withDocument (Document.text r)).now = leapSecond := rfl
  rw [delete_of_ofText? hl, hnow, hrequest]
  rfl

/-- A resource with a finalizer of the operator is said to be going, and stays. -/
theorem deletion_told_earlierResource :
    let s := withDocument (Document.text earlierResource)
    ∃ said files, s.delete storedHere .text "default/web" = (.ok said, files) ∧
      (said = s.deletionReport .text (declared "web").locator .deleted ↔
        ((s.leaving files).store storedHere).get (declared "web").locator =
          .error (.resourceNotFound (declared "web").locator.text)) := by
  intro s
  have hg : earlierResource.metadata.generation ≤ maxGeneration := Nat.le_refl _
  have hdelete := delete_withDocument (r := earlierResource) hg rfl rfl (by decide)
  obtain ⟨-, -, htold, -⟩ :=
    deletion_told_iff (by decide) (get_withDocument hg) rfl hdelete
  exact ⟨_, _, hdelete, htold.mpr (.inl (by decide))⟩

/-- A resource that somebody else keeps. -/
def keptElsewhere : Resource where
  metadata := ⟨"web", "default", "uid-7", 1, none, none, ["example.com/hold"]⟩
  spec := { Spec.empty with template := some "t" }
  status := Status.empty

/-- It is said to be deleted, and its document is there with the mark. -/
theorem said_deleted_while_kept :
    let s := withDocument (Document.text keptElsewhere)
    ∃ files, s.delete storedHere .text "default/web" =
        (.ok (s.deletionReport .text (declared "web").locator .deleted), files) ∧
      ((s.leaving files).store storedHere).get (declared "web").locator =
        .ok (keptElsewhere.marked leapSecond) := by
  intro s
  have hg : keptElsewhere.metadata.generation ≤ maxGeneration := by decide
  have hdelete := delete_withDocument (r := keptElsewhere) hg rfl rfl (by decide)
  refine ⟨_, hdelete, ?_⟩
  have hread := get_withDocument (r := keptElsewhere.marked leapSecond) hg
  rw [store_leaving, store_withDocument]
  rw [store_withDocument] at hread
  exact hread

end Session
end StackKeeper
