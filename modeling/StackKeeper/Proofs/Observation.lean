import StackKeeper.Resource.Merge
/-!
# What a merged observation leaves

Once an observation is merged it brings no news a second time, and one that brings no news would not
have changed the status. The id of a status is never lost: it is that of the observation, or the
old one where the observation has none.

Results:
* `isNews_merge`: a merged observation brings no news.
* `merge_of_not_isNews`: an observation without news changes nothing.
* `stackId_merge`: the id after a merge.
-/
namespace StackKeeper.Status

variable {st : Status} {s : RemoteStack} {members : List Member}

theorem stackId_merge (st : Status) (s : RemoteStack) (members : List Member) :
    (st.merge s members).stackId = if s.id = "" then st.stackId else s.id := by
  simp only [merge, isNewId, Bool.and_eq_true, bne_iff_ne, ne_eq]
  by_cases hid : s.id = ""
  · rw [if_pos hid, if_neg fun h => h.1 hid]
  · by_cases hnew : s.id = st.stackId
    · rw [if_neg hid, if_neg fun h => h.2 hnew, hnew]
    · rw [if_neg hid, if_pos ⟨hid, hnew⟩]

theorem isNewId_merge (st : Status) (s : RemoteStack) (members : List Member) :
    (st.merge s members).isNewId s = false := by
  rw [isNewId, stackId_merge]
  by_cases hid : s.id = "" <;> simp [hid]

theorem areNewOutputs_merge (st : Status) (s : RemoteStack) (members : List Member) :
    (st.merge s members).areNewOutputs s = false := by
  cases h : st.areNewOutputs s with
  | true =>
    have hout : (st.merge s members).outputs = s.outputs := by simp [merge, h]
    rw [areNewOutputs, hout]
    simp
  | false =>
    have hout : (st.merge s members).outputs = st.outputs := by simp [merge, h]
    rw [areNewOutputs, hout]
    exact h

theorem isNews_merge (st : Status) (s : RemoteStack) (members : List Member) :
    (st.merge s members).isNews s members = false := by
  have hstatus : (st.merge s members).isNewStatus s = false := by simp [isNewStatus, merge]
  rw [isNews, hstatus, isNewId_merge, areNewOutputs_merge]
  simp [merge]

theorem merge_of_not_isNews (h : st.isNews s members = false) : st.merge s members = st := by
  simp only [isNews, Bool.or_eq_false_iff, bne_eq_false_iff_eq] at h
  obtain ⟨⟨⟨⟨hstatus, hid⟩, hout⟩, hrole⟩, hmembers⟩ := h
  have hs : s.status = st.stackStatus := by simpa [isNewStatus] using hstatus
  simp [merge, hstatus, hid, hout, hrole, hmembers, hs]

end StackKeeper.Status
