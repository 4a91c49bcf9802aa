import StackKeeper.Stack.Remote
/-!
# Merging an observation into a status

A status takes over what was observed of its stack. The two times follow the lifecycle status and
are only refreshed when it changes, an empty id or an empty map of outputs never replaces what is
known, and the recorded hash is left alone. A merge says whether it changed anything, so that nothing
is written for an observation that brings no news.
-/
namespace StackKeeper.Status

/-- The role of an observed stack; none is the empty one. -/
def observedRole (s : RemoteStack) : String := s.role.getD ""

def isNewStatus (st : Status) (s : RemoteStack) : Bool := s.status != st.stackStatus

def isNewId (st : Status) (s : RemoteStack) : Bool := s.id != "" && s.id != st.stackId

def areNewOutputs (st : Status) (s : RemoteStack) : Bool :=
  !s.outputs.isEmpty && s.outputs != st.outputs

def isNews (st : Status) (s : RemoteStack) (members : List Member) : Bool :=
  st.isNewStatus s || st.isNewId s || st.areNewOutputs s || observedRole s != st.role ||
    members != st.members

/-- The status after an observation. -/
def merge (st : Status) (s : RemoteStack) (members : List Member) : Status where
  stackId := if st.isNewId s then s.id else st.stackId
  stackStatus := s.status
  created := if st.isNewStatus s then s.created else st.created
  updated := if st.isNewStatus s then s.updated.or st.updated else st.updated
  outputs := if st.areNewOutputs s then s.outputs else st.outputs
  role := observedRole s
  members := members
  appliedHash := st.appliedHash

end StackKeeper.Status
