import StackKeeper.Config.Reader
import StackKeeper.Rehearsal.Run
/-!
# Running out of reach

Where no provisioning API can be reached every remote call fails. The operator then still does what
needs no such call: it sets finalizers, and it releases marked resources whose stack is known to be
gone. It works in rounds with a pause between them, and each round finds the store as others left it.

Results:
* `struck_by_outages`: exactly the kinds of calls that are out of reach fail.
-/
namespace StackKeeper.Rehearsal

/-- The kinds of calls that reach the provisioning API. -/
def remoteKinds : List CallKind := [.getStack, .getMembers, .createStack, .updateStack, .deleteStack]

/-- How often a call can fail: more often than any run makes it. -/
def manyTimes : Nat := 0x10000000000000000

def outage (kind : CallKind) : Fault :=
  ⟨kind, none, manyTimes, 0, .error (.network "the endpoint cannot be reached")⟩

def unreachable : List Fault := remoteKinds.map outage

theorem struck_by_outages (kind : CallKind) (target : String) (kinds : List CallKind) :
    (Fault.strikeFirst kind target (kinds.map outage)).1 =
      if kind ∈ kinds then some (outage kind).blow else none := by
  induction kinds with
  | nil => rfl
  | cons k kinds ih =>
    rw [List.map_cons, Fault.strikeFirst]
    by_cases hk : k = kind
    · simp [hk, Fault.fits, Fault.strike, outage, manyTimes]
    · have hfits : (outage k).fits kind target = false := by simp [Fault.fits, outage, hk]
      simp [hfits, ih, Ne.symm hk]

/-- The store after a run for the given nanoseconds in which nothing remote can be reached. -/
def offline (c : Config) (s : Store) (nanos : Nat) : Store :=
  let world := World.start c.policy c.hubCapacity none []
  (run { world with store := s, faults := unreachable } nanos c.resyncIntervalSecs
    c.pollIntervalSecs .fresh).2.store

/-! ## Rounds -/

def roundNanos : Nat := 1000000000

/-- The longest pause between two rounds in milliseconds. -/
def longestPause : Nat := 60000

def pauseMillis (c : Config) : Nat := min longestPause (c.pollIntervalSecs * 1000)

def round (c : Config) (s : Store) : Store := offline c s roundNanos

end StackKeeper.Rehearsal
