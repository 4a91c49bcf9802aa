/-!
# Lifecycle of a remote stack

The statuses that a remote stack reports are texts. Two lists single out those that matter here: a
terminal stack makes no further transition on its own, and a successful one has its last
submitted inputs applied.

Results:
* `isTerminal_of_isSuccessful`: success is terminal.
-/
namespace StackKeeper.Lifecycle

def deleteComplete : String := "DELETE_COMPLETE"

def deleteInProgress : String := "DELETE_IN_PROGRESS"

/-- The statuses from which a stack makes no further transition on its own. -/
def terminalStatuses : List String :=
  ["CREATE_COMPLETE", "CREATE_FAILED", "DELETE_COMPLETE", "DELETE_FAILED", "ROLLBACK_COMPLETE",
    "ROLLBACK_FAILED", "UPDATE_COMPLETE", "UPDATE_FAILED", "UPDATE_ROLLBACK_COMPLETE",
    "UPDATE_ROLLBACK_FAILED", "IMPORT_COMPLETE", "IMPORT_ROLLBACK_COMPLETE",
    "IMPORT_ROLLBACK_FAILED"]

/-- The statuses of a stack whose last submitted inputs were applied. -/
def successfulStatuses : List String := ["CREATE_COMPLETE", "UPDATE_COMPLETE", "IMPORT_COMPLETE"]

def isTerminal (status : String) : Bool := terminalStatuses.contains status

/-- Whether the status says that the last submitted inputs were applied. -/
def isSuccessful (status : String) : Bool := successfulStatuses.contains status

theorem isTerminal_of_isSuccessful {status : String} (h : isSuccessful status = true) :
    isTerminal status = true := by
  simp only [isSuccessful, successfulStatuses, List.contains_eq_mem, List.mem_cons,
    List.not_mem_nil, or_false, decide_eq_true_eq] at h
  rcases h with rfl | rfl | rfl <;> decide

end StackKeeper.Lifecycle
