import StackKeeper.Store.Local
/-!
# Watching the store

Changes that other programs make to the documents are noticed by the paths they touch. What touches
the path of a document is published as a change of its resource; temporary files and everything
else goes unnoticed.

Results:
* `mem_published`: a locator is published exactly if a touched path is the path of its document.
-/
namespace StackKeeper

inductive FileChange where
  | written (p : Path)
  | moved (source target : Path)
  | removed (p : Path)

namespace FileChange

def paths : FileChange → List Path
  | written p | removed p => [p]
  | moved source target => [source, target]

end FileChange

namespace Store

/-- The locators that are published when a file changes. -/
def published (c : FileChange) : List Locator := c.paths.filterMap locatorOfPath?

theorem mem_published {c : FileChange} {l : Locator} :
    l ∈ published c ↔ ∃ p ∈ c.paths, locatorOfPath? p = some l := by
  simp [published]

/-- Starts to watch the documents, which needs the base directory and makes it if it is missing. -/
def watch (s : Store) : Except Error Unit × Store :=
  s.perform [.makeDirectory s.base]

end Store
end StackKeeper
