import StackKeeper.Config.Reader
import StackKeeper.Files.Tree
/-!
# The search for a configuration file

Without a path from the user, a configuration file is looked for in the starting directory and then in
each directory that is left when the last component of its path is dropped. In every directory one
name comes before the other. Dropping components looks at the path alone: from the working directory
written as a point, nothing but an empty path is left, which is the working directory again.

Results:
* `search_mem`: what is found is a candidate that is there.
* `search_eq_none_iff`: nothing is found exactly if no candidate is there.
-/
namespace StackKeeper

namespace Path

/-- The path without such components at its end. -/
def withoutDots (p : Path) : Path := (p.reverse.dropWhile (· = here)).reverse

/-- The path that is left when the last component is dropped. -/
def dropped? (p : Path) : Option Path :=
  match p.withoutDots with
  | [] => if p = [] then none else some []
  | core =>
    if core = [root] then none
    else
      let rest : Path := core.dropLast
      some (if rest ≠ [] ∧ rest.withoutDots = [] then [here] else rest.withoutDots)

/-- The path and those that are left when components are dropped one after another, at most as often
as given. -/
def prefixesFrom : Nat → Path → List Path
  | 0, _ => []
  | n + 1, p =>
    p ::
      match p.dropped? with
      | some q => prefixesFrom n q
      | none => []

/-- The path and all that are left when components are dropped one after another. -/
def prefixes (p : Path) : List Path := prefixesFrom (p.length + 2) p

end Path

namespace Config

def fileNames : List String := ["stack-operator.yaml", "stack-operator.yml"]

def candidates (start : Path) : List Path :=
  start.prefixes.flatMap fun dir => fileNames.map fun name => dir ++ [name]

def search (files : FileTree) (workingDir start : Path) : Option Path :=
  (candidates start).find? fun p => files.isThere (workingDir.under p)

/-- The configuration file that is there, or the error that none is. -/
def locate (files : FileTree) (workingDir start : Path) : Except Error Path :=
  match search files workingDir start with
  | some p => .ok p
  | none => .error (.configNotFound (start ++ fileNames.take 1).text)

/-- Reads the configuration in a file. -/
def load (files : FileTree) (workingDir : Path) (named : String) : Except Error Config :=
  match files.source workingDir named with
  | .ok text => read text
  | .error e => .error e

theorem search_mem {files : FileTree} {workingDir start p : Path}
    (h : search files workingDir start = some p) :
    p ∈ candidates start ∧ files.isThere (workingDir.under p) = true :=
  ⟨List.mem_of_find?_eq_some h,
    List.find?_some (p := fun p => files.isThere (workingDir.under p)) h⟩

theorem search_eq_none_iff {files : FileTree} {workingDir start : Path} :
    search files workingDir start = none ↔
      ∀ p ∈ candidates start, files.isThere (workingDir.under p) = false := by
  simp [search]

end Config
end StackKeeper
