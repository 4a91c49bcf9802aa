import StackKeeper.Files.Tree
import StackKeeper.Resource.Document
import StackKeeper.Yaml.Tree
/-!
# Manifests

A manifest declares a resource in YAML. It must name the resource; without a namespace, or with an
empty one, the resource belongs to the default namespace.

Results:
* `name_ne_empty_of_read`, `ns_ne_empty_of_read`: a resource that was read has a name and a namespace.
-/
namespace StackKeeper

namespace Manifest

/-- Why a text is no manifest. -/
def unreadable : Error := .configUnreadable "Invalid stack resource: not a manifest"

/-- The resource in its namespace, which is the default one if none is given. -/
def placed (r : Resource) : Resource :=
  if r.metadata.ns = "" then { r with metadata := { r.metadata with ns := defaultNamespace } } else r

/-- The resource of a manifest with its name and namespace checked. -/
def checked (r : Resource) : Except Error Resource :=
  if r.metadata.name = "" then
    .error (.invalidField (some "metadata.name") "Resource name cannot be empty")
  else .ok (placed r)

/-- Reads a manifest. -/
def read (text : String) : Except Error Resource :=
  match (Yaml.Tree.ofText? text).bind Document.resource? with
  | some r => checked r
  | none => .error unreadable

/-- Reads the manifest in a file. -/
def load (files : FileTree) (workingDir : Path) (named : String) : Except Error Resource :=
  match files.source workingDir named with
  | .ok text => read text
  | .error e => .error e

theorem name_ne_empty_of_checked {r s : Resource} (h : checked r = .ok s) :
    s.metadata.name ≠ "" := by
  rw [checked] at h
  split at h
  · simp at h
  · rename_i hn
    obtain rfl := Except.ok.inj h
    rw [placed]
    split <;> exact hn

theorem ns_ne_empty_of_checked {r s : Resource} (h : checked r = .ok s) : s.metadata.ns ≠ "" := by
  rw [checked] at h
  split at h
  · simp at h
  · obtain rfl := Except.ok.inj h
    rw [placed]
    split
    · simp [defaultNamespace]
    · assumption

theorem name_ne_empty_of_read {text : String} {r : Resource} (h : read text = .ok r) :
    r.metadata.name ≠ "" := by
  rw [read] at h
  split at h
  · exact name_ne_empty_of_checked h
  · simp at h

theorem ns_ne_empty_of_read {text : String} {r : Resource} (h : read text = .ok r) :
    r.metadata.ns ≠ "" := by
  rw [read] at h
  split at h
  · exact ns_ne_empty_of_checked h
  · simp at h

end Manifest
end StackKeeper
