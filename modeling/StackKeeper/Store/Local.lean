import StackKeeper.Error
import StackKeeper.Files.Tree
import StackKeeper.Resource.Document
/-!
# The local store

Every resource is kept as one JSON document, `<namespace>/<name>.json` under the base directory. A
document is written to a temporary file beside it, which is then renamed into place, so that a
reader finds either the old document or the whole new one.

The store owns the uid, the generation and the creation time of a resource. An update takes over
spec, finalizers and a first request for deletion, and leaves the status alone; a status update
takes over the status alone. Both are refused when the uid is that of another incarnation. A
marked resource without finalizers is removed.
-/
namespace StackKeeper

/-- A directory of resource documents. -/
structure Store where
  base : Path
  files : FileTree

namespace Store

def extension : String := "json"

def temporaryExtension : String := "tmp"

def documentPath (base : Path) (l : Locator) : Path :=
  (Path.join base l.ns).join (l.name ++ "." ++ extension)

/-- The path under which a document is written before it takes its place. -/
def temporaryPath (document : Path) : Path :=
  document.withFileName ((Path.splitExtension document.fileName).1 ++ "." ++ temporaryExtension)

/-- The locator of a document path, which is that of the namespace directory and the file name.
Components that stand for the directory itself do not count. -/
def locatorOfPath? (p : Path) : Option Locator :=
  let p : Path := p.filter (· ≠ Path.here)
  match Path.splitExtension p.fileName with
  | (stem, some ext) =>
    match p.parent.getLast? with
    | some ns => if ext = extension ∧ ns ≠ Path.root ∧ ns ≠ ".." then some ⟨ns, stem⟩ else none
    | none => none
  | (_, none) => none

/-! ## Failures -/

/-- The error of something that was tried and failed. -/
def failed (attempt cause : String) : Error := .storeIo ("Failed to " ++ attempt ++ ": " ++ cause)

def unreadable (document : Path) (why : Refusal) : Error := failed ("read " ++ document.text) why.text

def corrupted (document : Path) : Error :=
  .documentCorrupted ("Failed to parse " ++ document.text ++ ": not a resource")

/-- The error of a step that failed. -/
def failure (cause : String) : FileTree.Step → Error
  | .makeDirectory p => failed ("create directory " ++ p.text) cause
  | .truncate p => failed ("create " ++ p.text) cause
  | .write _ _ => failed "write resource" cause
  | .sync _ => failed "sync resource" cause
  | .rename _ _ => failed "rename resource file" cause
  | .remove p => failed ("remove " ++ p.text) cause

/-! ## Reading -/

/-- Reads the document of a resource. -/
def get (s : Store) (l : Locator) : Except Error Resource :=
  match s.files.read (documentPath s.base l) with
  | .error .missing => .error (.resourceNotFound l.text)
  | .error (.refused why) => .error (unreadable (documentPath s.base l) why)
  | .ok text =>
    match Document.ofText? text with
    | some r => .ok r
    | none => .error (corrupted (documentPath s.base l))

/-- The locators of the documents in a namespace directory. -/
def locatorsIn (s : Store) (ns : String) : Except Error (List Locator) :=
  if s.files.isDirectory (s.base ++ [ns]) then
    match s.files.list (s.base ++ [ns]) with
    | .error f => .error (failed ("list " ++ ns) f.text)
    | .ok names => .ok (names.filterMap fun name => locatorOfPath? [ns, name])
  else .ok []

/-- The locators of all documents in order. -/
def list (s : Store) : Except Error (List Locator) :=
  match s.files.list s.base with
  | .error .missing => .ok []
  | .error (.refused why) => .error (failed "list store" why.text)
  | .ok names =>
    match names.mapM s.locatorsIn with
    | .error e => .error e
    | .ok groups => .ok (groups.flatten.mergeSort Locator.before)

/-! ## Writing -/

/-- The steps that write the document of a resource. -/
def writeSteps (base : Path) (r : Resource) : List FileTree.Step :=
  let document := documentPath base r.locator
  let temporary := temporaryPath document
  [.makeDirectory document.parent, .truncate temporary, .write temporary (Document.text r),
    .sync temporary, .rename temporary document]

def removeSteps (base : Path) (l : Locator) : List FileTree.Step := [.remove (documentPath base l)]

/-- Takes steps in the directory of the store. -/
def perform (s : Store) (steps : List FileTree.Step) : Except Error Unit × Store :=
  match s.files.applyAll steps with
  | (.ok (), files) => (.ok (), { s with files := files })
  | (.error (step, f), files) => (.error (failure f.text step), { s with files := files })

/-- A new resource as it is stored first. -/
def incarnate (r : Resource) (uid : String) (now : Instant) : Resource :=
  { r with
    metadata :=
      { r.metadata with uid := uid, generation := 1, created := some now, deletion := none } }

/-- Stores a new resource under the given uid. -/
def create (s : Store) (r : Resource) (uid : String) (now : Instant) :
    Except Error Resource × Store :=
  match s.get r.locator with
  | .ok _ => (.error (.resourceExists r.locator.text), s)
  | .error e =>
    if e.isNotFound then
      let stored := incarnate r uid now
      match s.perform (writeSteps s.base stored) with
      | (.ok (), s) => (.ok stored, s)
      | (.error e, s) => (.error e, s)
    else (.error e, s)

/-- The stored resource after an update: a changed spec counts up the generation, and a request for
deletion is kept once it is there. -/
def revise (stored r : Resource) : Resource where
  metadata :=
    { stored.metadata with
      generation :=
        if stored.spec = r.spec then stored.metadata.generation
        else min (stored.metadata.generation + 1) maxGeneration
      finalizers := r.metadata.finalizers
      deletion := stored.metadata.deletion.or r.metadata.deletion }
  spec := r.spec
  status := stored.status

/-- Whether nothing keeps a resource any longer. -/
def isReleased (r : Resource) : Bool := r.isMarked && r.metadata.finalizers.isEmpty

/-- The stored resource that a write is meant for: the one with the same uid. -/
def incarnation (s : Store) (r : Resource) : Except Error Resource :=
  match s.get r.locator with
  | .error e => .error e
  | .ok stored =>
    if stored.metadata.uid = r.metadata.uid then .ok stored
    else .error (.resourceNotFound r.locator.text)

/-- Writes metadata and spec of a resource, or removes it when nothing keeps it any longer. -/
def update (s : Store) (r : Resource) : Except Error Unit × Store :=
  match s.incarnation r with
  | .error e => (.error e, s)
  | .ok stored =>
    let next := revise stored r
    if isReleased next then s.perform (removeSteps s.base r.locator)
    else s.perform (writeSteps s.base next)

/-- Writes the status of a resource. -/
def updateStatus (s : Store) (r : Resource) : Except Error Unit × Store :=
  match s.incarnation r with
  | .error e => (.error e, s)
  | .ok stored => s.perform (writeSteps s.base (stored.withStatus r.status))

end Store
end StackKeeper
