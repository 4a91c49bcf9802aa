import StackKeeper.Error
import StackKeeper.Files.Path
/-!
# File trees

The files and directories that the operator sees, and the single steps that change them. Every step
happens at once or not at all, which is all that is asked of a file system; whatever takes several
steps can be cut off between any two of them.

Results:
* `entryAt?_put`, `entryAt?_erase`: a step changes the entries it names and no other.
-/
namespace StackKeeper

/-- What a path can lead to. -/
inductive FileEntry where
  | directory
  | file (text : String)
  /-- A file whose bytes are no text. -/
  | binary
deriving DecidableEq

/-- Why what is there, or would be, cannot be used. -/
inductive Refusal where
  | notDirectory
  | isDirectory
  | alreadyThere
  | nameTooLong
  | nulInName
  | notText
deriving DecidableEq

/-- The words of the system. -/
def Refusal.text : Refusal → String
  | notDirectory => "Not a directory (os error 20)"
  | isDirectory => "Is a directory (os error 21)"
  | alreadyThere => "File exists (os error 17)"
  | nameTooLong => "File name too long (os error 36)"
  | nulInName => "file name contained an unexpected NUL byte"
  | notText => "stream did not contain valid UTF-8"

/-- Why a path cannot be used. -/
inductive FileFault where
  | missing
  | refused (why : Refusal)
deriving DecidableEq

def FileFault.text : FileFault → String
  | missing => "No such file or directory (os error 2)"
  | refused why => why.text

structure FileTree where
  entries : List (Path × FileEntry)

namespace FileTree

def empty : FileTree := ⟨[]⟩

/-- The entry at a path; the starting points are always directories. -/
def entryAt? (t : FileTree) (p : Path) : Option FileEntry :=
  if p = [] ∨ p = [Path.root] then some .directory
  else (t.entries.find? fun e => e.1 == p).map (·.2)

def erase (t : FileTree) (p : Path) : FileTree := ⟨t.entries.filter fun e => e.1 != p⟩

def put (t : FileTree) (p : Path) (e : FileEntry) : FileTree := ⟨(p, e) :: (t.erase p).entries⟩

theorem find?_filter_ne {l : List (Path × FileEntry)} {p q : Path} (hq : q ≠ p) :
    (l.filter fun e => e.1 != p).find? (fun e => e.1 == q) = l.find? fun e => e.1 == q := by
  induction l with
  | nil => rfl
  | cons a l ih =>
    by_cases ha : a.1 = p
    · rw [List.filter_cons_of_neg (by simp [ha]), ih, List.find?_cons,
        beq_false_of_ne (show a.1 ≠ q from fun h => hq (h.symm.trans ha))]
    · rw [List.filter_cons_of_pos (by simp [ha]), List.find?_cons, List.find?_cons, ih]

theorem entryAt?_erase {t : FileTree} {p q : Path} (hq : q ≠ p) :
    (t.erase p).entryAt? q = t.entryAt? q := by
  rw [entryAt?, entryAt?, erase, find?_filter_ne hq]

theorem entryAt?_put {t : FileTree} {p q : Path} {e : FileEntry} (h : p ≠ [] ∧ p ≠ [Path.root]) :
    (t.put p e).entryAt? q = if q = p then some e else t.entryAt? q := by
  by_cases hq : q = p
  · subst hq; simp [entryAt?, put, h.1, h.2]
  · rw [if_neg hq, ← entryAt?_erase (t := t) hq, entryAt?, entryAt?, put, List.find?_cons,
      beq_false_of_ne (show p ≠ q from fun h => hq h.symm)]

/-! ## Following paths -/

def maxNameBytes : Nat := 255

/-- Whether a name can be looked up at all. -/
def isName (c : String) : Bool := c.utf8ByteSize ≤ maxNameBytes && !c.toList.contains '\x00'

/-- Why a name cannot be looked up. -/
def unnameable (c : String) : Refusal :=
  if c.toList.contains '\x00' then .nulInName else .nameTooLong

/-- The directory that a path without links leads to, going through existing directories. -/
def follow (t : FileTree) (start : Path) : Path → Except FileFault Path
  | [] => .ok start
  | c :: rest =>
    if c = "." then t.follow start rest
    else if c = ".." then t.follow (Path.above start) rest
    else if !isName c then .error (.refused (unnameable c))
    else
      match t.entryAt? (start ++ [c]) with
      | some .directory => t.follow (start ++ [c]) rest
      | some _ => .error (.refused .notDirectory)
      | none => .error .missing

/-- Where a path leads: its last component need not exist. -/
def locate (t : FileTree) (p : Path) : Except FileFault Path :=
  match t.follow [] p.parent with
  | .error f => .error f
  | .ok dir =>
    let c := p.fileName
    if c = "" ∨ c = "." then .ok dir
    else if c = ".." then .ok (Path.above dir)
    else if isName c then .ok (dir ++ [c])
    else .error (.refused (unnameable c))

/-- The entry that a path leads to. -/
def find (t : FileTree) (p : Path) : Except FileFault FileEntry :=
  match t.locate p with
  | .error f => .error f
  | .ok q =>
    match t.entryAt? q with
    | some e => .ok e
    | none => .error .missing

/-- The text of a file. -/
def read (t : FileTree) (p : Path) : Except FileFault String :=
  match t.find p with
  | .error f => .error f
  | .ok (.file text) => .ok text
  | .ok .directory => .error (.refused .isDirectory)
  | .ok .binary => .error (.refused .notText)

/-- Whether a path leads anywhere. -/
def isThere (t : FileTree) (p : Path) : Bool := (t.find p).toBool

def isDirectory (t : FileTree) (p : Path) : Bool :=
  match t.find p with
  | .ok .directory => true
  | _ => false

def children (t : FileTree) (dir : Path) : List String :=
  t.entries.filterMap fun e =>
    if e.1 ≠ [] ∧ e.1 ≠ [Path.root] ∧ e.1.dropLast = dir then e.1.getLast? else none

/-- The names in the directory that a path leads to. -/
def list (t : FileTree) (p : Path) : Except FileFault (List String) :=
  match t.locate p with
  | .error f => .error f
  | .ok q =>
    match t.entryAt? q with
    | some .directory => .ok (t.children q)
    | some _ => .error (.refused .notDirectory)
    | none => .error .missing

/-! ## Steps -/

/-- A step that changes the tree. -/
inductive Step where
  /-- Makes a directory and those above it. -/
  | makeDirectory (p : Path)
  /-- Makes an empty file, or empties the one that is there. -/
  | truncate (p : Path)
  /-- Writes the content of an open file. -/
  | write (p : Path) (text : String)
  /-- Makes the content of a file durable. -/
  | sync (p : Path)
  /-- Moves a file to another path, replacing the file that is there. -/
  | rename (source target : Path)
  /-- Removes a file, if it is there. -/
  | remove (p : Path)
deriving DecidableEq

/-- Makes the directories along a path that are missing. -/
def makeDirectories (t : FileTree) (start : Path) : Path → Except FileFault Unit × FileTree
  | [] => (.ok (), t)
  | c :: rest =>
    if c = "." then t.makeDirectories start rest
    else if c = ".." then t.makeDirectories (Path.above start) rest
    else if !isName c then (.error (.refused (unnameable c)), t)
    else
      match t.entryAt? (start ++ [c]) with
      | some .directory => t.makeDirectories (start ++ [c]) rest
      | some _ => (.error (.refused (if rest = [] then .alreadyThere else .notDirectory)), t)
      | none => (t.put (start ++ [c]) .directory).makeDirectories (start ++ [c]) rest

/-- Puts a file where a path leads. -/
def putFile (t : FileTree) (p : Path) (text : String) : Except FileFault Unit × FileTree :=
  match t.locate p with
  | .error f => (.error f, t)
  | .ok q =>
    match t.entryAt? q with
    | some .directory => (.error (.refused .isDirectory), t)
    | _ => (.ok (), t.put q (.file text))

/-- Moves a file where a path leads. -/
def renameFile (t : FileTree) (source target : Path) : Except FileFault Unit × FileTree :=
  match t.locate source, t.locate target with
  | .ok s, .ok d =>
    match t.entryAt? s, t.entryAt? d with
    | none, _ => (.error .missing, t)
    | some .directory, _ => (.error (.refused .isDirectory), t)
    | some _, some .directory => (.error (.refused .isDirectory), t)
    | some e, _ => (.ok (), (t.erase s).put d e)
  | .error f, _ => (.error f, t)
  | _, .error f => (.error f, t)

/-- Removes the file that a path leads to, if there is one. -/
def removeFile (t : FileTree) (p : Path) : Except FileFault Unit × FileTree :=
  match t.locate p with
  | .error .missing => (.ok (), t)
  | .error (.refused why) => (.error (.refused why), t)
  | .ok q =>
    match t.entryAt? q with
    | none => (.ok (), t)
    | some .directory => (.error (.refused .isDirectory), t)
    | some _ => (.ok (), t.erase q)

/-- The result of a step and the tree after it. -/
def apply (t : FileTree) : Step → Except FileFault Unit × FileTree
  | .makeDirectory p => t.makeDirectories [] p
  | .truncate p => t.putFile p ""
  | .write p text => t.putFile p text
  | .sync _ => (.ok (), t)
  | .rename source target => t.renameFile source target
  | .remove p => t.removeFile p

/-- Steps one after another up to the first that fails, which is answered with what it failed for. -/
def applyAll (t : FileTree) : List Step → Except (Step × FileFault) Unit × FileTree
  | [] => (.ok (), t)
  | s :: rest =>
    match t.apply s with
    | (.ok (), next) => next.applyAll rest
    | (.error f, next) => (.error (s, f), next)

/-! ## Texts that users write -/

/-- Why something that is there is no text. -/
def unreadableReason : FileEntry → String
  | .directory => "Failed to read file: " ++ Refusal.isDirectory.text
  | .binary => "Failed to read file: " ++ Refusal.notText.text
  | .file _ => ""

/-- The path that a user names; a slash at the end asks for a directory. -/
def namedPath (named : String) : Path :=
  if Text.endsWith named Path.root then Path.ofText named ++ [Path.here] else Path.ofText named

/-- The text of a file that a user names, seen from the working directory. -/
def source (t : FileTree) (workingDir : Path) (named : String) : Except Error String :=
  match t.find (workingDir.under (namedPath named)) with
  | .ok (.file text) => .ok text
  | .ok e => .error (.configUnreadable (unreadableReason e))
  | .error _ => .error (.configNotFound named)

end FileTree
end StackKeeper
