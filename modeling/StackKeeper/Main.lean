import StackKeeper.Cli.Commands
import StackKeeper.Rehearsal.Offline
import Std.Time.DateTime.Timestamp
/-!
# The program

Reads what a command can see into a file tree, lets the command run over it, writes the changes back
and prints what it says. A file takes the place of another one whole, by renaming. The program has no
connection to a provisioning API, so a run does what needs none.
-/
namespace StackKeeper.Terminal

/-! ## Reading -/

/-- The entry that the file system has at a path. -/
def entryAt? (p : Path) : IO (Option FileEntry) := do
  let file := (← IO.currentDir) / p.text
  if ← file.isDir then return some .directory
  if ← file.pathExists then
    match String.fromUTF8? (← IO.FS.readBinFile file) with
    | some text => return some (.file text)
    | none => return some .binary
  return none

/-- The tree with what the file system has on the way to a path, going on from another one. -/
def see (t : FileTree) (start : Path) : Path → IO FileTree
  | [] => return t
  | c :: rest => do
    if c == Path.here then see t start rest
    else if c == ".." then see t start.above rest
    else
      let p := start ++ [c]
      match ← entryAt? p with
      | some e => see (if p == [Path.root] then t else t.put p e) p rest
      | none => return t

/-- The tree with all that the file system has below a directory, down to the given depth. -/
def seeBelow (t : FileTree) (p : Path) : Nat → IO FileTree
  | 0 => return t
  | depth + 1 => do
    let dir := (← IO.currentDir) / p.text
    let mut t ← see t [] p
    if ← dir.isDir then
      for e in ← dir.readDir do
        t ← seeBelow t (p ++ [e.fileName]) depth
    return t

/-- How deep the directories of a store are nested at most. -/
def storeDepth : Nat := 64

/-! ## Writing -/

/-- Gives a file its text at once. -/
def replaceFile (p : Path) (text : String) : IO Unit := do
  let temporary := (Store.temporaryPath p).text
  IO.FS.writeFile temporary text
  IO.FS.rename temporary p.text

/-- Removes the files of the first tree that are not in the second one, and makes what is new or
different in the second one. -/
def writeBack (before after : FileTree) : IO Unit := do
  for (p, _) in before.entries do
    if (after.entryAt? p).isNone then IO.FS.removeFile p.text
  for (p, e) in after.entries.reverse do
    if before.entryAt? p != some e then
      match e with
      | .directory => IO.FS.createDirAll p.text
      | .file text => replaceFile p text
      | .binary => pure ()

/-! ## Surroundings -/

/-- The variables of the environment. -/
def environment : IO Variables := do
  let octets ← IO.FS.readBinFile "/proc/self/environ"
  let text := (String.fromUTF8? octets).getD ""
  return (Text.parts '\x00' text).filterMap fun s =>
    (Text.splitFirst '=' s.toList).map fun v => (String.ofList v.1, String.ofList v.2)

/-- The current time. -/
def now : IO Instant := do
  match Instant.ofUnixSeconds? (← Std.Time.Timestamp.now).toSecondsSinceUnixEpoch.val with
  | some t => return t
  | none => throw (IO.userError "the clock is out of range")

/-- The session of this process, which has seen nothing of the file system yet. -/
def session : IO Session := do
  return {
    files := FileTree.empty
    directory := Path.ofText (← IO.currentDir).toString
    environment := ← environment
    now := ← now
    uid := Uid.ofOctets (← IO.getRandomBytes 16).toList }

/-- The session that has seen all that a command can read. -/
def lookAround (s : Session) (words : List String) : IO Session := do
  let mut files := s.files
  for p in s.inputs words do
    files ← see files [] (s.directory.under p)
  let s := { s with files := files }
  match s.storeOf? words with
  | some store => return { s with files := ← seeBelow files store.base storeDepth }
  | none => return s

/-! ## Running -/

/-- Runs the operator in rounds over the documents of its store, until the process is stopped. -/
partial def operate (c : Config) (base : Path) : IO Unit := do
  let before ← seeBelow FileTree.empty base storeDepth
  writeBack before (Rehearsal.round c ⟨base, before⟩).files
  IO.sleep (UInt32.ofNat (Rehearsal.pauseMillis c))
  operate c base

/-- Does what a command line asks for, and answers the exit code. -/
def perform (words : List String) : IO UInt32 := do
  let s ← lookAround (← session) words
  match s.perform words with
  | .finished code output errors files =>
    writeBack s.files files
    IO.print output
    IO.eprint errors
    return UInt32.ofNat code
  | .running c store =>
    writeBack s.files store.files
    operate c store.base
    return 0

end StackKeeper.Terminal

/-- Does what the command line asks for. -/
def main (args : List String) : IO UInt32 :=
  try StackKeeper.Terminal.perform (StackKeeper.Session.programName :: args)
  catch e => do
    IO.eprintln ("Error: " ++ (StackKeeper.Error.io e.toString).message)
    return 1
