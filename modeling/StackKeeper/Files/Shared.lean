import StackKeeper.Files.Tree
/-!
# Files that several writers share

Several writers take steps on the same files, and their steps fall between one another. A writer that
has opened a file goes on writing into that file whatever happens to its name: a rename gives the file
another name and closes nothing, and a file that one writer empties is empty for all.

Every writer takes the same steps as on a tree of its own, in order, where the content may reach the
file in any number of pieces. A step may fail, which ends the writer, and a writer may stop for ever.

Results:
* `overlay_length`, `overlay_all`: what a file holds after a piece was added or all was written over.
-/
namespace StackKeeper.SharedFiles
open FileTree (Step)

/-! ## Bytes -/

abbrev Bytes := List UInt8

def bytes (text : String) : Bytes := text.toByteArray.data.toList

/-- The text of bytes, if they are one. -/
def text? (b : Bytes) : Option String := String.fromUTF8? ⟨b.toArray⟩

/-- What a file holds after a piece was written at a place in it; a gap is filled with zeros. -/
def overlay (old : Bytes) (start : Nat) (piece : Bytes) : Bytes :=
  old.take start ++ List.replicate (start - old.length) 0 ++ piece ++ old.drop (start + piece.length)

theorem text?_bytes (text : String) : text? (bytes text) = some text := by
  have hvalid : (⟨(bytes text).toArray⟩ : ByteArray) = text.toByteArray := by simp [bytes]
  rw [text?, hvalid, String.fromUTF8?, dif_pos text.isValidUTF8]
  rfl

theorem overlay_length (old piece : Bytes) : overlay old old.length piece = old ++ piece := by
  simp [overlay]

theorem overlay_all {old piece : Bytes} (h : old.length ≤ piece.length) :
    overlay old 0 piece = piece := by
  simp [overlay, h]

/-! ## The files -/

/-- The files by number, and which file each path names. -/
structure Volume where
  fileAt : Path → Option Nat
  content : Nat → Bytes
  /-- No file has had this number or a later one. -/
  next : Nat

namespace Volume

/-- The content of the file that a path names. -/
def read (v : Volume) (p : Path) : Option Bytes := (v.fileAt p).map v.content

def fill (v : Volume) (n : Nat) (b : Bytes) : Volume :=
  { v with content := fun m => if m = n then b else v.content m }

/-- The volume with another file, or none, under a path. -/
def name (v : Volume) (p : Path) (file : Option Nat) : Volume :=
  { v with fileAt := fun q => if q = p then file else v.fileAt q }

/-- Empties the file at a path, which is a new one if there is none. -/
def create (v : Volume) (p : Path) : Nat × Volume :=
  match v.fileAt p with
  | some n => (n, v.fill n [])
  | none => (v.next, { (v.name p (some v.next)).fill v.next [] with next := v.next + 1 })

end Volume

/-! ## The writers -/

/-- How far a writer has come. -/
structure Writer where
  /-- The steps that are left. -/
  todo : List Step
  /-- The file that it has opened. -/
  file : Option Nat
  /-- How many bytes it has written. -/
  written : Nat
  /-- Whether a step failed. -/
  failed : Bool

def Writer.ofSteps (steps : List Step) : Writer := ⟨steps, none, 0, false⟩

inductive Move where
  /-- Does its next step, or ends it if the content is being written. -/
  | proceed
  /-- Writes some more bytes of its content. -/
  | piece (count : Nat)
  /-- Fails at its next step. -/
  | fail

namespace Writer

/-- The writer after its next step. -/
def advance (w : Writer) : Writer := { w with todo := w.todo.tail }

/-- What a move of a writer leads to, if it can make it. -/
def move (v : Volume) (w : Writer) : Move → Option (Volume × Writer)
  | .proceed =>
    match w.todo with
    | [] => none
    | .makeDirectory _ :: _ | .sync _ :: _ => some (v, w.advance)
    | .truncate p :: _ =>
      let (n, v) := v.create p
      some (v, { w.advance with file := some n, written := 0 })
    | .write _ text :: _ => if w.written = (bytes text).length then some (v, w.advance) else none
    | .rename source target :: _ =>
      (v.fileAt source).map fun n => ((v.name source none).name target (some n), w.advance)
    | .remove p :: _ => some (v.name p none, w.advance)
  | .piece count =>
    match w.todo, w.file with
    | .write _ text :: _, some n =>
      let piece := ((bytes text).drop w.written).take count
      some (v.fill n (overlay (v.content n) w.written piece),
        { w with written := w.written + piece.length })
    | _, _ => none
  | .fail =>
    match w.todo with
    | [] => none
    | _ :: _ => some (v, { w with todo := [], failed := true })

/-- Whether the writer has a file open and has not ended. -/
def IsHolding (w : Writer) : Prop := w.file ≠ none ∧ w.todo ≠ []

end Writer

/-! ## All together -/

/-- The files and everyone who writes them. -/
structure State where
  volume : Volume
  writers : Nat → Writer
  /-- Who opened a file last. -/
  opener : Option Nat
  /-- Who has ended without a failure, in order. -/
  finished : List Nat

namespace State

def start (v : Volume) (steps : Nat → List Step) : State :=
  ⟨v, fun i => .ofSteps (steps i), none, []⟩

/-- The state after a writer has come further. -/
def advanced (s : State) (i : Nat) (v : Volume) (w : Writer) : State where
  volume := v
  writers := fun j => if j = i then w else s.writers j
  opener := if w.file = (s.writers i).file then s.opener else some i
  finished := if w.todo = [] ∧ w.failed = false then s.finished ++ [i] else s.finished

/-- The state after a move of one writer. -/
def move (s : State) (i : Nat) (m : Move) : Option State :=
  ((s.writers i).move s.volume m).map fun r => s.advanced i r.1 r.2

/-- The states that are reached by moves of writers that may move. -/
inductive Runs (mayMove : State → Nat → Prop) (s : State) : State → Prop
  | start : Runs mayMove s s
  | move {t t' : State} {i : Nat} (h : Runs mayMove s t) (may : mayMove t i) (m : Move)
      (hm : t.move i m = some t') : Runs mayMove s t'

/-- Whether a writer has no file open, or opened it after all others. -/
def InTurn (s : State) (i : Nat) : Prop := (s.writers i).file = none ∨ s.opener = some i

/-- Whether no other writer of the same process has a file open. Within a process writers take a lock. -/
def Unlocked (process : Nat → Nat) (s : State) (i : Nat) : Prop :=
  ∀ j, j ≠ i → process j = process i → ¬ (s.writers j).IsHolding

end State
end StackKeeper.SharedFiles
