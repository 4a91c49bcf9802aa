import StackKeeper.Config.Validation
import StackKeeper.Resource.Document
import StackKeeper.Text.Parts
import StackKeeper.Text.Table
/-!
# Output

What the commands print, as text for people or as JSON for programs. Statuses are colored by how
they ended: failures and rollbacks red, work in progress yellow, completion green.
-/
namespace StackKeeper.Output
open StackKeeper.Text

inductive Format where
  | text
  | json
deriving DecidableEq

/-- How output is written. -/
structure Style where
  format : Format
  colored : Bool

/-! ## Colors -/

inductive Paint where
  | dimmed
  | red
  | green
  | yellow

/-- The sequence that ends an attribute. -/
def resetSequence : String := "\x1b[0m"

/-- The sequence that starts an attribute. -/
def Paint.sequence : Paint → String
  | dimmed => "\x1b[2m"
  | red => "\x1b[31m"
  | green => "\x1b[32m"
  | yellow => "\x1b[33m"

/-- Starts the attribute again after every end of an attribute inside a text. -/
def resume (start : List Char) : List Char → List Char
  | [] => []
  | '\x1b' :: '[' :: '0' :: 'm' :: rest => resetSequence.toList ++ start ++ resume start rest
  | c :: rest => c :: resume start rest

/-- A text with an attribute, if output is colored. -/
def paint (style : Style) (p : Paint) (s : String) : String :=
  if style.colored then
    p.sequence ++ String.ofList (resume p.sequence.toList s.toList) ++ resetSequence
  else s

/-! ## Parts -/

/-- A text cut to a number of characters, the last three of which then are points. -/
def truncate (limit : Nat) (s : String) : String :=
  if s.length ≤ limit then s else String.ofList (s.toList.take (limit - 3)) ++ "..."

/-- A lifecycle status in its color. -/
def statusText (style : Style) (status : String) : String :=
  if endsWith status "_FAILED" || contains status "ROLLBACK" then paint style .red status
  else if endsWith status "_IN_PROGRESS" then paint style .yellow status
  else if endsWith status "_COMPLETE" then paint style .green status
  else status

/-- The status of a resource; one without a status is pending. -/
def resourceStatus (style : Style) (r : Resource) : String :=
  let status :=
    if r.status.stackStatus = "" then paint style .dimmed "PENDING"
    else statusText style r.status.stackStatus
  if r.isMarked then status ++ " " ++ paint style .red "(deleting)" else status

/-- An age in its greatest unit. -/
def ageText (secs : Int) : String :=
  if 86400 ≤ secs then integerText (secs / 86400) ++ "d"
  else if 3600 ≤ secs then integerText (secs / 3600) ++ "h"
  else if 60 ≤ secs then integerText (secs / 60) ++ "m"
  else integerText (max secs 0) ++ "s"

def ageColumn : Option Int → String
  | some secs => ageText secs
  | none => "-"

/-! ## Outputs -/

def listRow (style : Style) (r : Resource) (age : Option Int) : List String :=
  [r.metadata.ns, r.metadata.name, truncate 40 r.stackName, resourceStatus style r, ageColumn age]

/-- A list of resources with their ages in seconds. -/
def list (style : Style) (rows : List (Resource × Option Int)) : String :=
  match style.format with
  | .json => (Json.arr (rows.map fun row => Document.ofResource row.1)).pretty
  | .text =>
    if rows.isEmpty then "No stack resources found.\n"
    else
      Table.text ["Namespace", "Name", "Stack", "Status", "Age"]
        (rows.map fun row => listRow style row.1 row.2) ++ "\n"

def line (name value : String) : String := "   " ++ name ++ ": " ++ value ++ "\n"

/-- A line that is left out when there is nothing to tell. -/
def optionalLine (name : String) : Option String → String
  | some value => line name value
  | none => ""

def outputsText (m : TextMap) : String :=
  if m.isEmpty then ""
  else "\nOutputs:\n" ++ String.join (m.entries.map fun e => "   " ++ e.1 ++ " = " ++ e.2 ++ "\n")

def memberRow (style : Style) (m : Member) : List String :=
  [m.logicalId, m.kind, statusText style m.status, truncate 40 (m.physicalId.getD "-")]

/-- The resources inside a stack. -/
def membersText (style : Style) (l : List Member) : String :=
  if l.isEmpty then ""
  else
    "\nResources:\n" ++
      Table.text ["Logical ID", "Type", "Status", "Physical ID"] (l.map (memberRow style)) ++ "\n"

/-- One resource with its outputs and the resources inside its stack. -/
def resource (style : Style) (r : Resource) : String :=
  match style.format with
  | .json => (Document.ofResource r).pretty
  | .text =>
    "\nStack resource: " ++ r.locator.text ++ "\n\n" ++ line "Stack name" r.stackName ++
      line "Stack ID" (if r.status.stackId = "" then "-" else r.status.stackId) ++
      line "Status" (resourceStatus style r) ++
      line "Generation" (decimalText r.metadata.generation) ++
      optionalLine "Created" (r.status.created.map Instant.displayText) ++
      optionalLine "Updated" (r.status.updated.map Instant.displayText) ++
      optionalLine "Role" (Spec.given (some r.status.role)) ++
      (if r.metadata.finalizers.isEmpty then ""
        else line "Finalizers" (", ".intercalate r.metadata.finalizers)) ++
      outputsText r.status.outputs ++ membersText style r.status.members

/-- The result of a successful check of a configuration. -/
def validation (style : Style) (warnings : List String) (showWarnings : Bool) : String :=
  match style.format with
  | .json => (Json.obj [("valid", .bool true), ("warnings", Json.ofTexts warnings)]).pretty
  | .text =>
    paint style .green "✓" ++ " Configuration is valid\n" ++
      (if showWarnings && !warnings.isEmpty then
        "\n" ++ paint style .yellow "⚠" ++ " Warnings:\n" ++
          String.join (warnings.map fun w => "   - " ++ w ++ "\n")
        else "")

/-- A message in one line. -/
def message (style : Style) (text : String) : String :=
  match style.format with
  | .json => (Json.obj [("message", .str text), ("status", .str "success")]).pretty
  | .text => paint style .green "✓" ++ " " ++ text

end StackKeeper.Output
