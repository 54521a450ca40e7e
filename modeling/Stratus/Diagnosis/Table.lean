import Stratus.Diagnosis.Basic

/-!
What is printed about a plan or a run: headings with colour tags, and tables of troubles and
changes.
-/
namespace Stratus

inductive Printed where
  | heading (text : String)
  | table (columns : List String) (rows : List (List String))

namespace Printed

def record : Printed → Data
  | heading text => .str text
  | table columns rows => .map [("columns", .texts columns), ("rows", .list (rows.map .texts))]

open Text Text.Piece

def tag (name text : String) : String := s!"\n[{name}]{text}[/{name}]"

def troubleColumns : List String := ["Severity", "Location", "Message", "Suggestion"]

def troubleRow (locator : Locator) (d : Diagnosis) : Outcome (List String) :=
  match d.location? locator with
  | some l => .ok [d.severity.word, s!"{l.blockType}:{l.line}", d.message, d.suggestion.getD ""]
  | none => .error (.noMember Data.null.kind "block_type")

def quotedLine (l : Location) : Outcome String := do
  let line := Assoc.getD l.metadata "original_line" (.str "")
  if !line.holds then return ""
  let size ← line.size
  if size ≤ 30 then return line.text
  match line with
  | .str s => return take 27 s ++ "..."
  | .list _ => .error (.badConcatenation "list" "str")
  | _ => .error (.unhashable "slice")

/-- A row that quotes the line; without notes on the location the place stays empty. -/
def detailedRow (locator : Locator) (d : Diagnosis) : Outcome (List String) := do
  let place ← match d.location? locator with
    | none => pure ""
    | some l => if l.metadata.isEmpty then pure "" else do
      let line ← quotedLine l
      pure (s!"{l.blockType}:{l.line}" ++ if line == "" then "" else "\n└─ " ++ line)
  let message := Pattern.dropAll Pattern.sameChar [words ["Terraform", "terraform"], gap] d.message
  return [d.severity.word, place, "[blue]CLOUD:[/blue] " ++ message, d.suggestion.getD ""]

def plannedRow? (change : String) : Option (List String) := do
  let (action, details) ← splitOnce? change ":"
  let groups ← Pattern.atStart
    (grab (.run inLine 1) ++ text " in " :: grab (.run inLine 1) ++ [text " block"]) (strip details)
  return action :: groups

def plannedChanges (changes : List String) : List Printed :=
  if changes.isEmpty then [heading (tag "yellow" "No changes detected")]
  else [heading (tag "green" "Planned changes:"),
    table ["Action", "Resource", "Block"] (changes.filterMap plannedRow?)]

def appliedRow? (change : String) : Option (List String) := do
  let (component, details) ← splitOnce? change ":"
  return if contains component "ERROR" then ["Error", "Failed", strip details]
    else [strip component, "Applied", strip details]

def appliedChanges (changes : List String) : List Printed :=
  if changes.isEmpty then [heading (tag "yellow" "No changes were applied")]
  else [heading (tag "green" "Applied changes:"),
    table ["Component", "Action", "Details"] (changes.filterMap appliedRow?)]

def troubles (title : String) (rows : List (List String)) : List Printed :=
  if rows.isEmpty then [] else [heading (tag "red" title), table troubleColumns rows]

def plan (locator : Locator) (changes : List String) (errors : List Diagnosis) :
    Outcome (List Printed) := do
  let rows ← errors.mapM (troubleRow locator)
  return troubles "Errors found during planning:" rows ++ plannedChanges changes

def detailedPlan (locator : Locator) (changes : List String) (errors : List Diagnosis) :
    Outcome (List Printed) := do
  let rows ← errors.mapM (detailedRow locator)
  return troubles "Errors found during planning:" rows ++ plannedChanges changes

def apply (locator : Locator) (changes : List String) (errors : List Diagnosis) :
    Outcome (List Printed) := do
  let rows ← errors.mapM (troubleRow locator)
  return troubles "Errors occurred during apply:" rows ++ appliedChanges changes

end Printed

end Stratus
