import Stratus.Diagnosis.Locator
import Stratus.Text.Styled

/-!
Remarks on a description and what is generated from it, and how they are shown.
-/
namespace Stratus

open Text

inductive RemarkKind where
  | info | warning | error | success | suggestion
deriving DecidableEq

namespace RemarkKind

def word : RemarkKind → String
  | info => "INFO"
  | warning => "WARNING"
  | error => "ERROR"
  | success => "SUCCESS"
  | suggestion => "SUGGESTION"

def ofWord (s : String) : RemarkKind :=
  ([info, warning, error, success, suggestion].find? (·.word == s)).getD error

def icon : RemarkKind → String
  | error => coloured .red "✗"
  | warning => coloured .yellow "⚠"
  | info => coloured .blue "ℹ"
  | success => coloured .green "✓"
  | suggestion => coloured .cyan "→"

end RemarkKind

structure Remark where
  kind : RemarkKind
  source : String
  message : String
  details : Option String := none
  resource : Option String := none
  place : Option Place := none
  suggestion : Option String := none

namespace Remark

def record (locator : Locator) (r : Remark) : Data := .map [
  ("type", .str r.kind.word), ("source", .str r.source), ("message", .str r.message),
  ("details", .ofText? r.details), ("resource", .ofText? r.resource),
  ("source_location", .ofOption (r.place.map fun p => (locator.resolve p).record)),
  ("suggestion", .ofText? r.suggestion)]

def ofRecord (d : Data) : Remark where
  kind := .ofWord (d.textField "type")
  source := d.textField "source"
  message := d.textField "message"
  details := (d.field "details").str?
  resource := (d.field "resource").str?
  place := match d.field "source_location" with
    | .map m => some (.fixed (.ofBlockRecord (.map m)))
    | _ => none
  suggestion := (d.field "suggestion").str?

def sourceColour : String → Text.Colour
  | "terraform" | "cloud" => .blue
  | "kubernetes" => .cyan
  | "ansible" => .green
  | "cross-validation" => .yellow
  | _ => .white

def given (s : Option String) : Option String := s.filter (· != "")

def branch (isLast : Bool) : String := if isLast then "└─" else "├─"

def underlined (c : Text.Colour) (line : String) (rest : String) : String :=
  "\n  " ++ coloured c line ++ rest

def detailLines (r : Remark) (details : String) : String :=
  let lines := split details "\n"
  String.join (lines.zipIdx.map fun (line, i) =>
    underlined .grey (branch (i + 1 == lines.length && (given r.suggestion).isNone)) (" " ++ line))

def suggestionLines (suggestion : String) : String :=
  let lines := split suggestion "\n"
  String.join (lines.zipIdx.map fun (line, i) =>
    if i == 0 then underlined .cyan (branch (lines.length == 1)) (" Suggestion: " ++ line)
    else underlined .cyan "│ " line)

def lines (time : String) (locator : Locator) (r : Remark) : String :=
  let location := match r.place.map locator.resolve with
    | some l => coloured .grey (" (" ++ l.file?.getD "" ++ s!":{l.line})")
    | none => ""
  let source := coloured (sourceColour r.source) ("[" ++ upper r.source ++ "]")
  let head := r.kind.icon ++ " " ++ time ++ " " ++ source ++ " " ++ r.message ++ location
  let resource := match given r.resource with
    | some name => underlined .grey "├─" (" Resource: " ++ name)
    | none => ""
  head ++ resource ++ ((given r.details).map r.detailLines).getD "" ++
    ((given r.suggestion).map suggestionLines).getD ""

def adviceAt (block : String) (r : Remark) : String :=
  let about (term : String) : Bool := contains (lower r.message) term
  let start := s!"In your .cloud file at service '{block}', "
  match r.source with
  | "kubernetes" =>
    if about "resource limits" then
      start ++ "add resource limits to your container definition:\nresources = \x7b\n" ++
        "  limits = \x7b cpu = \"500m\", memory = \"512Mi\" \x7d\n" ++
        "  requests = \x7b cpu = \"250m\", memory = \"256Mi\" \x7d\n\x7d"
    else if about "probe" then
      start ++ "add health checks to your container:\nhealth_check = \x7b\n" ++
        "  http_get = \x7b path = \"/health\", port = 80 \x7d\n" ++
        "  initial_delay_seconds = 15\n  period_seconds = 20\n\x7d"
    else if about "image tag" then
      start ++ "specify a concrete version for your container image:\n" ++
        "image = \"nginx:1.21.6\"  # Replace 'latest' with specific version"
    else "No specific suggestion available for this Kubernetes issue"
  | "terraform" =>
    if about "instance type" then
      start ++ "update the instance size:\nsize = \"t2.small\"  # or t2.medium for more resources"
    else if about "security group" then
      start ++ "add or update security group rules:\nsecurity_groups = \x7b\n  ingress = [\n" ++
        "    \x7b port = 80, cidr_blocks = [\"10.0.0.0/8\"] \x7d\n  ]\n\x7d"
    else "No specific suggestion available for this Terraform issue"
  | "ansible" =>
    if about "package" then
      start ++ "specify package versions:\npackages = \x7b\n  nginx = \"1.18.0\"\n  python3 = \"3.8.10\"\n\x7d"
    else if about "service" then
      start ++ "ensure services are properly configured:\nservices = \x7b\n" ++
        "  running = [\"nginx\"]\n  enabled = [\"nginx\"]\n\x7d"
    else "No specific suggestion available for this Ansible issue"
  | _ => "No specific suggestion available"

def advice (locator : Locator) (r : Remark) : String :=
  match r.place.map locator.resolve with
  | none => "Unable to provide specific suggestion - source location unknown"
  | some l =>
    match l.subject with
    | .block _ name => r.adviceAt name
    | .resource .. => r.adviceAt ""

def summary (kinds : List RemarkKind) : List String :=
  let errors := kinds.count .error
  let warnings := kinds.count .warning
  let counted (n : Nat) (any zero : Text.Colour) :=
    coloured (if n == 0 then zero else any) (toString n)
  let verdict :=
    if errors != 0 then
      bold .red "\n✗ Validation failed! Please fix critical issues before proceeding."
    else if warnings != 0 then
      coloured .yellow "\n⚠ Validation completed with warnings. Review them before proceeding."
    else bold .green "\n✓ All validations passed successfully!"
  ["\n=== Validation Summary ===", "Critical Issues: " ++ counted errors .red .green,
    "Warnings: " ++ counted warnings .yellow .green,
    "Suggestions: " ++ counted (kinds.count .suggestion) .blue .blue, verdict]

end Remark

/-- A message under the label of the program. A label in the message gives way to it; one of an
error or a warning colours the rest. -/
def labelled (message : String) : String :=
  let label := coloured .blue "CLOUD:"
  let after (n : Nat) : String := strip (drop n message)
  if strip message == "" then ""
  else if startsWith message "CLOUD:" then label ++ " " ++ after 6
  else if startsWith message "CLOUD ERROR:" then label ++ coloured .red (" ERROR: " ++ after 12)
  else if startsWith message "CLOUD WARNING:" then label ++
    coloured .yellow (" WARNING: " ++ after 14)
  else label ++ " " ++ message

end Stratus
