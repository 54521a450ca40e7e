import Stratus.Diagnosis.Basic

/-!
Messages of the infrastructure tool, explained by the networks, instances and provider settings of
the description.
-/
namespace Stratus.Diagnosis.Terraform

open Text Text.Piece

def headOf (message sep : String) : String := strip (before message sep)

def expectedParam : Pattern :=
  [text "expected", gap] ++ grab word ++ [gap, text "to", gap, text "contain"]

def invalidParam : Pattern := [text "invalid", gap] ++ grab word ++ [text ":"]

def ofResource (patterns : List Pattern) (id whole message : String) :
    Tracing (Option Diagnosis) := do
  let head := headOf message ("with " ++ id)
  if let some (param :: _) := Pattern.searchAny patterns message then
    if let some place ← Locator.param? id param then
      return some {
        message := head, place, suggestion :=
          some "Check the parameter value meets AWS requirements" }
  let some place ← Locator.find? id | return none
  return some { message := head, place, suggestion := some whole }

def network : String → Tracing (Option Diagnosis) :=
  ofResource [expectedParam] "aws_vpc.vpc" "Check the VPC configuration"

def machine (context : Assoc Data) (message : String) : Tracing (Option Diagnosis) :=
  ofResource [expectedParam, invalidParam]
    ("aws_instance." ++ (Assoc.getD context "resource_name" (.str "instance")).text)
    "Check the instance configuration" message

/-- The property that a message complains about, if the message proposes another one for it. -/
def extraneousName? (message : String) : Option String := do
  let name ← Pattern.first ([text "\""] ++ grab (upTo '"' 1) ++
    [text "\":", blanks, text "\x7b"]) message
  let _ ← Pattern.first ([text "No argument or block type is named \"", upTo '"' 1,
    text "\". ", .mark,
    text "Did you mean", .shortRun inLine 1, .mark, text "?"]) message
  return name

/-- Whether a line with the name stands in a network block, which opens at most four lines above it.
-/
def inNetwork (content name : String) : Bool :=
  let lines := feedLines content
  let opened (i : Nat) := ((lines.take i).drop (i - 5)).any fun l => startsWith (strip l) "network"
  (lines.zipIdx 1).any fun (line, i) => contains line name && opened i

/-- A property that no resource has. Its line in a network block is found, but a location of that
form cannot be given. -/
def property (message : String) : Tracing (Option Diagnosis) := do
  let some name := extraneousName? message | return none
  if inNetwork (← (← read).readText (← get).path) name then throw .unplaceable else return none

def inPlainTerms (message : String) : String :=
  let message := strip (replace message "Error:" "")
  replace (replace message "aws_instance" "compute instance") "aws_vpc" "network"

def suggestion (message kind : String) : String :=
  if kind == "aws_vpc" then
    "Check your network configuration. Ensure CIDR blocks are properly formatted."
  else if kind == "aws_instance" && contains message "instance_type" then
    "Use a valid instance type (e.g., 't2.micro', 't2.small')"
  else if kind == "aws_instance" && contains message "subnet" then
    "Ensure the instance is being placed in a valid subnet"
  else "Check the configuration values in your .cloud file"

def isLowName (c : Char) : Bool := ('a' ≤ c && c ≤ 'z') || c == '_'

def resource (message : String) : Tracing (Option Diagnosis) := do
  if (Pattern.search [text "on ", upTo ':' 1, text ":", digits] message).isNone then return none
  let some [kind, name] := Pattern.search
    ([.mark, text "aws_", .run isLowName 1, .mark, text "."] ++ grab (.run isLowName 1))
    message | return none
  let some place ← Locator.find? (kind ++ "." ++ name) | return none
  let location ← Locator.locate place
  let lines := feedLines (← (← read).readText (location.file?.getD ""))
  let index := if location.line ≥ 1 then location.line - 1 else lines.length + location.line - 1
  let some line := if index < 0 then none else lines[index.toNat]? | throw (.indexOutOfRange "list")
  return some {
    message := inPlainTerms message
    place := some (.fixed ⟨location.line, location.column, "infrastructure",
      .resource (some (if kind == "aws_vpc" then .network else .compute)) (some name),
      [("original_line", .str (strip line))]⟩)
    suggestion := some (suggestion message kind) }

def dependency (message : String) : Tracing (Option Diagnosis) := do
  if !contains (lower message) "depends on resource" then return none
  let some name := Pattern.first
    (text "resource " :: quotedGrab ++ [.run inLine 0, text "depends on"]) message | return none
  let some needed := Pattern.first (text "depends on " :: quotedGrab) message | return none
  let some place ← Locator.find? name | return none
  let location ← Locator.locate place
  return some {
    message := s!"Resource dependency error: {name} depends on {needed} which doesn't exist"
    place := some (.fixed ⟨location.line, location.column, "infrastructure",
      .resource (some .compute) (some name),
      [("dependency", .str needed), ("resource", .str name)]⟩)
    suggestion := some s!"Ensure {needed} is defined before {name} in your .cloud file"
    details := some "Resources must be defined before they can be referenced" }

def size (message : String) : Tracing (Option Diagnosis) := do
  let some [name, size] := Pattern.search
    (text "aws_instance." :: grab solid ++ [.run inLine 0, text "size "] ++ quotedGrab)
    message | return none
  let some place ← Locator.find? ("aws_instance." ++ name) | return none
  let location ← Locator.locate place
  return some {
    message := s!"Invalid instance size '{size}' for compute resource '{name}'"
    place := some (.fixed ⟨location.line, location.column, "infrastructure",
      .resource (some .compute) (some name),
      [("invalid_size", .str size)]⟩)
    suggestion := some "Change size to a valid instance type"
    details := some "Common sizes: t2.micro, t2.small, t2.medium" }

/-- A trouble with the provider itself, which needs a line of the provider settings to point to. -/
def provider (head advice : String) : Tracing (Option Diagnosis) := do
  let some place ← Locator.find? "aws_provider" | throw .unplaceable
  return some { message := head, place, suggestion := some advice }

def resourceIn? (message : String) : Option (String × String) :=
  match Pattern.search ([text "with", gap, .mark, text "aws_", word, .mark, text "."] ++ grab word)
    message with
  | some [kind, name] => some (kind, name)
  | _ => none

def withResource (context : Assoc Data) (message : String) : Assoc Data :=
  match resourceIn? message with
  | some (_, name) => Assoc.set context "resource_name" (.str name)
  | none => context

def wrongRegion (message : String) : Bool :=
  contains message "sts." && contains message ".amazonaws.com"

def ofResources (context : Assoc Data) (message : String) :
    Tracing (Option Diagnosis × Assoc Data) := do
  let named := withResource context message
  match (resourceIn? message).map (·.1) with
  | some "aws_vpc" => return (← network message, named)
  | some "aws_instance" => return (← machine named message, named)
  | _ =>
    if containsAny message ["provider packages", "configuring Terraform AWS Provider",
      "provider registry"] then
      return (none, named)
    return (← firstOf [network message, machine named message], named)

def ofProvider (context : Assoc Data) (message : String) :
    Tracing (Option Diagnosis × Assoc Data) := do
  if contains message "configuring Terraform AWS Provider" then
    return (← provider (headOf message "with provider")
      "Check your AWS provider configuration, especially the region format", context)
  if contains message "Failed to query available provider packages" then
    return (← provider (headOf message "All modules")
      "Check your provider name. It should be 'aws' for AWS resources", context)
  ofResources context message

def ofRegion (context : Assoc Data) (message : String) : Tracing (Option Diagnosis × Assoc Data) := do
  if wrongRegion message then
    if let some place ← Locator.find? "aws_provider.region" then
      return (some {
        message := headOf message "with provider", place
        suggestion := some
          "Check the AWS region format. It should be in the format 'us-west-2', not 'us-west2'" },
            context)
  ofProvider context message

def extraneous : String := "Error: Extraneous JSON object property"

def ofMessage (context : Assoc Data) (message : String) :
    Tracing (Option Diagnosis × Assoc Data) := do
  if contains message extraneous then
    if let some d ← property message then return (some d, context)
  ofRegion context message

end Stratus.Diagnosis.Terraform
