import Stratus.Command.Wording
import Stratus.Deploy.Apply
import Stratus.Deploy.Destroy
import Stratus.Deploy.FileReference
import Stratus.Deploy.Plan
import Stratus.Service.Convert
import Stratus.Source.Printer

/-!
The commands that work on a description: converting it, planning, applying and destroying what it
describes.
-/
namespace Stratus

/-- The text of a description; failures to read it are put in the language's own words. -/
def Disk.description (d : Disk) (path : String) : Outcome String :=
  match d.readText path with
  | .ok text => .ok text
  | .error (.noFile _) => .error (.sourceMissing path)
  | .error fault => .error (.sourceUnreadable fault.message)

def fileConfigurationText (d : Disk) (path : String) : Outcome String := do
  configurationText (← d.description path)

end Stratus

namespace Stratus.Project

open Text (coloured bold)
open Job

def outputDirectory : String := "IaC"

def output (name : String) : String := Path.join outputDirectory name

/-- Writes what comes of the tree of a description. The inventory is there even if the Kubernetes
resources fail. -/
def writeOutputs : Job Unit := do
  changeDisk (·.makeDir outputDirectory)
  let l ← Landscape.ofTree (← get).tree
  let terraform ← l.terraform.1
  let (playbook, inventory) ← Ansible.Plays.generate l.services
  writeDocuments (output "inventory.yml") { sorted := false } [inventory]
  let resources ← Kubernetes.generate [] l.services
  write (output "main.tf.json") terraform
  writeDocuments (output "playbook.yml") { sorted := false } [playbook]
  writeDocuments (output "resources.yml") { marked := true } resources
  l.mappingsText?.forM (write (output "mappings.json"))

def writeConversion (path : String) : Job Unit := do
  let _ ← fileConfigurationText (← disk) path
  writeOutputs

inductive Status where
  | done | failed
deriving DecidableEq

def Status.ofErrors {α : Type} (errors : List α) : Status := if errors.isEmpty then done else failed

def withDescription (path : String) (body : String → Job Status) : Job Status := do
  match FileReference.description? (← disk) path with
  | some file => body file
  | none =>
    echo (coloured .red "\nError: No .cloud file found in the specified path.")
    return .failed

def resolveReferences (dir file : String) : Job Unit := do
  let format := (← get).format
  changeDisk fun disk => .ok (FileReference.resolveAll format dir file disk)

def locate (file : String) : Job Unit := do
  let locator ← Locator.ofFile (← disk) file
  modify fun s => { s with locator }

def convert (path dir : String) : Job Status := withDescription path fun file => do
  echo (bold .yellow "\n⚠️  WARNING ⚠️")
  echo (coloured .yellow Wording.conversionWarning)
  if (← typedLine) != "CONVERT" then
    echo (coloured .yellow "\nConversion cancelled.")
    return .failed
  echo (bold .blue "\n=== Converting Cloud Configuration ===")
  try
    writeConversion file
    resolveReferences dir file
    echo (coloured .green "\n✓ Successfully converted cloud configuration!")
    return .done
  catch fault =>
    echo (coloured .red ("\n✗ Conversion failed: " ++ fault.message))
    return .failed

def plan (path dir : String) : Job Status := withDescription path fun file => do
  resolveReferences dir file
  locate file
  let (changes, errors) ← separately (Plan.all dir)
  if !errors.isEmpty then return .failed
  if changes.isEmpty then echo "\nNo changes detected"
  else
    echo "\nPlanned changes:"
    changes.forM fun change => echo ("  " ++ change)
  return .done

/-- Whether the answer to a question is yes. Neither yes, no nor nothing is asked again. -/
def confirmed : List String → Option (Bool × List String)
  | [] => none
  | line :: rest =>
    let answer := Text.strip (Text.lower line)
    if answer == "y" || answer == "yes" then some (true, rest)
    else if answer == "n" || answer == "no" || answer == "" then some (false, rest)
    else confirmed rest

def confirm : Job Bool := do
  let s ← get
  match confirmed s.typed with
  | none =>
    set { s with typed := [] }
    throw .inputEnded
  | some (answer, rest) =>
    set { s with typed := rest }
    return answer

/-- Plans and asks before an apply. The answer is how the command ends without it, if it does. -/
def approval (dir : String) : Job (Option Status) := do
  let (_, errors) ← separately (Plan.all dir)
  if !errors.isEmpty then
    echo (coloured .red "\nPlan contains errors. Please fix them before applying.")
    return some .failed
  if ← confirm then return none
  echo "\nApply cancelled."
  return some .done

def apply (path dir : String) (approve : Bool) : Job Status := withDescription path fun file => do
  resolveReferences dir file
  locate file
  let ended ← if approve then pure none else approval dir
  match ended with
  | some status => return status
  | none =>
    let (_, errors) ← separately (Apply.all dir)
    return .ofErrors errors

def firstLine : List String → Option (String × List String)
  | [] => none
  | line :: rest => if line == "" then firstLine rest else some (line, rest)

def destructionConfirmed : Job Bool := do
  echo (bold .red "\n!!! WARNING !!!")
  echo (coloured .red "You are about to DESTROY all infrastructure resources!")
  echo (coloured .red "This action cannot be undone and may result in data loss!")
  let s ← get
  match firstLine s.typed with
  | none =>
    set { s with typed := [] }
    throw .inputEnded
  | some (word, rest) =>
    set { s with typed := rest }
    return word == "DESTROY"

def destroy (path dir : String) (approve : Bool) : Job Status := withDescription path fun file => do
  resolveReferences dir file
  echo (bold .red "\n=== Cloud Infrastructure Destruction ===")
  let wanted ← if approve then pure true else destructionConfirmed
  if !wanted then
    echo "\nDestruction cancelled."
    return .done
  locate file
  let (_, errors) ← separately (Destroy.infrastructure dir)
  if errors.isEmpty then echo (coloured .green "\n✓ Successfully destroyed all infrastructure!")
  else echo (coloured .red "\n✗ Infrastructure destruction failed.")
  return .ofErrors errors

end Stratus.Project
