import Stratus.Deploy.KeyPair
import Stratus.Deploy.Playbook
import Stratus.Diagnosis.Terraform

/-!
Applying the infrastructure configuration of a directory. For the time of the run the configuration
is replaced by one that has the keys and outputs it needs; afterwards the old one is back.
-/
namespace Stratus.Provider

def known : List (String × String × String) := [
  ("aws", "region", "us-east-1"), ("google", "region", "us-central1"),
    ("azurerm", "location", "eastus")]

def firstOf (providers : Data) : List (String × String × String) → Outcome (String × Data)
  | [] => .ok ("aws", .str "us-east-1")
  | (name, setting, region) :: rest => do
    if ← providers.has name then
      return (name, ← (← providers.item name).getD setting (.str region))
    else firstOf providers rest

def of (config : Data) : Outcome (String × Data) := do
  if ← config.has "provider" then firstOf (← config.item "provider") known
  else return ("aws", .str "us-east-1")

end Stratus.Provider

namespace Stratus.Infrastructure

open Job Text Text.Piece

structure AddressOutput where
  name : String
  value : String
  description : String

def AddressOutput.record (o : AddressOutput) : Data :=
  .map [("value", .str ("$\x7b" ++ o.value ++ "\x7d")), ("description", .str o.description)]

def awsOutputs (name : String) : List AddressOutput := [
  ⟨s!"ec2_{name}_public_ip", s!"aws_instance.{name}.public_ip", s!"Public IP of EC2 instance {name}"⟩,
  ⟨s!"ec2_{name}_private_ip", s!"aws_instance.{name}.private_ip",
    s!"Private IP of EC2 instance {name}"⟩]

def googleOutputs (name : String) : List AddressOutput := [
  ⟨s!"gcp_{name}_public_ip",
    s!"google_compute_instance.{name}.network_interface.0.access_config.0.nat_ip",
    s!"Public IP of GCP instance {name}"⟩,
  ⟨s!"gcp_{name}_private_ip", s!"google_compute_instance.{name}.network_interface.0.network_ip",
    s!"Private IP of GCP instance {name}"⟩]

def addOutputs (outputs : Data) (added : List AddressOutput) : Outcome Data :=
  added.foldlM (fun outputs o => do
    if ← outputs.has o.name then return outputs else outputs.put o.name o.record) outputs

def addressesOf (type : String) (outputsOf : String → List AddressOutput) (config : Data) :
    Outcome Data := do
  let resources ← config.item "resource"
  if !(← resources.has type) then return config
  let names ← (← resources.item type).keys
  if names.isEmpty then return config
  config.put "output" (← addOutputs (← config.item "output") (names.flatMap outputsOf))

def withOutputs (config : Data) : Outcome Data := do
  if ← config.has "output" then return config else config.put "output" (.map [])

def anyInstance (type : String) (p : Data → Outcome Bool) (config : Data) : Outcome Bool := do
  if !(← config.has "resource") then return false
  match Assoc.get? (← (← config.item "resource").entries) type with
  | some machines => (← machines.values).anyM p
  | none => return false

structure Preparation where
  needsKey : Data → Outcome Bool
  enterKey : Data → String → Data → Job Data
  addAddresses : Data → Outcome Data
  tfvars : Option (Data → Bool → Data)

/-- Puts the prepared configuration in the place of the old one, for the time of a run. -/
def swapped (dir : String) (config : Data) (body : Job Unit) : Job Unit := do
  let path := Playbook.configFile dir
  let draft := Path.join dir "main.tf.json.tmp"
  let backup := Path.withSuffix path ".backup"
  write draft (Json.write .indented config)
  changeDisk (·.rename path backup)
  try
    changeDisk (·.rename draft path)
    body
  finally
    changeDisk fun d => if d.holds backup then d.rename backup path else .ok d

def withVariables (dir : String) (values : Option Data) (body : Job Unit) : Job Unit :=
  match values with
  | none => body
  | some values => do
    let path := Path.join dir "terraform.tfvars.json"
    try
      write path (Json.write .spaced values)
      body
    finally
      removeIfThere path

def diagnose (context : Assoc Data) (message : String) : Job Unit := do
  reportAny (← trace (Diagnosis.Terraform.ofMessage context message)).1

def noisy (line : String) : Bool := containsAny (lower line)
  ["terraform will perform", "terraform used provider", "terraform has made some changes"]

def withoutTool (line : String) : String :=
  Pattern.dropAll Pattern.anyCase [text "terraform", gap] line

def counts? (line : String) : Option (List String) := do
  let [added, changed, destroyed] ←
    Pattern.search (grab digits ++ [gap, text "added,", gap] ++ grab digits ++
    [gap, text "changed,", gap] ++ grab digits ++ [gap, text "destroyed"]) line | none
  return [s!"Added {added} resources", s!"Modified {changed} resources",
    s!"Removed {destroyed} resources"]

def followLine (line : String) : Job Unit := do
  if noisy line then return
  let line := withoutTool line
  if contains line "Error:" then
    alarm ("ERROR: " ++ line)
    emit ("ERROR: " ++ line)
    diagnose [("error_message", .str line)] line
  else if contains line "Apply complete!" then
    ((counts? line).getD []).forM emit
  announce line

def deploy : Job Unit := do
  enter "Initializing Terraform..."
  let reply ← start ["terraform", "init"]
  if reply.code != 0 then
    diagnose [] reply.err
    return
  enter "Starting infrastructure deployment..."
  let reply ← start ["terraform", "apply", "-auto-approve", "-no-color"]
  (linesOf reply.out).forM followLine
  if reply.err != "" then
    alarm ("ERROR: " ++ reply.err)
    emit ("ERROR: " ++ reply.err)
    diagnose [] reply.err
  if reply.code != 0 then emit "ERROR: Infrastructure deployment failed"
  else emit "Infrastructure deployment complete"

def apply (p : Preparation) (dir : String) : Job Unit := do
  try
    let config ← readJson (Playbook.configFile dir)
    let needsKey ← p.needsKey config
    let (provider, region) ← Provider.of config
    let copy ← config.copied
    let keyed ← if needsKey then p.enterKey config provider region else pure copy
    let prepared ← p.addAddresses keyed
    swapped dir prepared do
      withVariables dir (p.tfvars.map fun values => values region needsKey) deploy
  catch fault => report (.general "infrastructure" fault.message)

end Stratus.Infrastructure
