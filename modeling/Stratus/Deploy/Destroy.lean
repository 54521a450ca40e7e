import Stratus.Deploy.Infrastructure
import Stratus.Diagnosis.Validation

/-!
Taking down what was deployed.
-/
namespace Stratus.Destroy

open Job Text Text.Piece

def isProgress (line : String) : Bool := containsAny (lower line)
  ["destroying...", "destroyed", "plan:", "changes:", "destroy complete!"]

def followLine (line : String) : Job Unit := do
  if containsAny (lower line) ["terraform used provider", "enter a value"] then return
  if isProgress line then announce line

def followError (line : String) : Job Unit := do
  alarm ("ERROR: " ++ line)
  emit ("ERROR: " ++ line)
  Infrastructure.diagnose [] line

def infrastructure (dir : String) : Job Unit := do
  try
    let _ ← Provider.of (← readJson (Playbook.configFile dir))
    announce "Starting infrastructure destruction"
    let reply ← start ["terraform", "destroy", "-auto-approve"]
    watch followLine followError reply.looks (feedLines reply.out) (feedLines reply.err)
    if reply.code == 0 then emit "Infrastructure destruction complete"
    else emit "ERROR: Infrastructure destruction failed"
  catch fault =>
    alarm ("ERROR: " ++ fault.message)
    report (.general "infrastructure" fault.message)

def tfvars : Data := .map [("aws_region", .str "us-west-2"), ("assume_role_arn", .str "")]

def emitLabelled (message : String) : Job Unit := emit (labelled message)

def followLabelled (line : String) : Job Unit := do
  if Infrastructure.noisy line || contains (lower line) "enter a value" then return
  let line := Infrastructure.withoutTool line
  if contains line "Destroy complete!" then
    if let some count := Pattern.first (grab digits ++ [gap, text "destroyed"]) line then
      emitLabelled s!"Destroyed {count} resources"
  else if containsAny line ["Destroying", "Destroyed"] then emitLabelled line

/-- Destroys the infrastructure with default variables; a failure is all that is told then. -/
def withDefaults (dir : String) : Job Unit := do
  let path := Path.join dir "terraform.tfvars.json"
  try
    write path (Json.write .indented tfvars)
    let part ← separately do
      emitLabelled "Starting infrastructure destruction"
      let reply ← start
        ["terraform", "destroy", "-auto-approve", "-no-color", "-var-file=terraform.tfvars.json"]
      (linesOf reply.out).forM followLabelled
      for line in split reply.err "\n" do
        let line := strip line
        if line != "" then emitLabelled ("ERROR: " ++ line)
      emitLabelled (if reply.code == 0 then "Infrastructure destruction complete"
        else "ERROR: Infrastructure destruction failed")
    take part
  catch fault => emitLabelled ("ERROR: " ++ fault.message)
  finally removeIfThere path

def kubernetes (dir : String) (w : Workspace) : Job Bool := do
  if w.kubernetes.isNone then throw (.missingKey (.str "kubernetes"))
  let reply ← run (words ["kubectl", "delete", "-f", Path.join dir "resources.yml"])
  return reply.code == 0

end Stratus.Destroy
