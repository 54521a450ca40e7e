import Stratus.Deploy.Playbook
import Stratus.Diagnosis.Kubernetes
import Stratus.Diagnosis.Terraform

/-!
Planning: what the tools would change, without changing anything. The cluster is tried on a local
one and the playbook in a container.
-/
namespace Stratus.PlanLine

open Text Text.Piece

def kindOf? : String → Option String
  | "aws_instance" => some "compute"
  | "aws_vpc" => some "network"
  | _ => none

def infrastructureChange (action kind name : String) : String :=
  s!"{action}: {kind} '{name}' in infrastructure block"

def terraform? (line : String) : Option String := do
  let [sign, type, name] ← Pattern.atStart ([blanks] ++ grab (words ["-", "+", "~"]) ++ [blanks] ++
    grab word ++ [text "."] ++ grab word) line | none
  let kind ← kindOf? type
  let action := if sign == "+" then "CREATE" else if sign == "-" then "DELETE" else "MODIFY"
  return infrastructureChange action kind name

def isNameChar (c : Char) : Bool := isWordChar c || c == '-'

def kubernetes? (line : String) : Option String := do
  let [_, name, done] ← Pattern.atStart
    (grab (.run (fun c => isWordChar c || c == '.') 1) ++ [text "/"] ++
    grab (.run isNameChar 1) ++ [gap] ++
      grab (words ["created", "configured", "unchanged"])) line | none
  let action := if done == "created" then "CREATE" else if done == "configured" then "MODIFY"
    else "NO CHANGE"
  return s!"{action}: container '{name}' in containers block"

def item? (line : String) : Option String :=
  Pattern.first (text "item=" :: grab (.run isNameChar 1)) line

def ansible? (line : String) : Option String :=
  if !contains line "changed:" then none
  else if contains line "item=" then (item? line).map fun item =>
    s!"MODIFY: package '{item}' in configuration block"
  else some "MODIFY: configuration settings"

end Stratus.PlanLine

namespace Stratus.Plan

open Text Text.Piece
open Job hiding words

def advise (blockType message suggestion : String) : Job Unit :=
  report { Diagnosis.general blockType message with suggestion := some suggestion }

def planned (out : String) : Job Unit := do
  for line in lines out do
    if let some [type, name] :=
      Pattern.search ([text "resource "] ++ quotedGrab ++ [text " "] ++ quotedGrab) line then
      if let some kind := PlanLine.kindOf? type then
        enter (PlanLine.infrastructureChange "CREATE" kind name)

def resourceContext (message : String) : Assoc Data :=
  match Pattern.search ([text "Error: ", .run inLine 0, text " "] ++ quotedGrab ++ [text " "] ++
    quotedGrab) message with
  | some [type, name] =>
    [("current_resource_type", .str type), ("current_resource_name", .str name)]
  | _ => []

def tellOutputs (label : String) (reply : Reply) : Job Unit := do
  tell (label ++ " stdout: " ++ reply.out)
  tell (label ++ " stderr: " ++ reply.err)

def diagnose (context : Assoc Data) (message : String) : Job Unit := do
  reportAny (← trace (Diagnosis.Terraform.ofMessage context message)).1

def infrastructureSteps (dir : String) : Job Unit := do
  let path := Playbook.configFile dir
  let context : Assoc Data ← if (← disk).holds path then do
      let config ← readJson path
      if ← config.has "resource" then pure [("resources", ← config.item "resource")] else pure []
    else pure []
  let reply ← start ["terraform", "init"]
  tellOutputs "Terraform init" reply
  if reply.code != 0 then
    diagnose [] reply.err
    return
  let reply ← start ["terraform", "plan", "-no-color"]
  tellOutputs "Terraform plan" reply
  if reply.code != 0 then diagnose (Assoc.update context (resourceContext reply.err)) reply.err
  else planned reply.out

/-- Plans the infrastructure. What ends the plan early is told but not reported. -/
def infrastructure (dir : String) : Job Unit := do
  try infrastructureSteps dir
  catch fault => tell ("Exception in terraform plan: " ++ fault.message)

def dockerRuns : Job Bool := do
  try
    let reply ← run (Job.words ["docker", "info"])
    if reply.code == 0 then return true
    report { message := "Docker is not running"
             place := some (.fixed { Location.start "containers" with
               subject := .resource (some .container) (some "all") })
             suggestion := some "Start Docker before running Kubernetes plan" }
    return false
  catch
    | .noFile _ =>
      advise "containers" "Docker is not installed" "Install Docker to proceed with Kubernetes plan"
      return false
    | fault => throw fault

/-- Reads along while a command runs: one line of each output each time it is asked. -/
def readAlong (label : String) : Nat → List String → List String → Job (List String × List String)
  | 0, out, err => return (out, err)
  | n + 1, out, err => do
    if let some line := out.head? then tell (label ++ ": " ++ strip line)
    if let some line := err.head? then tell (label ++ " error: " ++ strip line)
    readAlong label n (out.drop 1) (err.drop 1)

def startCluster : Job Bool := do
  let reply ← run (Job.words ["minikube", "stop"])
  tell ("Stop output: " ++ reply.out)
  let reply ← run (Job.words ["minikube", "delete"])
  tell ("Delete output: " ++ reply.out)
  let reply ← start ["minikube", "start", "--driver=docker", "--force"]
  let (out, err) ← readAlong "Minikube" (reply.looks.length + 1) (feedLines reply.out)
    (feedLines reply.err)
  tell ("Minikube: " ++ strip (String.join out))
  tell ("Minikube error: " ++ strip (String.join err))
  if reply.code == 0 then return true
  advise "containers" ("Failed to start Minikube cluster: " ++ String.join err)
    "Check Docker is running and has sufficient resources"
  return false

def clusterStarts : Job Bool := do
  try startCluster
  catch
    | .noFile _ =>
      advise "containers" "Minikube is not installed"
        "Install Minikube to proceed with Kubernetes plan"
      return false
    | fault => throw fault

def nodesAnswer : Job Bool := do
  let reply ← run (Job.words ["kubectl", "get", "nodes"])
  tellOutputs "kubectl get nodes" reply
  return reply.code == 0

def becomesReady : Nat → Job Bool
  | 0 => return false
  | n + 1 => do
    let ready ← try nodesAnswer catch fault => do
      tell ("Error checking Kubernetes cluster status: " ++ fault.message)
      pure false
    if ready then return true
    sleep 5
    becomesReady n

def resourceTypes : List String :=
  ["deployment", "service", "pod", "configmap", "horizontalpodautoscaler"]

def actionOf (line : String) : String :=
  let has (part : String) : Bool := contains (lower line) part
  if has "created" then "CREATE"
  else if has "configured" || has "unchanged" then "MODIFY"
  else if has "deleted" then "DELETE"
  else "UPDATE"

def tried (out : String) : Job Unit := do
  for line in lines out do
    if containsAny (lower line) resourceTypes then
      tell ("Found change line: " ++ line)
      let found := Pattern.searchAnyCase
        (grab (words resourceTypes) ++ [words ["/", "."]] ++ grab solid) line
      if let some [type, name] := found then
        let change := s!"{actionOf line}: {type} '{name}' in containers block"
        tell ("Converted to cloud change: " ++ change)
        emit change

def kubernetesSteps (dir : String) : Job Unit := do
  if !(← dockerRuns) then return
  if !(← clusterStarts) then return
  if !(← becomesReady 5) then
    advise "containers" "Kubernetes cluster failed to become ready"
      "Ensure Minikube started correctly and Kubernetes components are running"
    return
  let reply ← run (Job.words ["kubectl", "apply", "--dry-run=server", "-f",
    Path.join dir "resources.yml"])
  tellOutputs "Kubectl apply" reply
  if reply.code != 0 then reportAny (← trace (Diagnosis.Kubernetes.ofMessage reply.err))
  else tried reply.out

def removeCluster : Job Unit := do
  try
    let _ ← run (Job.words ["minikube", "stop"])
    let _ ← run (Job.words ["minikube", "delete"])
  catch fault => tell ("Error during cleanup: " ++ fault.message)

def kubernetes (dir : String) : Job Unit := do
  try kubernetesSteps dir
  catch fault =>
    tell ("Exception in kubernetes plan: " ++ fault.message)
    report (.general "containers" ("Failed to validate Kubernetes configuration: " ++ fault.message))
  finally removeCluster

def container : String := "ansible_ubuntu_test"

def image : String := "geerlingguy/docker-ubuntu2204-ansible"

def localInventory : String := "
all:
    hosts:
        localhost:
            ansible_connection: local
    children:
        web_servers:
            hosts:
                localhost
"

def inventoryName : String := "temp_inventory.yml"

def inventoryFile (dir : String) : String := Path.join dir inventoryName

def shownInventory (dir : String) : String := Path.join (Disk.absolute dir) inventoryName

/-- Readies the inventory of the container; answers whether there is something to run in it. -/
def prepare (dir : String) : Job Bool := do
  try
    runChecked (Job.words ["docker", "--version"])
    tell ("Resolved IaC path: " ++ Disk.absolute dir)
    if !(← disk).holds (Path.join dir "playbook.yml") then return false
    write (inventoryFile dir) localInventory
    tell ("Created temporary inventory at " ++ shownInventory dir)
    return true
  catch _ => return false

def updateScript : String :=
  "apt-get update && apt-get install -y apt-transport-https ca-certificates curl gnupg lsb-release && " ++
  "curl -fsSL https://download.docker.com/linux/ubuntu/gpg | apt-key add - && " ++
  "add-apt-repository 'deb [arch=amd64] https://download.docker.com/linux/ubuntu focal stable' && " ++
  "apt-get update"

def inContainer (command : List String) : List String := ["docker", "exec", container] ++ command

def runPlaybook (options : List String) : Job Reply := do
  start (["docker", "exec", "-e", "ANSIBLE_BECOME_PASS=" ++ (← get).password, container,
    "ansible-playbook"] ++
    options ++ ["-i", "/workspace/temp_inventory.yml", "/workspace/playbook.yml"])

def configured? (task : Option String) (line : String) : Option String :=
  if contains line "item=" then do
    let item ← PlanLine.item? line
    let installs := (task.map fun t => startsWith (lower t) "install").getD false
    let action := if installs then "CREATE" else "MODIFY"
    return s!"{action}: package '{item}' in configuration block"
  else do
    let [_, name] ← Pattern.search (grab (words ["service", "name"]) ++ [text "="] ++
      grab (.run PlanLine.isNameChar 1)) line | none
    return s!"MODIFY: service '{name}' in configuration block"

def followTasks : Option String → List String → Job Unit
  | _, [] => pure ()
  | task, line :: rest => do
    if contains line "TASK [" then
      let name := Pattern.first ([text "TASK ["] ++ grab (.shortRun inLine 0) ++ [text "]"]) line
      followTasks (name <|> task) rest
    else
      if contains line "changed:" then (configured? task line).forM enter
      followTasks task rest

/-- Runs the playbook again after starting the service that the container cannot manage. -/
def runAgain : Job Reply := do
  let _ ← run (Job.words (inContainer ["bash", "-c", "nginx -g 'daemon off;' &"]))
  let reply ← runPlaybook ["--check", "--diff"]
  tellOutputs "Re-run Ansible check" reply
  return reply

def check (dir : String) : Job Unit := do
  runChecked (Job.words ["docker", "pull", image])
  runChecked (Job.words ["docker", "run", "-d", "--rm", "--name", container,
    "-v", Disk.absolute dir ++ ":/workspace", "-w", "/workspace", image, "sleep", "3600"])
  runChecked (Job.words (inContainer ["bash", "-c", updateScript]))
  let reply ← runPlaybook ["--diff"]
  tellOutputs "Ansible check" reply
  if reply.code == 0 then followTasks none (lines reply.out)
  else
    let unmanaged := contains (reply.out ++ reply.err) "Could not find the requested service nginx"
    let reply ← if unmanaged then runAgain else pure reply
    if reply.code != 0 then
      report (.general "configuration" ("Failed to execute Ansible playbook: " ++ reply.err))

def checkReported (dir : String) : Job Unit := do
  try check dir
  catch
    | .commandFailed argv code =>
      let message := (Fault.commandFailed argv code).message
      tell ("Error during Docker or Ansible execution: " ++ message)
      report (.general "configuration" ("Failed to execute Ansible check in Docker: " ++ message))
    | fault => throw fault

def removeContainer (dir : String) : Job Unit := do
  let _ ← run (Job.words ["docker", "stop", container])
  let there := (← disk).isFile (inventoryFile dir)
  removeIfThere (inventoryFile dir)
  if there then tell ("Deleted temporary inventory at " ++ shownInventory dir)

/-- Checks the playbook in a container. Where none can be started there is none to remove, and the
check fails for that. -/
def configuration (dir : String) : Job Unit := do
  if !(← prepare dir) then throw (.unbound "container_name")
  try checkReported dir
  catch fault =>
    let message := "Unexpected error during Docker setup: " ++ fault.message
    report (.general "configuration" message)
    tell message
  finally removeContainer dir

/-- Plans everything; only the changes and troubles of the infrastructure are kept. -/
def all (dir : String) : Job Unit := do
  infrastructure dir
  let _ ← separately (kubernetes dir)
  let _ ← separately (configuration dir)

end Stratus.Plan
