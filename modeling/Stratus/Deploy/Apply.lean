import Stratus.Deploy.Infrastructure
import Stratus.Diagnosis.Kubernetes

/-!
Applying everything that was generated: the infrastructure, the Kubernetes resources on the cluster
of its provider, and the playbook on the mapped instances.
-/
namespace Stratus.Apply

open Job

def lacksKey (type : String) (machine : Data) : Outcome Bool := do
  if type == "aws_instance" then return !(← machine.has "key_name")
  if !(← machine.has "metadata") then return true
  let metadata ← machine.get "metadata"
  if !metadata.holds then return true
  return !(← metadata.has "ssh-keys")

def needsKey (config : Data) : Outcome Bool := do
  if !(← config.has "resource") then return false
  (← (← config.item "resource").entries).anyM fun (type, machines) => do
    if type == "aws_instance" || type == "google_compute_instance" then
      (← machines.values).anyM (lacksKey type)
    else return false

def enterKey (dir : String) (config : Data) (provider : String) (region : Data) : Job Data := do
  let name ← Keys.setUp dir region provider
  let path := Path.join (Keys.directory dir) name
  let user ← RemoteUser.find dir
  KeyPair.enter (← disk) config path provider user

def addAddresses (config : Data) : Outcome Data := do
  if !(← config.has "resource") then return config
  let config ← Infrastructure.withOutputs config
  let config ← Infrastructure.addressesOf "aws_instance" Infrastructure.awsOutputs config
  Infrastructure.addressesOf "google_compute_instance" Infrastructure.googleOutputs config

def infrastructure (dir : String) : Job Unit :=
  Infrastructure.apply { needsKey, enterKey := enterKey dir, addAddresses, tfvars := none } dir

/-- The name of the cluster in an output; where it is blank, all outputs are told. -/
def clusterOf (outputs output : Data) : Job Data := do
  let name ← output.item "value"
  tell ("Using cluster name: " ++ name.text)
  if !name.holds then
    for (key, value) in ← outputs.entries do
      tell ("- " ++ key ++ ": " ++ value.text)
  return name

def clusterIn (outputs : Data) (label ending : String) : Job Data := do
  match (← outputs.entriesFor "keys").find? fun e => Text.endsWith e.1 ending with
  | some (_, output) => clusterOf outputs output
  | none =>
    throw (.failure s!"No {label} cluster output found. Expected output key ending with '{ending}'")

def cluster? (label : String) (find : Job Data) : Job (Option Data) := do
  try some <$> find
  catch fault =>
    report (.general "containers"
      s!"Failed to get {label} cluster name from Terraform output: {fault.message}")
    return none

def resourcesFile (dir : String) : String := Path.join dir "resources.yml"

def followResources (reply : Reply) : Job Unit :=
  follow announce (fun line => do
    warn ("WARN: " ++ line)
    emit ("WARN: " ++ line)) reply

/-- Whether a step succeeded; its failure is printed and reported under a heading. -/
def orReport (heading : String) (body : Job Unit) : Job Bool := do
  try
    body
    return true
  catch fault =>
    alarm (heading ++ fault.message)
    report (.general "containers" (heading ++ fault.message))
    return false

def checkCluster : Job Unit := do
  let reply ← run (words ["kubectl", "cluster-info"])
  if reply.code != 0 then throw (.failure ("Failed to connect to cluster: " ++ reply.err))
  announce "Successfully connected to GKE cluster"

def applyToCluster (dir : String) : Job Unit := do
  let reply ← start ["kubectl", "apply", "-f", resourcesFile dir]
  followResources reply
  if reply.code != 0 then throw (.failure s!"kubectl apply failed with return code {reply.code}")
  announce "Successfully applied Kubernetes resources to GKE cluster"

def useGoogle (dir : String) (config outputs : Data) : Job Bool := do
  enter "Starting Kubernetes deployment to GKE..."
  try
    let settings ← (← config.item "provider").item "google"
    let project ← settings.item "project"
    let zone ← settings.item "zone"
    let some name ← cluster? "GKE" (clusterIn outputs "GKE" "_gke_cluster_id") | return false
    tell ("Using cluster name: " ++ name.text)
    enter s!"Configuring kubectl for GKE cluster in project {project.text}, zone {zone.text}..."
    runChecked (words ["gcloud", "container", "clusters", "get-credentials"] ++
      [name, .str ("--zone=" ++ zone.text), .str ("--project=" ++ project.text)])
    enter "Successfully configured kubectl for GKE"
    if !(← orReport "Cluster connectivity check failed: " checkCluster) then return false
    enter "Applying Kubernetes resources to GKE cluster..."
    orReport "Failed to apply Kubernetes resources: " (applyToCluster dir)
  catch fault =>
    alarm ("Failed to configure GKE access: " ++ fault.message)
    report (.general "containers" ("Failed to configure GKE access: " ++ fault.message))
    return false

def updateConfig (name region : Data) : Job Bool := do
  try
    runChecked (words ["aws", "eks", "update-kubeconfig", "--name"] ++
      [name, .str "--region", region])
    return true
  catch
    | .commandFailed argv code =>
      let fault := Fault.commandFailed argv code
      report (.general "containers" ("Failed to update kubeconfig: " ++ fault.message))
      return false
    | fault => throw fault

def useAws (outputs region : Data) : Job Bool := do
  enter "Starting Kubernetes deployment to EKS..."
  awsSession [("region_name", region)]
  awsClient "eks" []
  let some name ← cluster? "EKS" (clusterIn outputs "EKS" "_eks_cluster_main_id") | return false
  enter "Configuring kubectl for EKS..."
  updateConfig name region

def applyResources (dir : String) : Job Unit := do
  let reply ← start ["kubectl", "apply", "-f", resourcesFile dir, "--v=6"]
  followResources reply
  if reply.code != 0 then
    reportAny (← trace (Diagnosis.Kubernetes.ofMessage "Unknown error occurred"))
    emit "ERROR: Kubernetes deployment failed"
  else emit "Kubernetes deployment complete"

def guarded (body : Job Unit) : Job Unit := do
  try body
  catch fault =>
    alarm ("Exception during Kubernetes deployment: " ++ fault.message)
    report (.general "containers" fault.message)

def kubernetes (dir : String) : Job Unit := guarded do
  let outputs ← Playbook.outputs
  let config ← readJson (Playbook.configFile dir)
  let (provider, region) ← Provider.of config
  let ready ← if provider == "google" then useGoogle dir config outputs else useAws outputs region
  if !ready then return
  enter "Applying Kubernetes resources..."
  applyResources dir

def configuration (dir : String) : Job Unit := do
  try
    let path := Path.join dir "mappings.json"
    if !(← disk).holds path then
      report (.general "configuration" "mappings.json not found")
      return
    let mappings ← readJson path
    take (← separately (Playbook.applyMappings dir mappings))
  catch fault => report (.general "configuration" fault.message)

def all (dir : String) : Job Unit := do
  infrastructure dir
  kubernetes dir
  configuration dir

end Stratus.Apply
