import Stratus.Deploy.Keys
import Stratus.Deploy.Network
import Stratus.Deploy.RemoteUser
import Stratus.Diagnosis.Ansible
import Stratus.Json.Writer

/-!
Running the generated playbook on the instances that the mappings name, over SSH. Where an instance
cannot be reached, its network is opened first.
-/
namespace Stratus.Playbook

open Job Text Text.Piece

def configFile (dir : String) : String := Path.join dir "main.tf.json"

def specifiedKey? (dir : String) : Job (Option String) := do
  let config ← readJson (configFile dir)
  let disk ← disk
  if ← config.has "provider" then
    if ← (← config.item "provider").has "google" then
      if disk.holds (Keys.privateKey dir) then return some (Keys.privateKey dir)
  if !(← config.has "resource") then return none
  let resources ← (← config.item "resource").entries
  let some machines := Assoc.get? resources "aws_instance" | return none
  (← machines.values).findSomeM? fun machine => do
    if !(← machine.has "key_name") then return none
    let name ← machine.item "key_name"
    if !name.holds then return none
    let path := Path.join (Keys.directory dir) (name.text ++ ".pem")
    if disk.holds path then return some path
    throw (.failure (s!"Specified key '{name.text}' not found in .keys directory. " ++
      s!"Please place '{name.text}.pem' in the {Keys.directory dir} folder."))

def key (dir : String) : Job String := do
  let specified ← try specifiedKey? dir catch fault => do
    warn ("Warning reading terraform config: " ++ fault.message)
    pure none
  if let some path := specified then return path
  let names := (← disk).entries (Keys.directory dir)
  match (names.find? (· == Keys.keyName)) <|> (names.find? (endsWith · ".pem")) with
  | some name => return Path.join (Keys.directory dir) name
  | none => throw (.failure (s!"No SSH key found in {Keys.directory dir}. " ++
      "Please place your SSH private key in this directory."))

/-- The public address among the outputs: that of a Google instance, or else the first one that is
named so. -/
def publicAddress? (outputs : Data) : Job Data := do
  let entries ← outputs.entries
  for (name, value) in entries do
    tell ("- " ++ name ++ ": " ++ value.text)
  if let some single := Assoc.get? entries "instance_ip" then
    let address ← single.get "value"
    if address.holds then return address
  for (name, value) in entries do
    if let .map fields := value then
      if contains name "public_ip" then
        if let some address := Assoc.get? fields "value" then
          tell ("Found public IP in output: " ++ name)
          return address
  return .null

def isGoogle (dir : String) : Job Bool := do
  (← (← readJson (configFile dir)).getD "provider" (.map [])).has "google"

def userFor (dir : String) : Job String := do
  if ← isGoogle dir then return "debian" else RemoteUser.find dir

def reachable (dir : String) (address : Data) (key : String) : Job Bool := do
  try
    tell s!"Testing SSH connection to {address.text}..."
    requireFile key
    let user ← userFor dir
    let reply ← run (words ["ssh", "-i", key, "-o", "StrictHostKeyChecking=no", "-o",
      "ConnectTimeout=10",
      s!"{user}@{address.text}", "echo \"SSH test successful\""])
    if reply.code == 0 then return true
    warn ("SSH connection failed: " ++ reply.err)
    return false
  catch fault =>
    warn ("SSH test error: " ++ fault.message)
    return false

def inventory (address : Data) (user key : String) : Data :=
  .map [("all", .map [("hosts", .map [("web_server_hosts", .map [
    ("ansible_host", address), ("ansible_user", .str user),
    ("ansible_ssh_private_key_file", .str key),
    ("ansible_ssh_common_args", .str "-o StrictHostKeyChecking=no")])])])]

def afterMark (line mark : String) : String := strip (((split line mark)[1]?).getD "")

/-- What a line of the playbook's output tells; a task whose name is not closed tells what was told
last. -/
def lineMessage (last : Option String) (line : String) : Outcome String :=
  if contains line "TASK [" then
    match Pattern.first ([text "TASK ["] ++ grab (.shortRun inLine 0) ++ [text "]"]) line with
    | some name => .ok ("Running task: " ++ name)
    | none => match last with
      | some message => .ok message
      | none => .error (.unbound "msg")
  else if contains line "ok:" then .ok ("Completed: " ++ afterMark line "ok:")
  else if contains line "changed:" then .ok ("Modified: " ++ afterMark line "changed:")
  else if contains line "skipping:" then .ok ("Skipped: " ++ afterMark line "skipping:")
  else if contains line "failed:" then .ok ("ERROR: " ++ afterMark line "failed:")
  else .ok line

def followLines : Option String → List String → Job Unit
  | _, [] => pure ()
  | last, line :: rest => do
    let message ← lineMessage last line
    announce message
    followLines (some message) rest

def playCommand (dir : String) : List String :=
  ["ansible-playbook", "-i", Path.join dir "inventory.yml", Path.join dir "playbook.yml", "--diff"]

def deploy (dir : String) (address : Data) (key : String) : Job Unit := do
  try
    let user ← userFor dir
    writeDocuments (Path.join dir "inventory.yml") {} [inventory address user key]
    let reply ← start (playCommand dir)
    followLines none (linesOf reply.out)
    if reply.err != "" then warn ("Ansible stderr: " ++ reply.err)
    if reply.code != 0 then
      reportAny (← trace (Diagnosis.Ansible.ofMessage reply.err))
  catch fault => report (.general "configuration" fault.message)

structure Placement where
  config : Data
  vpc : Data := .null
  subnet : Data := .null
  groups : Data := .null

def firstInstance (description : Data) : Outcome Data := do
  (← (← (← description.item "Reservations").first).item "Instances").first

def describeInstance (id : Data) : Job Data := do
  let description ← aws "describe_instances" [("InstanceIds", .list [id])]
  firstInstance description

/-- The configuration with an open network, and the network; nothing is opened for Google. -/
def openNetwork (dir : String) (id : Data) : Job Placement := do
  try
    let config ← readJson (configFile dir)
    if ← config.has "provider" then
      if ← (← config.item "provider").has "google" then return { config }
    let providers ← config.getD "provider" (.map [])
    let region ← (← providers.getD "aws" (.map [])).getD "region" (.str "us-east-1")
    tell ("Using AWS region: " ++ region.text)
    awsSession [("region_name", region)]
    awsClient "ec2" [("region_name", region)]
    tell ("Getting VPC info for instance " ++ id.text)
    let description ← aws "describe_instances" [("InstanceIds", .list [id])]
    let machine ← firstInstance description
    let vpc ← machine.item "VpcId"
    let subnet ← machine.item "SubnetId"
    let groups ← machine.item "SecurityGroups"
    tell s!"Found VPC: {vpc.text}, Subnet: {subnet.text}"
    return { config := ← Network.openUp config vpc subnet, vpc, subnet, groups }
  catch fault =>
    alarm ("Failed to setup network access: " ++ fault.message)
    throw fault

def filterBy (name : String) (value : Data) : Data :=
  .map [("Name", .str name), ("Values", .list [value])]

def tellSubnet (subnet : Data) : Job Unit := do
  let description ← aws "describe_subnets" [("SubnetIds", .list [subnet])]
  tell s!"Subnet {subnet.text} configuration:"
  for field in ["MapPublicIpOnLaunch", "AvailableIpAddressCount"] do
    let value ← (← (← description.item "Subnets").first).get field
    tell ("- " ++ field ++ ": " ++ value.text)

def tellRoutes (subnet : Data) : Job Unit := do
  let tables ← aws "describe_route_tables"
    [("Filters", .list [filterBy "association.subnet-id" subnet])]
  for table in ← (← tables.item "RouteTables").elements do
    for route in ← (← table.item "Routes").elements do
      let target ← route.get "DestinationCidrBlock"
      let gateway ← route.getD "GatewayId" (.str "local")
      tell s!"- Route: {target.text} -> {gateway.text}"

def verifyNetwork (dir : String) (vpc subnet : Data) : Job Unit := do
  if !vpc.holds || !subnet.holds then return
  let region ← RemoteUser.awsRegion (← readJson (configFile dir))
  tell ("Using AWS region: " ++ region.text)
  awsSession [("region_name", region)]
  awsClient "ec2" [("region_name", region)]
  tellSubnet subnet
  tellRoutes subnet
  let gateways ← aws "describe_internet_gateways"
    [("Filters", .list [filterBy "attachment.vpc-id" vpc])]
  if !(← gateways.item "InternetGateways").holds then
    throw (.failure "No Internet Gateway found for VPC")

def applyNetwork : Job Unit := do
  announce "Applying network configuration changes..."
  let reply ← start ["terraform", "apply", "-auto-approve"]
  let onErr (line : String) : Job Unit := do
    alarm ("ERROR: " ++ line)
    emit ("ERROR: " ++ line)
  follow announce onErr reply
  if reply.code != 0 then report (.general "configuration" "Failed to apply network changes")

def instanceId? (outputs : Data) (name : String) : Outcome Data := do
  let found := (← outputs.entries).find? fun (key, value) =>
    endsWith key "_id" && contains key name && value.isMap
  match found with
  | some (_, value) => value.get "value"
  | none => return .null

def tryDirectly (dir : String) (address : Data) (key : String) : Job Bool := do
  try
    if !(← reachable dir address key) then return false
    let part ← separately (deploy dir address key)
    take part
    return part.2.isEmpty
  catch fault =>
    warn ("Direct deployment failed: " ++ fault.message)
    return false

def tryOpened (dir : String) (id address : Data) (key : String) : Job Unit := do
  try
    let placement ← openNetwork dir id
    if placement.vpc.holds then
      write (configFile dir) (Json.write .indented placement.config)
      let part ← separately applyNetwork
      take part
      if !part.2.isEmpty then return
      verifyNetwork dir placement.vpc placement.subnet
      sleep 10
    if ← reachable dir address key then
      take (← separately (deploy dir address key))
    else
      let message := s!"Still cannot access {address.text} after network setup"
      alarm message
      report (.general "configuration" message)
  catch fault =>
    alarm ("Network setup failed: " ++ fault.message)
    report (.general "configuration" fault.message)

def configure (dir : String) (google : Bool) (outputs : Data) (resource : String) (target : Data) :
    Job Unit := do
  tell s!"Processing mapping: {resource} -> {target.text}"
  let some name := (split resource ".")[2]? | return
  let address ← publicAddress? outputs
  if !address.holds then
    alarm ("No public IP found for " ++ name)
    return
  let key ← key dir
  if ← tryDirectly dir address key then return
  if google then return
  let id ← instanceId? outputs name
  if !id.holds then
    alarm ("No instance ID found for " ++ name)
    return
  tryOpened dir id address key

def outputs : Job Data := do Json.read (← outputOf ["terraform", "output", "-json"])

def applyMappings (dir : String) (mappings : Data) : Job Unit := do
  try
    let outputs ← try some <$> outputs catch fault => do
      alarm ("Failed to get terraform outputs: " ++ fault.message)
      report (.general "configuration" ("Failed to get terraform outputs: " ++ fault.message))
      pure none
    let some outputs := outputs | return
    let google ← isGoogle dir
    for (resource, target) in ← mappings.entries do
      configure dir google outputs resource target
  catch fault =>
    alarm ("Exception during ansible apply: " ++ fault.message)
    report (.general "configuration" fault.message)

end Stratus.Playbook
