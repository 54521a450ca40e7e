import Stratus.Deploy.Apply

/-!
Applying everything on AWS alone: keys without a name count as missing, the cluster is that of the
web application, and one instance is made reachable and configured.
-/
namespace Stratus.AwsApply

open Job Playbook

def needsKey : Data → Outcome Bool := Infrastructure.anyInstance "aws_instance" fun machine => do
  if ← machine.has "key_name" then return !(← machine.item "key_name").holds else return true

def enterKey (dir : String) (config : Data) (_ : String) (region : Data) : Job Data := do
  let name ← Keys.setUp dir region "aws"
  KeyPair.enter (← disk) config name "aws" "ubuntu"

def addAddresses (config : Data) : Outcome Data := do
  if !(← config.has "resource") then return config
  if !(← (← config.item "resource").has "aws_instance") then return config
  Infrastructure.addressesOf "aws_instance" Infrastructure.awsOutputs
    (← Infrastructure.withOutputs config)

def tfvars (dir : String) (region : Data) (keyed : Bool) : Data :=
  .map ([("aws_region", region), ("assume_role_arn", .str "")] ++
    if keyed then [("ssh_key_path", .str (Keys.privateKey dir))] else [])

def infrastructure (dir : String) : Job Unit :=
  Infrastructure.apply
    { needsKey, enterKey := enterKey dir, addAddresses, tfvars := some (tfvars dir) } dir

def regionOf (dir : String) : Job Data := do
  let (_, region) ← Provider.of (← readJson (configFile dir))
  return region

def complain (text : String) : Job Unit := say ("[red]CLOUD:[/red] " ++ text)

def tellCluster : Job Unit := do
  try
    let reply ← run (words ["kubectl", "cluster-info"])
    tell ("Cluster info: " ++ reply.out)
  catch fault => complain ("Failed to get cluster info: " ++ fault.message)

def kubernetes (dir : String) : Job Unit := Apply.guarded do
  awsSession [("region_name", ← regionOf dir)]
  awsClient "eks" []
  enter "Starting Kubernetes deployment to EKS..."
  let name ← Apply.cluster? "EKS" do
    let outputs ← outputs
    Apply.clusterOf outputs (← outputs.item "webapp_eks_cluster_main_id")
  let some name := name | return
  enter "Configuring kubectl for EKS..."
  if !(← Apply.updateConfig name (← regionOf dir)) then return
  enter "Applying Kubernetes resources..."
  tellCluster
  Apply.applyResources dir

def instanceValues (outputs : Data) (ending : String) : Outcome (List Data) := do
  return (← outputs.entries).filterMap fun (name, output) =>
    if Text.startsWith name "ec2_" && Text.endsWith name ending then output.field? "value" else none

def addresses (outputs : Data) : Outcome Data := do
  let listed ← (← outputs.getD "ec2_instance_ips" (.map [])).getD "value" (.list [])
  if listed.holds then return listed else .list <$> instanceValues outputs "_public_ip"

def instanceId (outputs : Data) : Outcome Data := do
  let id ← (← outputs.getD "webapp_web_server_id" (.map [])).get "value"
  if id.holds then return id else return (← instanceValues outputs "_id").headD id

def groupRules (group : Data) : Job Data :=
  aws "describe_security_group_rules" [("Filters", .list [filterBy "group-id" group])]

def tellInbound (groups : Data) : Job Unit := do
  for group in ← groups.elements do
    let id ← group.item "GroupId"
    let rules ← groupRules id
    tell s!"Security group rules for {id.text}:"
    for rule in ← (← rules.item "SecurityGroupRules").elements do
      if !(← rule.get "IsEgress").holds then
        let start ← rule.get "FromPort"
        let stop ← rule.get "ToPort"
        let protocol ← rule.get "IpProtocol"
        tell s!"Port {start.text}-{stop.text} {protocol.text}"

def tellPermissions (groups : Data) : Job Unit := do
  for group in ← groups.elements do
    let id ← group.item "GroupId"
    let description ← aws "describe_security_groups" [("GroupIds", .list [id])]
    tell s!"Security group {id.text} rules:"
    for rule in ← (← (← (← description.item "SecurityGroups").first).item "IpPermissions").elements do
      let start ← rule.getD "FromPort" (.str "All")
      let stop ← rule.getD "ToPort" (.str "All")
      let protocol ← rule.getD "IpProtocol" (.str "All")
      let ranges ← (← (← rule.getD "IpRanges" (.list [])).elements).mapM fun (r : Data) =>
        r.item "CidrIp"
      tell (s!"- Ports: {start.text}-{stop.text}, Protocol: {protocol.text}, " ++
        s!"IPs: {(Data.list ranges).text}")

def testConnection (key : String) (addresses : Data) : Job Unit := do
  try
    let address ← addresses.first
    tell s!"Testing SSH connection to {address.text}..."
    let reply ← run (words ["ssh", "-i", key, "-o", "StrictHostKeyChecking=no", "-o",
      "ConnectTimeout=10",
      s!"ubuntu@{address.text}", "echo \"SSH test successful\""])
    if reply.code != 0 then say ("[reed]CLOUD:[/red] SSH connection failed: " ++ reply.err)
  catch fault => complain ("SSH test error: " ++ fault.message)

def testPort (addresses : Data) : Job Unit := do
  try
    let address ← addresses.first
    let reply ← run (words ["nc", "-zv", "-w", "5"] ++ [address, .str "22"])
    tell ("Netcat test result: " ++ reply.err)
  catch fault => complain ("Netcat test error: " ++ fault.message)

def anyOf (d : Data) (p : Data → Outcome Bool) : Outcome Bool := do (← d.elements).anyM p

def inspectRoutes (vpc subnet : Data) : Job Unit := do
  tell ("Checking IGW for VPC " ++ vpc.text)
  let _ ← aws "describe_internet_gateways" [("Filters", .list [filterBy "attachment.vpc-id" vpc])]
  let own ← aws "describe_route_tables" [("Filters", .list [filterBy "association.subnet-id" subnet])]
  let tables ← if (← own.item "RouteTables").holds then pure own else
    aws "describe_route_tables"
      [("Filters", .list [filterBy "vpc-id" vpc, filterBy "association.main" (.str "true")])]
  let table ← (← tables.item "RouteTables").first
  let _ ← table.item "RouteTableId"
  let _ ← anyOf (← table.item "Routes") fun route => do
    return (← route.get "DestinationCidrBlock") == .str "0.0.0.0/0"

def allowsSsh (rule : Data) : Outcome Bool := do
  let protocol ← rule.get "IpProtocol"
  let start ← rule.get "FromPort"
  let stop ← rule.get "ToPort"
  let outbound ← rule.get "IsEgress"
  return protocol == .str "tcp" && start == .int 22 && stop == .int 22 && outbound matches .bool false

def inspectGroups (id : Data) : Job Unit := do
  let machine ← describeInstance id
  for group in ← (← machine.item "SecurityGroups").elements do
    let rules ← groupRules (← group.item "GroupId")
    let _ ← anyOf (← rules.item "SecurityGroupRules") allowsSsh

def keyPath (dir : String) (outputs : Data) : Outcome String := do
  let path ← (← outputs.getD "ssh_key_path" (.map [])).getD "value"
    (.str (Path.join (Keys.directory dir) (Keys.keyName ++ ".pem")))
  match path with
  | .str path => return Path.shown path
  | d => .error (.badArguments s!"expected str, bytes or os.PathLike object, not {d.kind}")

/-- Opens the way to an instance; answers the key to use, none if the infrastructure could not be
applied. -/
def openWay (dir : String) (outputs addresses id : Data) : Job (Option String) := do
  tell ("Getting VPC info for instance " ++ id.text)
  let machine ← describeInstance id
  let vpc ← machine.item "VpcId"
  let subnet ← machine.item "SubnetId"
  let groups ← machine.item "SecurityGroups"
  tell s!"Found VPC: {vpc.text}, Subnet: {subnet.text}"
  tellInbound groups
  let config ← readJson (configFile dir)
  let _ ← (← groups.first).item "GroupId"
  write (configFile dir) (Json.write .indented (← Network.connect config vpc subnet))
  let part ← separately (infrastructure dir)
  take part
  if !part.2.isEmpty then return none
  let key ← keyPath dir outputs
  requireFile key
  tell ("Using key at: " ++ key)
  testConnection key addresses
  tellSubnet subnet
  tellRoutes subnet
  tellPermissions groups
  testPort addresses
  inspectRoutes vpc subnet
  inspectGroups id
  return some key

/-- An inventory whose host leaves its address and key open, with both filled in; none if it does
not. -/
def filledIn (inventory addresses : Data) (key : String) : Outcome (Option Data) := do
  let all ← inventory.getD "all" (.map [])
  let children ← all.getD "children" (.map [])
  let servers ← children.getD "web_servers" (.map [])
  let host ← (← servers.getD "hosts" (.map [])).getD "web_server_hosts" (.map [])
  if !Text.contains host.text "\x7b\x7b host_ip \x7d\x7d" then return none
  if !Text.contains host.text "\x7b\x7b ssh_key_path \x7d\x7d" then return none
  let vars ← (← servers.getD "vars" (.map [])).entriesFor "update"
  let vars := Assoc.update vars [("host_ip", ← addresses.first), ("ssh_key_path", .str key)]
  let servers ← servers.put "vars" (.map vars)
  some <$> inventory.put "all" (← all.put "children" (← children.put "web_servers" servers))

def conclude (code : Int) (err : String) : Job Unit := do
  if code != 0 then
    reportAny (← trace (Diagnosis.Ansible.ofMessage err))
    emit "ERROR: Configuration deployment failed"
  else emit "Configuration deployment complete"

/-- Runs the playbook. Its end is told twice, the second time when nothing is left of its messages.
-/
def play (dir : String) : Job Unit := do
  let opening := "Applying configuration to EC2 instances..."
  enter opening
  let reply ← start (playCommand dir)
  followLines (some opening) (linesOf reply.out)
  conclude reply.code reply.err
  conclude reply.code ""

def configure (dir : String) : Job Unit := do
  awsSession []
  awsClient "ec2" []
  enter "Getting EC2 instance information..."
  let outputs ← outputs
  let addresses ← addresses outputs
  if !addresses.holds then
    report (.general "configuration" "No EC2 instances found in Terraform output")
    return
  let id ← instanceId outputs
  tell ("Found instance ID: " ++ id.text)
  for (name, value) in ← outputs.entries do
    tell ("- " ++ name ++ ": " ++ value.text)
  if !id.holds then
    report (.general "configuration" "Could not find EC2 instance ID in Terraform outputs")
    return
  let some key ← openWay dir outputs addresses id | return
  let path := Path.join dir "inventory.yml"
  if !(← disk).holds path then
    report (.general "configuration" "inventory.yml not found")
    return
  let inventory ← readDocument path
  if let some filled ← filledIn inventory addresses key then
    writeDocuments path {} [filled]
  tell ("Using key at: " ++ key)
  play dir

def configuration (dir : String) : Job Unit := do
  try configure dir
  catch fault =>
    alarm ("Exception occurred: " ++ fault.message)
    report (.general "configuration" fault.message)

def all (dir : String) : Job Unit := do
  let part ← separately (infrastructure dir)
  take part
  if part.2.isEmpty then
    kubernetes dir
    configuration dir

end Stratus.AwsApply
