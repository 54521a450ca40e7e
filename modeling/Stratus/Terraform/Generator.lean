import Stratus.Service.Basic
import Stratus.Terraform.Config
import Stratus.Terraform.Reference
import Stratus.Text.Glob

/-!
Terraform configurations of services. Components become resources, data sources or modules; what a
failed step has added stays.
-/
namespace Stratus

def Component.address (c : Component) : String := c.resourceType.text ++ "." ++ c.name

namespace Terraform

structure State where
  providers : Assoc Data
  addresses : Addresses := []
  config : Config := {}

abbrev Build := ExceptT Fault (StateM State)

/-! ### Pieces -/

def setConfig (f : Config → Config) : Build Unit := modify fun s => { s with config := f s.config }

def keep (name address : String) : Build Unit :=
  modify fun s => { s with addresses := Assoc.set s.addresses name address }

def addResource (type : Data) (name : String) (block : Assoc Data) : Build Unit := do
  let type ← type.keyText
  setConfig fun c => { c with resources := Blocks.add c.resources type name (.map block) }

def set (name : String) (value : Data) (block : Assoc Data) : Assoc Data :=
  Assoc.set block name value

def withMeta (c : Component) (block : Assoc Data) : Assoc Data :=
  let given (name : String) (value : Data) (b : Assoc Data) :=
    if value.isNull then b else set name value b
  let filled (name : String) (value : Data) (b : Assoc Data) :=
    if value.holds then set name value b else b
  filled "provisioner" c.provisioners (filled "lifecycle" c.lifecycle
    (given "for_each" c.forEach (given "count" c.count block)))

def dynamicBlock (d : Data) : Outcome (Data × Data) := do
  let name ← d.get "name"
  let content ← d.getD "content" (.map [])
  return (name, .map [("for_each", ← d.get "for_each"), ("content", content)])

def withDynamic (start : String) (blocks : Option Data) (block : Assoc Data) :
    Outcome (Assoc Data) :=
  match blocks with
  | none => .ok block
  | some blocks => do
    (← blocks.elements).foldlM (fun block d => do
      let (name, content) ← dynamicBlock d
      return set (start ++ name.text) content block) block

def dynamicBlocks? (c : Component) : Option Data := Assoc.get? c.attributes "dynamic_blocks"

def renameDynamic (block : Assoc Data) : Assoc Data :=
  match Assoc.get? block "dynamic_blocks" with
  | some d => set "dynamic" d (Assoc.erase block "dynamic_blocks")
  | none => block

def either (a b : Data) : Data := if a.holds then a else b

def network? (s : Service) : Option String :=
  (s.infrastructure.find? fun c => c.kind.same (.str "network")).map Component.name

/-- How a block names its provider: with its label if that is not the type itself. -/
def providerName (info : Data) : Outcome Data := do
  let type ← info.item "type"
  let label ← info.getD "alias" type
  return if label.same type then type else .str s!"{type.text}.{label.text}"

def providerInfo (providers : Assoc Data) (label : Data) : Outcome (Option Data) := do
  return (← label.asKey?).bind fun key => (Assoc.get? providers key).filter Data.holds

/-- The attributes of a resource with its provider; none if the provider is not known. -/
def provided (providers : Assoc Data) (c : Component) : Outcome (Option (Assoc Data)) :=
  if c.provider.holds then do
    match ← providerInfo providers c.provider with
    | some info => return some (set "provider" (← providerName info) c.attributes)
    | none => return none
  else .ok (some c.attributes)

/-! ### Components -/

def dataSource (c : Component) : Build Unit := do
  if c.resourceType.holds then
    let block := withMeta c (renameDynamic c.attributes)
    let type ← c.resourceType.keyText
    setConfig fun k => { k with dataSources := Blocks.add k.dataSources type c.name (.map block) }

def module (c : Component) : Build Unit := do
  let source := Assoc.getD c.attributes "source" .null
  if source.holds then
    let block := withMeta c (renameDynamic (Assoc.erase c.attributes "source"))
    setConfig fun k => { k with
      modules := Assoc.set k.modules c.name (.map (Assoc.update [("source", source)] block)) }

def outputName (s : Service) (c : Component) : String := s!"{s.name}_{c.name}_id"

def outputOf (s : Service) (c : Component) : Data :=
  .map [
    ("value", .str (wrapped s!"{c.resourceType.text}.{c.name}.id")),
    ("description", .str s!"ID of {c.name} in service {s.name}")]

def network (s : Service) (c : Component) : Build Unit := do
  if !(either c.provider s.provider).holds || !c.resourceType.holds then return
  let providers := (← get).providers
  if !c.provider.holds && providers.length > 1 then return
  if let some block ← provided providers { c with attributes := withMeta c c.attributes } then
    addResource c.resourceType c.name block
    setConfig fun k => { k with
      outputs := Assoc.setDefault k.outputs (outputName s c) (outputOf s c) }

def rule (d : Data) : Outcome Data := do
  let port ← d.get "port"
  return .map [
    ("from_port", port), ("to_port", port), ("protocol", ← d.get "protocol"),
    ("cidr_blocks", .list [← d.get "cidr"]), ("description", ← d.getD "description" (.str ""))]

def rules (d : Data) (direction : String) : Outcome Data := d.getD direction (.list [])

def securityGroup (s : Service) (c : Component) : Build Unit := do
  let name := c.name ++ "_sg"
  let given := Assoc.getD c.attributes "security_rules" (.map [])
  let inbound ← rules given "inbound"
  let outbound ← rules given "outbound"
  let vpc := wrapped ("aws_vpc." ++ (network? s).getD "None" ++ ".id")
  let ingress ← (← inbound.elements).mapM fun d => rule d
  let egress ← (← outbound.elements).mapM fun d => rule d
  let block := withMeta c [
    ("name", .str name), ("description", .str s!"Security group for {s.name}"), ("vpc_id", .str vpc),
    ("ingress", .list ingress), ("egress", .list egress), ("tags", .map [])]
  addResource (.str "aws_security_group") name (← withDynamic "dynamic_" (dynamicBlocks? c) block)

def subnets (s : Service) (index : String) : Data :=
  match network? s with
  | some vpc => .str (if vpc == "" then "" else wrapped s!"local.{vpc}_public_subnets{index}")
  | none => .str ""

def machineAttributes : List String :=
  ["user_data", "key_name", "iam_instance_profile", "associate_public_ip_address",
    "root_block_device"]

def compute (s : Service) (c : Component) : Build Unit := do
  let read (name : String) := Assoc.getD c.attributes name .null
  let wanted := either (read "subnet_id") (read "subnet")
  let subnet ← if wanted.holds then Data.str <$> reference wanted else pure (subnets s "[0]")
  let kept := machineAttributes.filterMap fun name => (Assoc.get? c.attributes name).map (name, ·)
  let block := [
    ("ami", read "ami"), ("instance_type",
      Assoc.getD c.attributes "instance_type" (.str "t2.micro")),
    ("subnet_id", subnet), ("tags", Assoc.getD c.attributes "tags" (.map []))] ++ kept
  securityGroup s c
  let block := set "vpc_security_group_ids"
    (.texts [wrapped s!"aws_security_group.{c.name}_sg.id"]) block
  let block := if c.dependsOn.holds then set "depends_on" c.dependsOn block else block
  let block ← withDynamic "dynamic_" (dynamicBlocks? c) (withMeta c block)
  let block := if Assoc.contains c.attributes "subnet" then block
    else set "subnet_id" (subnets s "[0]") block
  addResource c.resourceType c.name block

def role (name principal : String) : Assoc Data :=
  let policy : Data := .map [
    ("Version", .str "2012-10-17"),
    ("Statement", .list [.map [
      ("Action", .str "sts:AssumeRole"), ("Effect", .str "Allow"),
      ("Principal", .map [("Service", .str principal)])]])]
  [("name", .str name), ("assume_role_policy", .str (Json.write .spaced policy)), ("tags", .map [])]

def addRole (c : Component) (name principal : String) : Build Unit := do
  let block ← withDynamic "dynamic_" (dynamicBlocks? c) (withMeta c (role name principal))
  addResource (.str "aws_iam_role") name block

def attach (c : Component) (role name policy : String) : Build Unit :=
  addResource (.str "aws_iam_role_policy_attachment") name <| withMeta c [
    ("role", .str (wrapped s!"aws_iam_role.{role}.name")),
    ("policy_arn", .str ("arn:aws:iam::aws:policy/" ++ policy))]

def nodePolicies : List String :=
  ["AmazonEKSWorkerNodePolicy", "AmazonEC2ContainerRegistryReadOnly", "AmazonEKS_CNI_Policy"]

def nodeGroup (s : Service) (c : Component) (nodeRole : String) (pool : Data) :
    Outcome (Assoc Data) := do
  let block := [
    ("cluster_name", Data.str (wrapped s!"aws_eks_cluster.{c.name}.name")),
    ("node_group_name", ← pool.get "name"),
    ("node_role_arn", .str (wrapped s!"aws_iam_role.{nodeRole}.arn")),
    ("subnet_ids", subnets s ""),
    ("scaling_config", .map [
      ("desired_size", ← pool.getD "desired_size" (.int 2)),
      ("max_size", ← pool.getD "max_size" (.int 5)),
      ("min_size", ← pool.getD "min_size" (.int 1))]),
    ("instance_types", .list [← pool.getD "instance_type" (.str "t3.medium")]),
    ("tags", Assoc.getD c.attributes "tags" (.map []))]
  withDynamic "dynamic_" (dynamicBlocks? c) (withMeta c block)

def cluster (s : Service) (c : Component) : Build Unit := do
  let clusterRole := c.name ++ "_role"
  addRole c clusterRole "eks.amazonaws.com"
  attach c clusterRole (clusterRole ++ "_policy") "AmazonEKSClusterPolicy"
  let block ← withDynamic "dynamic_" (dynamicBlocks? c) <| withMeta c [
    ("name", Assoc.getD c.attributes "name" (.str (s.name ++ "-cluster"))),
    ("role_arn", .str (wrapped s!"aws_iam_role.{clusterRole}.arn")),
    ("vpc_config", .map [("subnet_ids", subnets s ""), ("endpoint_public_access", .bool true)]),
    ("tags", Assoc.getD c.attributes "tags" (.map []))]
  addResource c.resourceType c.name block
  let nodeRole := c.name ++ "_node_role"
  addRole c nodeRole "ec2.amazonaws.com"
  for (policy, index) in nodePolicies.zipIdx do
    attach c nodeRole s!"{nodeRole}_policy{index + 1}" policy
  let pools ← (Assoc.getD c.attributes "node_pools" (.list [])).elements
  for (pool, index) in pools.zipIdx do
    addResource (.str "aws_eks_node_group") s!"{c.name}_node_group_{index + 1}"
      (← nodeGroup s c nodeRole pool)
  if c.dependsOn.holds then addResource c.resourceType c.name (set "depends_on" c.dependsOn block)

def withDependencies (addresses : Addresses) (c : Component) (block : Assoc Data) :
    Outcome (Assoc Data) :=
  if c.dependsOn.holds then do
    let names ← (← c.dependsOn.elements).mapM (dependencyAddress addresses)
    return set "depends_on" (.texts names) block
  else .ok block

/-- A resource keeps its address, and then resolves its references. -/
def settle (c : Component) (attributes : Assoc Data) : Build Unit := do
  keep c.name c.address
  let addresses := (← get).addresses
  addResource c.resourceType c.name
    (← withDependencies addresses c (resolveEntries addresses attributes))

/-- A component as a resource; one with an unknown provider is left out. -/
def generic (c : Component) : Build Unit := do
  if !c.resourceType.holds then return
  match ← provided (← get).providers c with
  | some attributes => settle c attributes
  | none => return

def turn (c : Component) : Build Unit :=
  if !c.resourceType.holds then return
  else if c.dataSource.holds then dataSource c
  else if c.module.holds then module c
  else generic c

/-- A component with the provider that counts for it: its own, or else its service's. -/
def effective (s : Service) (c : Component) : Component :=
  { c with provider := either c.provider s.provider }

def component (s : Service) (c : Component) : Build Unit := turn (effective s c)

/-- The common arguments with dependencies as references; also what is left of the attributes. -/
def common (addresses : Addresses) (c : Component) (block : Assoc Data) : Outcome (Data × Data) := do
  let block := withMeta c block
  let block ← if c.dependsOn.holds then do
      let names ← (← c.dependsOn.elements).mapM fun d => do
        let address := (← d.asKey?).bind (Assoc.get? addresses)
        return wrapped (address.getD d.text)
      pure (set "depends_on" (.texts names) block)
    else pure block
  let block ← withDynamic "dynamic " (dynamicBlocks? c) block
  return (.map block, .map (Assoc.erase c.attributes "dynamic_blocks"))

/-! ### Deployment -/

def dependOn (resource : Data) (name : String) : Outcome Data := do
  let known ← resource.getD "depends_on" (.list [])
  resource.put "depends_on" (← known.push (.str ("null_resource." ++ name)))

def applyMapping (source : String) (target : Data) : Build Unit := do
  let sourceParts := Text.split source "."
  let targetParts ← target.split "."
  match sourceParts, targetParts with
  | type :: name :: _, _ :: config :: _ =>
    match Blocks.get? (← get).config.resources type name with
    | some resource =>
      if resource.holds then
        let resource ← dependOn resource config
        setConfig fun k => { k with resources := Blocks.add k.resources type name resource }
    | none => return
  | _, _ => return

def matchesPattern (type name : String) (pattern : Data) : Outcome Bool :=
  match pattern with
  | .str p => .ok (Text.globMatches p s!"{type}.{name}")
  | d => .error (.badArguments s!"expected str, bytes or os.PathLike object, not {d.kind}")

def matchesCondition (block condition : Data) : Outcome Bool :=
  if condition.same (.str "tags.Environment == 'production'") then do
    let tags ← block.getD "tags" (.map [])
    return (← tags.get "Environment").same (.str "production")
  else .ok false

def applyPattern (pattern : Data) : Build Unit := do
  let wanted ← pattern.getD "resources" (.str "")
  let condition ← pattern.getD "condition" (.str "")
  let apply ← pattern.getD "apply" (.str "")
  let resources := (← get).config.resources
  for (type, blocks) in resources do
    for (name, block) in blocks do
      if ← matchesPattern type name wanted then
        if ← matchesCondition block condition then
          match ← apply.split "." with
          | _ :: config :: _ =>
            let block ← dependOn block config
            setConfig fun k => { k with resources := Blocks.add k.resources type name block }
          | _ => pure ()

def deployment (info : Data) : Build Unit := do
  if !info.isMap then return
  let mappings ← info.getD "mappings" (.map [])
  let pattern ← info.getD "pattern" (.map [])
  for (source, target) in ← mappings.entries do applyMapping source target
  applyPattern <| match pattern with
    | .list (.map entries :: _) => .map entries
    | .map entries => .map entries
    | _ => .map []

/-! ### Outputs, providers, variables -/

def outputs (s : Service) : Build Unit := do
  for c in s.infrastructure do
    if c.resourceType.holds then
      setConfig fun k => { k with outputs := Assoc.set k.outputs (outputName s c) (outputOf s c) }

/-- Sources of providers that are not under the usual owner or name. -/
def providerSources : List (String × String) := [
  ("aws", "hashicorp/aws"), ("google", "hashicorp/google"), ("azure", "hashicorp/azurerm"),
  ("oci", "hashicorp/oci"), ("alicloud", "hashicorp/alicloud"),
  ("kubernetes", "hashicorp/kubernetes"), ("openstack", "terraform-provider-openstack/openstack")]

def providerEntry (label : String) (info : Data) : Outcome ((String × Data) × (String × Data)) := do
  let type ← info.item "type"
  let attributes ← info.item "config"
  let known := (← type.asKey?).bind fun t => providerSources.lookup t
  let source := known.getD ("hashicorp/" ++ type.text)
  let version ← info.get "version"
  let required : Assoc Data := [("source", .str source)] ++
    if version.holds then [("version", version)] else []
  let config ← attributes.copied
  let same := type.same (.str label)
  let config ← if same then pure config else config.put "alias" (.str label)
  let key ← (if same then type else Data.str s!"{type.text}.{label}").keyText
  return ((← type.keyText, .map required), (key, config))

def requireProviders : Build Unit := do
  let entries ← (← get).providers.mapM fun (label, info) => providerEntry label info
  setConfig fun k => { k with
    requiredProviders := Assoc.ofPairs (entries.map Prod.fst)
    providers := Assoc.ofPairs (entries.map Prod.snd) }

def variableEntry (d : Data) : Outcome Data := do
  let type ← d.getD "type" (.str "string")
  let description ← d.getD "description" (.str "")
  let optional := ["default", "validation"].filterMap fun name =>
    (Assoc.get? ((d.map?).getD []) name).map (name, ·)
  return .map ([("type", type), ("description", description)] ++ optional)

def addVars (d : Data) : Build Unit := do
  for (name, attributes) in ← d.entries do
    let entry ← variableEntry attributes
    setConfig fun k => { k with vars := Assoc.set k.vars name entry }

def collectVariables (services : List Service) : Outcome (Assoc Data) :=
  services.foldlM (fun known s =>
    match s.setup with
    | some setup => do
      if setup.vars.holds then return Assoc.update known (← setup.vars.entries) else return known
    | none => return known) []

/-! ### The whole configuration -/

def collectAddresses (services : List Service) : Build Unit := do
  for s in services do
    for c in s.infrastructure do
      if c.resourceType.holds then keep c.name s!"{c.resourceType.text}.{c.name}"

def service (s : Service) : Build Unit := do
  if s.workspace.holds then setConfig fun k => { k with workspace := s.workspace }
  if s.backend.holds then setConfig fun k => { k with backend := s.backend }
  for c in s.infrastructure do component s c
  if s.deployment.holds then deployment s.deployment
  outputs s

def generate (services : List Service) : Build String := do
  collectAddresses services
  for s in services do service s
  requireProviders
  addVars (.map (← collectVariables services))
  (← get).config.text

end Terraform

end Stratus
