import Stratus.Data.Access

/-!
Network resources that a configuration needs to be reached from outside: a gateway, a route table
with a route to it, and its association with a subnet. What is there stays.
-/
namespace Stratus.Network

/-- Resources by type and name, with their attributes. -/
abbrev Resources := Assoc (Assoc (Assoc Data))

def table {α : Type} (shape : α → Data) (entries : Assoc α) : Data :=
  .map (Assoc.mapValues shape entries)

def reference (type name : String) : Data := .str s!"$\x7b{type}.{name}.id\x7d"

def tags (name : String) : Data := .map [("Name", .str name), ("ManagedBy", .str "terraform")]

def inNetwork (vpc : Data) : Assoc (Assoc Data) :=
  [("main", [("vpc_id", vpc), ("tags", tags "main")])]

def routing (vpc subnet : Data) : Resources := [
  ("aws_internet_gateway", inNetwork vpc), ("aws_route_table", inNetwork vpc),
  ("aws_route", [("internet_access", [("route_table_id", reference "aws_route_table" "main"),
    ("destination_cidr_block", .str "0.0.0.0/0"),
    ("gateway_id", reference "aws_internet_gateway" "main")])]),
  ("aws_route_table_association", [("main", [
    ("subnet_id", subnet), ("route_table_id", reference "aws_route_table" "main")])])]

def addMissing (d : Data) (key : String) (value : Data) : Outcome Data := do
  if ← d.has key then return d else d.put key value

def addAll (resources : Data) (added : Resources) : Outcome Data :=
  added.foldlM (fun resources (type, named) => addMissing resources type (table .map named)) resources

def withResources (config : Data) : Outcome Data := addMissing config "resource" (.map [])

def dropLookups (config : Data) : Outcome Data := do
  if !(← config.has "data") then return config
  let data ← config.item "data"
  if !(← data.has "aws_route_table") then return config
  match data with
  | .map entries => config.put "data" (.map (Assoc.erase entries "aws_route_table"))
  | .list _ => .error (.badIndex "list" "str")
  | d => .error (.notErasable d.kind)

def connect (config vpc subnet : Data) : Outcome Data := do
  let config ← withResources config >>= dropLookups
  config.put "resource" (← addAll (← config.item "resource") (routing vpc subnet))

def rule (description protocol : String) (port : Int) : Data := .map [
  ("description", .str description), ("from_port", .int port), ("to_port", .int port),
  ("protocol", .str protocol), ("cidr_blocks", .texts ["0.0.0.0/0"]), ("ipv6_cidr_blocks", .list []),
  ("prefix_list_ids", .list []), ("security_groups", .list []), ("self", .bool false)]

def securityGroup (name description : String) (vpc inbound : Data) : Assoc Data := [
  ("name", .str name), ("description", .str description), ("vpc_id", vpc),
    ("ingress", .list [inbound]),
  ("egress", .list [rule "Allow all outbound traffic" "-1" 0]), ("tags", tags name)]

def sshGroup (vpc : Data) : Assoc Data :=
  securityGroup "allow_ssh" "Allow SSH inbound traffic" vpc (rule "SSH from anywhere" "tcp" 22)

def balancerGroup (vpc : Data) : Assoc Data :=
  securityGroup "alb_security_group" "Security group for ALB" vpc (rule "HTTP from anywhere" "tcp" 80)

def mapResources (resources : Data) (type : String) (f : Data → Outcome Data) : Outcome Data := do
  let entries ← (← resources.item type).entriesFor "values"
  resources.put type (.map (← Assoc.mapValuesM f entries))

/-- A group that lets SSH in, used by all instances, where there is no security group. -/
def openShell (vpc resources : Data) : Outcome Data := do
  if ← resources.has "aws_security_group" then return resources
  let resources ← resources.put "aws_security_group" (table .map [("allow_ssh", sshGroup vpc)])
  if ← resources.has "aws_instance" then
    mapResources resources "aws_instance" fun d =>
      d.put "vpc_security_group_ids" (.list [reference "aws_security_group" "allow_ssh"])
  else return resources

def openBalancers (vpc resources : Data) : Outcome Data := do
  if !(← resources.has "aws_lb") then return resources
  let groups ← resources.item "aws_security_group"
  let resources ← resources.put "aws_security_group"
    (← addMissing groups "alb" (.map (balancerGroup vpc)))
  mapResources resources "aws_lb" fun d =>
    addMissing d "security_groups" (.list [reference "aws_security_group" "alb"])

def openUp (config vpc subnet : Data) : Outcome Data := do
  let config ← withResources config
  let resources ← openShell vpc (← config.item "resource")
  let resources ← addAll resources (routing vpc subnet)
  config.put "resource" (← openBalancers vpc resources)

end Stratus.Network
