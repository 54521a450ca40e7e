import Stratus.Data.Access
import Stratus.Source.Record
import Stratus.Text.Pattern
import Stratus.World.Disk

/-!
Which lines of a description file the generated resources come from, drawn line by line: services
and their sections, parameters of networks and instances, and settings of the provider.
-/
namespace Stratus

inductive ResourceKind where
  | compute | network | container | configuration | service
deriving DecidableEq

def ResourceKind.word : ResourceKind → String
  | compute => "compute"
  | network => "network"
  | container => "container"
  | configuration => "configuration"
  | service => "service"

inductive Subject where
  | block (file : String) (name : String)
  | resource (kind : Option ResourceKind) (name : Option String)

structure Location where
  line : Int
  column : Int
  blockType : String
  subject : Subject
  metadata : Assoc Data := []

namespace Location

def start (blockType : String) : Location := ⟨1, 1, blockType, .resource none none, []⟩

def file? (l : Location) : Option String :=
  match l.subject with
  | .block file _ => some file
  | .resource .. => none

def record (l : Location) : Data :=
  let place := [("line", Data.int l.line), ("column", .int l.column),
    ("block_type", .str l.blockType)]
  match l.subject with
  | .block file name =>
    .map (("file", .str file) :: place ++ [("block_name", .str name), ("metadata", .map l.metadata)])
  | .resource kind name =>
    .map (place ++ [("resource_type", .ofText? (kind.map ResourceKind.word)),
      ("resource_name", .ofText? name), ("metadata", .map l.metadata)])

def ofRecordWith (subject : Subject) (d : Data) : Location where
  line := ((d.field "line").int?).getD 0
  column := ((d.field "column").int?).getD 0
  blockType := d.textField "block_type"
  subject := subject
  metadata := ((d.field "metadata").map?).getD []

def ofBlockRecord (d : Data) : Location :=
  ofRecordWith (.block (d.textField "file") (d.textField "block_name")) d

def ResourceKind.ofWord? (s : String) : Option ResourceKind :=
  [ResourceKind.compute, .network, .container, .configuration, .service].find? (·.word == s)

def ofResourceRecord (d : Data) : Location :=
  ofRecordWith (.resource (ResourceKind.ofWord? (d.textField "resource_type"))
    (d.field "resource_name").str?) d

end Location

end Stratus

namespace Stratus.SourceMap

def networkParams : List String := [
  "cidr_block", "instance_tenancy", "enable_dns_support", "enable_dns_hostnames",
  "enable_classiclink", "enable_classiclink_dns_support", "enable_network_address_usage_metrics",
  "ipv6_cidr_block", "ipv6_association_id", "ipv6_cidr_block_network_border_group",
  "dhcp_options_id", "default_security_group_id", "default_route_table_id",
  "default_network_acl_id", "main_route_table_id", "owner_id", "tags"]

def instanceParams : List String := [
  "ami", "instance_type", "key_name", "availability_zone", "placement_group",
  "subnet_id", "vpc_security_group_ids", "user_data", "iam_instance_profile",
  "associate_public_ip_address", "private_ip", "secondary_private_ips",
  "ipv6_addresses", "ebs_optimized", "monitoring", "source_dest_check",
  "disable_api_termination", "instance_initiated_shutdown_behavior",
  "placement_partition_number", "tenancy", "host_id", "cpu_core_count",
  "cpu_threads_per_core", "tags"]

open Text Text.Piece

def setting? (name : String) (least : Nat) (line : String) : Option String :=
  Pattern.first ([text name, blanks, text "=", blanks, text "\""] ++ grab (upTo '"' least) ++
    [text "\""]) line

def serviceName? (line : String) : Option String :=
  Pattern.first ([text "service", gap] ++ quotedGrab) line

structure Line where
  number : Nat
  whole : String
  stripped : String

def linesOf (content : String) : List Line :=
  (split content "\n").zipIdx.map fun (line, i) => ⟨i + 1, line, strip line⟩

def Line.locate (l : Line) (path word blockType blockName : String)
    (metadata : Assoc Data) : Location :=
  ⟨l.number, (find? l.whole word).getD 0, blockType, .block path blockName, metadata⟩

structure ProviderWalk where
  inProviders : Bool := false
  inAws : Bool := false
  map : Assoc Location := []

def providerSetting (path : String) (l : Line) (map : Assoc Location) : Assoc Location :=
  let entry (name key member : String) : Assoc Location :=
    match setting? name 1 l.stripped with
    | some value => Assoc.set map key (l.locate path name "provider" "aws"
        [(member, .str value), ("original_line", .str l.stripped)])
    | none => map
  if contains l.stripped "region" then entry "region" "aws_provider.region" "region"
  else if contains l.stripped "provider" then entry "provider" "aws_provider.name" "provider_name"
  else map

def ProviderWalk.step (path : String) (w : ProviderWalk) (l : Line) : ProviderWalk :=
  if l.stripped == "providers \x7b" then { w with inProviders := true }
  else if !w.inProviders then w
  else if l.stripped == "aws \x7b" then { w with inAws := true }
  else
    let w := if w.inAws then { w with map := providerSetting path l w.map } else w
    if l.stripped != "\x7d" then w
    else if w.inAws then { w with inAws := false }
    else { w with inProviders := false }

/-- Where the walk stands: the open services, innermost first, and the resource block around the
line. -/
structure ServiceWalk where
  depth : Int := 0
  services : List String := []
  inInfrastructure : Bool := false
  network : Option Nat := none
  inNetwork : Bool := false
  compute : Option (Nat × String) := none
  inInstance : Bool := false
  map : Assoc Location := []

def addParams (path : String) (l : Line) (params : List String)
    (id blockType blockName startKey : String)
    (start : Nat) (map : Assoc Location) : Assoc Location :=
  params.foldl (fun map param =>
    match setting? param 0 l.stripped with
    | some value => Assoc.set map (id ++ "." ++ param) (l.locate path param blockType blockName
        [("parameter", .str param), ("value", .str value), (startKey, .int start),
          ("original_line", .str l.stripped)])
    | none => map) map

def opensBlock (w : ServiceWalk) (word : String) (l : Line) : Bool :=
  w.inInfrastructure && contains (lower l.stripped) word && contains l.stripped "\x7b"

def count (c : Char) (s : String) : Int := (s.toList.filter (· == c)).length

def ServiceWalk.enter (path : String) (w : ServiceWalk) (l : Line) : ServiceWalk :=
  let closes := contains l.stripped "\x7d"
  if startsWith l.stripped "service" then
    match serviceName? l.stripped with
    | some name => { w with
        services := name :: w.services
        map := Assoc.set w.map ("service/" ++ name) (l.locate path "service" "service" name []) }
    | none => w
  else if l.stripped == "infrastructure \x7b" then
    let name := w.services.headD "main"
    { w with
      inInfrastructure := true
      map := Assoc.set w.map ("infrastructure/" ++ name)
        (l.locate path "infrastructure" "infrastructure" name []) }
  else if opensBlock w "network" l then { w with inNetwork := true, network := some l.number }
  else if w.inNetwork then
    { w with
      map := addParams path l networkParams "aws_vpc.vpc" "network" "vpc" "vpc_start_line"
        (w.network.getD 0) w.map
      inNetwork := !closes }
  else if opensBlock w "compute" l then
    let name := (setting? "name" 0 l.stripped).getD "instance"
    { w with inInstance := true, compute := some (l.number, name) }
  else if w.inInstance then
    let (start, name) := w.compute.getD (0, "instance")
    { w with
      map := addParams path l instanceParams
        ("aws_instance." ++ name) "compute" name "instance_start_line" start w.map
      inInstance := !closes }
  else w

def ServiceWalk.step (path : String) (w : ServiceWalk) (l : Line) : ServiceWalk :=
  let w := { w with depth := w.depth + count '\x7b' l.stripped - count '\x7d' l.stripped }
  let w := w.enter path l
  if contains l.stripped "\x7d" && w.depth == 0 then
    { w with inInfrastructure := false, services := w.services.drop 1 }
  else w

def ofText (path content : String) : Assoc Location :=
  let lines := linesOf content
  let providers := (lines.foldl (ProviderWalk.step path) {}).map
  (lines.foldl (ServiceWalk.step path) { map := providers }).map

end Stratus.SourceMap
