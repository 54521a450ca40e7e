import Stratus.World.Session

/-!
The user name under which an instance is reached: told by the conditions of the playbook, or else by
the image of an instance in the infrastructure configuration.
-/
namespace Stratus.RemoteUser

def users : List (String × String) := [
  ("Ubuntu", "ubuntu"), ("Debian", "debian"), ("Amazon", "ec2-user"), ("RedHat", "ec2-user"),
  ("RHEL", "ec2-user"), ("CentOS", "centos"), ("Rocky", "rocky"), ("AlmaLinux", "almalinux"),
  ("Fedora", "fedora"), ("SUSE", "sles"), ("openSUSE", "opensuse"), ("Oracle", "opc"),
    ("OracleLinux", "opc")]

open Text Text.Piece

def systemIn? (condition : Data) : Option String :=
  match condition with
  | .str s => Pattern.first ([text "ansible_distribution", blanks, text "==", blanks, text "'"] ++
      grab (upTo '\'' 1) ++ [text "'"]) s
  | _ => none

/-- The first system that the conditions of tasks ask for, blocks of tasks included; `n` bounds
their nesting. -/
def systemOfTasks : Nat → Data → Outcome (Option String)
  | 0, _ => .ok none
  | n + 1, tasks => do
    (← tasks.elements).findSomeM? fun task => do
      if ← task.has "when" then
        if let some system := systemIn? (← task.item "when") then return some system
      if ← task.has "block" then systemOfTasks n (← task.item "block") else return none

def ofPlaybook (playbook : Data) : Outcome (Option String) := do
  (← playbook.elements).findSomeM? fun play => do
    if !(← play.has "tasks") then return none
    let tasks ← play.item "tasks"
    return (← systemOfTasks tasks.depth tasks).bind fun system => users.lookup system

def ofImage (image : String) : String :=
  let has (parts : List String) : Bool := containsAny image parts
  if has ["debian"] then "debian"
  else if has ["ubuntu"] then "ubuntu"
  else if has ["rhel", "red-hat", "redhat"] then "root"
  else if has ["centos"] then "centos"
  else if has ["cos"] then "chronos"
  else if has ["sles", "suse"] then "root"
  else ((users.find? fun u => contains image (lower u.1)).map (·.2)).getD "debian"

def ofBootDisk (machine : Data) : Outcome (Option String) := do
  if !(← machine.has "boot_disk") then return none
  let .list disks ← machine.item "boot_disk" | return none
  disks.findSomeM? fun disk => do
    if !(← disk.has "initialize_params") then return none
    let params ← disk.item "initialize_params"
    if !(← params.has "image") then return none
    return some (ofImage (← (← params.item "image").lower))

def ofMachineImage (image : Data) : Outcome String := do
  let name ← (← image.getD "Name" (.str "")).lower
  let platform ← (← image.getD "Platform" (.str "")).lower
  let _ ← (← image.getD "PlatformDetails" (.str "")).lower
  let has (part : String) : Bool := contains name part
  return if platform == "windows" then "Administrator"
    else if has "amazon linux 2" || has "amzn2" then "ec2-user"
    else if has "ubuntu" then "ubuntu"
    else if has "red hat" || has "rhel" then "ec2-user"
    else if has "centos" then "centos"
    else if has "debian" then "admin"
    else "ec2-user"

def awsRegion (config : Data) : Outcome Data := do
  if !(← config.has "provider") then return .str "us-east-1"
  let providers ← config.item "provider"
  if !(← providers.has "aws") then return .str "us-east-1"
  match ← providers.item "aws" with
  | .map settings => return Assoc.getD settings "region" (.str "us-east-1")
  | .list (settings :: _) => settings.getD "region" (.str "us-east-1")
  | _ => return .str "us-east-1"

/-- The user of the first instance whose image the cloud service knows; a refusal passes it over. -/
def ofInstances (config machines : Data) : Job (Option String) := do
  let region ← awsRegion config
  Job.awsSession [("region_name", region)]
  Job.awsClient "ec2" [("region_name", region)]
  (← machines.values).findSomeM? fun machine => do
    if !(← machine.has "ami") then return none
    let image ← machine.item "ami"
    try
      let images ← (← Job.aws "describe_images" [("ImageIds", .list [image])]).item "Images"
      if images.holds then return some (← ofMachineImage (← images.first)) else return none
    catch
      | .serviceRefused .. => return none
      | fault => throw fault

def ofConfiguration (config : Data) : Job (Option String) := do
  if !(← config.has "resource") then return none
  let resources ← config.item "resource"
  if ← resources.has "google_compute_instance" then
    (← (← resources.item "google_compute_instance").values).findSomeM? fun machine =>
    ofBootDisk machine
  else if ← resources.has "aws_instance" then
    ofInstances config (← resources.item "aws_instance")
  else return none

def ofProvider (config : Data) : Outcome String := do
  if ← config.has "provider" then
    if ← (← config.item "provider").has "google" then return "debian"
  return "ec2-user"

def ofPlaybookFile (dir : String) : Job (Option String) := do
  let path := Path.join dir "playbook.yml"
  if !(← Job.disk).holds path then return none
  try
    let playbook ← Job.readDocument path
    ofPlaybook playbook
  catch _ => return none

def find (dir : String) : Job String := do
  if let some user ← ofPlaybookFile dir then return user
  let config ← try some <$> Job.readJson (Path.join dir "main.tf.json") catch _ => pure none
  let some config := config | throw (.unbound "tf_config")
  let user ← try ofConfiguration config catch _ => pure none
  match user with
  | some user => return user
  | none => ofProvider config

end Stratus.RemoteUser
