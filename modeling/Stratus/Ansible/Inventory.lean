import Stratus.Service.Basic
import Stratus.Data.Access

/-! Inventories: groups of hosts under `all`. -/
namespace Stratus.Ansible

def emptyInventory : Data := .map [("all", .map [("hosts", .map [])])]

def under (key : String) (f : Data → Outcome Data) (d : Data) : Outcome Data := do
  d.put key (← f (← d.item key))

def withGroups (inventory : Data) : Outcome Data :=
  under "all" (fun all => do
    if ← all.has "children" then return all else all.put "children" (.map [])) inventory

def onGroups (f : Data → Outcome Data) (inventory : Data) : Outcome Data :=
  under "all" (under "children" f) inventory

def ensureGroup (name : String) (inventory : Data) : Outcome Data :=
  onGroups (fun groups => do
    if ← groups.has name then return groups
    else groups.put name (.map [("hosts", .map [])])) inventory

def addHost (group host : String) (facts : Data) (inventory : Data) : Outcome Data := do
  onGroups (under group (under "hosts" (·.put host facts))) (← ensureGroup group inventory)

def assignHosts (group : String) (hosts : Data) (inventory : Data) : Outcome Data :=
  onGroups (fun groups => do
    if ← groups.has group then
      under group (under "hosts" fun known => do
        .map <$> Data.updateWith (← known.entriesFor "update") hosts) groups
    else return groups) inventory

/-- The machine of a component, web server or else database server by its name. -/
def addComponent (c : Component) (inventory : Data) : Outcome Data :=
  if !c.kind.same (.str "compute") then .ok inventory
  else
    let read (key fallback : String) := Assoc.getD c.attributes key (.str fallback)
    addHost (if Text.contains c.name "web" then "web_servers" else "db_servers")
      (c.name ++ "_hosts") (.map [
      ("ansible_host", read "public_ip" "127.0.0.1"), ("ansible_user", read "ssh_user" "ubuntu"),
      ("ansible_ssh_private_key_file", read "ssh_key_file" ""),
      ("ansible_ssh_common_args", .str "-o StrictHostKeyChecking=no")]) inventory

def addService (s : Service) (inventory : Data) : Outcome Data := do
  s.infrastructure.foldlM (fun inventory c => addComponent c inventory) (← withGroups inventory)

/-- The text from a number of characters behind a mark up to an end; none if either is missing. -/
def between? (text start : String) (skip : Nat) (stop : String) : Option String := do
  let at_ ← Text.find? text start
  let rest := Text.drop (at_ + skip) text
  let n ← Text.find? rest stop
  return Text.take n rest

def conditionGroup? (condition : Data) : Outcome (Option String) := do
  if !(← condition.has "groups['") then return none
  return between? (← condition.strFor "find") "groups['" 8 "']"

/-- The same with its opening quote, unless nothing stands between the quotes' places. -/
def quotedGroup? (condition : Data) : Outcome (Option String) := do
  if !(← condition.has "groups[") then return none
  return (between? (← condition.strFor "find") "groups['" 7 "']").filter (· != "")

def variableGroup? (name : Data) : Outcome (Option String) := do
  if !(← name.has "servers") then return none
  match (← name.split "_").reverse with
  | last :: before :: _ => return some s!"{before}_{last}"
  | _ => return none

def variableGroups (play : Data) : Outcome (List String) := do
  let vars ← (← play.getD "vars" (.map [])).entries
  return (vars.filter fun v => Text.contains v.1 "servers").map fun v => v.2.text

def taskGroup? (task : Data) : Outcome (Option String) :=
  match task with
  | .map entries =>
    match Assoc.getD entries "when" (.str "") with
    | .str condition =>
      if Text.contains condition "groups[" then
        (Option.filter (· != "")) <$> conditionGroup? (.str condition)
      else .ok none
    | _ => .ok none
  | _ => .ok none

def playGroups (play : Data) : Outcome (List String) := do
  let named ← variableGroups play
  let tasks ← (← play.getD "tasks" (.list [])).elements
  let asked ← tasks.mapM taskGroup?
  return named ++ asked.filterMap id

def webGroup (group : String) : Data :=
  .map [("hosts", .map [(Text.replace (Text.lower group) "_servers" "" ++ "_server_hosts", .map [
    ("ansible_host", .str "\x7b\x7b host_ip \x7d\x7d"), ("ansible_user", .str "ubuntu"),
    ("ansible_ssh_common_args", .str "-o StrictHostKeyChecking=no"),
    ("ansible_ssh_private_key_file", .str "\x7b\x7b ssh_key_path \x7d\x7d")])])]

def inventoryOf (playbook : Data) : Outcome Data := do
  let groups := (← (← playbook.elements).mapM playGroups).flatten
  let web := groups.filter fun g => Text.contains (Text.lower g) "web"
  return .map [("all", .map [
    ("hosts", .map []), ("children", .map (Assoc.ofPairs (web.map fun g => (g, webGroup g))))])]

end Stratus.Ansible
