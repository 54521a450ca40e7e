import Stratus.Ansible.Inventory

/-! Playbooks from plays as they are written in a configuration. -/
namespace Stratus.Ansible.Plays

def attributes : List String :=
  ["when", "register", "notify", "ignore_errors", "changed_when", "failed_when", "retries",
    "delay", "loop"]

/-- A module's parameters; a list of one map is that map. -/
def parameters : Data → Data
  | .list [.map entries] => .map entries
  | d => d

/-- A task: name, module, then attributes; an empty one is none. -/
def task? (d : Data) : Outcome (Option (Assoc Data)) := do
  if !d.holds then return none
  let name ← d.getD "name" (.str "Unnamed task")
  let modules := (← d.entries).filter fun e => e.1 != "name" && !attributes.contains e.1
  let given := attributes.filterMap fun a => (Assoc.get? ((d.map?).getD []) a).map (a, ·)
  return some (("name", name) :: modules.map (fun (k, v) => (k, parameters v)) ++ given)

def blockTasks (parts : Data) : Outcome (List Data) := do
  let found ← (← parts.elements).mapM fun part => do
    if ← part.has "task" then (← part.item "task").elements else return []
  return found.flatten

def block (tasks : List Data → Outcome (List Data)) (d : Data) : Outcome Data := do
  let name ← d.getD "name" (.str "Unnamed block")
  let section_ (key : String) (read : Data → Outcome (List Data)) :
    Outcome (List (String × Data)) := do
    if ← d.has key then return [(key, .list (← tasks (← read (← d.item key))))] else return []
  return .map ([("name", name)] ++ (← section_ "block" blockTasks) ++
    (← section_ "rescue" Data.elements) ++
    (← section_ "always" Data.elements))

def tasksWithin : Nat → List Data → Outcome (List Data)
  | 0, _ => .error .tooDeep
  | depth + 1, items => do
    let found ← items.mapM fun d => do
      if ← d.has "block" then return [← block (tasksWithin depth) d]
      else return (← task? d).toList.map Data.map
    return found.flatten

def tasksIn (items : List Data) : Outcome (List Data) :=
  tasksWithin ((Data.list items).depth + 1) items

def tasks (d : Data) : Outcome (List Data) := do tasksIn (← d.elements)

def handlers (d : Data) : Outcome (List Data) := do
  let found ← (← d.elements).mapM fun h => do
    match ← task? h with
    | some t => return [Data.map (Assoc.set t "listen" (Assoc.getD t "name" .null))]
    | none => return []
  return found.flatten

def play (d : Data) : Outcome Data := do
  let name ← d.getD "name" (.str "Unnamed play")
  let hosts ← d.getD "hosts" (.str "all")
  let become ← d.getD "become" (.bool false)
  let vars ← if ← d.has "vars" then do pure [("vars", ← d.item "vars")] else pure []
  let filled (key : String) (items : List Data) : List (String × Data) :=
    if items.isEmpty then [] else [(key, .list items)]
  let before ← tasks (← d.getD "pre_task" (.list []))
  let main ← tasks (← d.getD "task" (.list []))
  let after ← tasks (← d.getD "post_task" (.list []))
  let handlers ← handlers (← d.getD "handler" (.list []))
  return .map ([("name", name), ("hosts", hosts), ("become", become)] ++ vars ++
    filled "pre_tasks" before ++
    filled "post_tasks" after ++ filled "handlers" handlers ++ filled "tasks" main)

def readsFileHere (cs : List Char) : Bool :=
  match Text.after? "file(\"".toList cs with
  | some rest =>
    !(rest.takeWhile (· != '"')).isEmpty &&
      Text.startsWith (String.ofList (rest.dropWhile (· != '"'))) "\")"
  | none => false

def readsFile : List Char → Bool
  | [] => false
  | c :: cs => readsFileHere (c :: cs) || readsFile cs

def fileReference : String := "$\x7bfile(\"nginx.conf\")\x7d"

/-- Texts of maps that read a file refer to the one file that playbooks read. -/
def withFiles : Data → Data :=
  Data.mapTexts (fun keyed s => if keyed && readsFile s.toList then fileReference else s) false

def sectionPlays (d : Data) : Outcome (List Data) := do
  if !(← d.has "play") then return []
  let found ← (← (← d.item "play").elements).mapM fun plays => do
    (← plays.entries).mapM fun (_, config) => play config
  return found.flatten

def servicePlays (s : Service) : Outcome (List Data) :=
  match s.setup with
  | some setup => do
    if !setup.sections.holds then return []
    return (← (← setup.sections.elements).mapM sectionPlays).flatten
  | none => .ok []

def generate (services : List Service) : Outcome (Data × Data) := do
  let playbook := withFiles (.list (← services.mapM servicePlays).flatten)
  return (playbook, ← inventoryOf playbook)

end Stratus.Ansible.Plays
