import Stratus.Ansible.Inventory

/-!
Playbooks from set-ups: one play for each service, with the tasks for packages, files, services and
commands in blocks by group.
-/
namespace Stratus.Ansible.Grouped

abbrev GroupedTask := Data × Data

def present (d : Data) (keys : List String) : Outcome (Assoc Data) := do
  let found ← keys.mapM fun key => do
    if ← d.has key then return [(key, ← d.item key)] else return []
  return found.flatten

def task (d : Data) : Outcome Data := do
  let name ← d.getD "name" (.str "Execute task")
  return .map (("name", name) :: (← d.entries).filter (·.1 != "name"))

def tasksOf (d : Data) : Outcome (List Data) := do (← d.elements).mapM task

def section? (d : Data) (key name : String) : Outcome (List (String × Data)) := do
  if ← d.has key then return [(name, .list (← tasksOf (← d.item key)))] else return []

def block (d : Data) : Outcome Data := do
  let name ← d.item "name"
  return .map ([("name", name)] ++ (← section? d "tasks" "block") ++
    (← section? d "rescue" "rescue") ++
    (← section? d "always" "always"))

/-- A task of a block, kept to the database servers if it speaks of the database. -/
def blockTask (d : Data) : Outcome Data := do
  let t ← task d
  if Text.contains (Text.lower d.text) "mysql" then
    t.put "when" (.texts ["inventory_hostname in groups['db_servers']"])
  else return t

def sectionOrEmpty (d : Data) (key : String) (f : Data → Outcome Data) : Outcome Data := do
  if ← d.has key then .list <$> (← (← d.item key).elements).mapM f else return .list []

def blocks (d : Data) : Outcome Data := do
  .list <$> (← d.elements).mapM fun b => do
    let name ← b.item "name"
    let tasks ← sectionOrEmpty b "tasks" blockTask
    let rescue ← sectionOrEmpty b "rescue" task
    return .map [
      ("name", name), ("block", tasks), ("rescue", rescue),
      ("always", ← sectionOrEmpty b "always" task)]

def handlers (d : Data) : Outcome Data := do
  .list <$> (← d.elements).mapM fun h => do
    let t ← task h
    if ← h.has "listen" then t.put "listen" (← h.item "listen") else return t

def includeVars (d : Data) : Outcome Data := do
  let file ← d.item "file"
  return .map [("name", .str "Include variables"), ("include_vars", file), ("when", ← d.get "when")]

def file (path : String) (content : Data) : Outcome Data := do
  let name : String × Data := ("name", .str ("Create/modify " ++ path))
  match content with
  | .map _ =>
    let copied ← present content ["content", "template", "mode", "owner", "group"]
    let more ← present content ["notify", "when"]
    let group ← present content ["task_group"]
    return .map ([name, ("copy", .map (("dest", .str path) :: copied))] ++ more ++
      group.map fun g => ("group", g.2))
  | content =>
    return .map [name, ("copy", .map [("dest", .str path), ("content", .str content.text)])]

def serviceTask (name state register : String) (wanted : Assoc Data)
    (condition group : Data) : Data :=
  .map ([
    ("name", .str s!"Ensure {name} is {state}"), ("service", .map (("name", .str name) :: wanted)),
    ("register", .str register), ("retries", .int 3), ("delay", .int 5),
    ("failed_when", .str (register ++ " is failed")),
    ("changed_when", .str (register ++ " is changed"))] ++
    (if condition.holds then [("when", condition)] else []) ++ [("group", group)])

def withoutFirst (x : Data) : List Data → List Data
  | [] => []
  | d :: rest => if d.same x then rest else d :: withoutFirst x rest

/-- The tasks for the states of a service; being enabled is no state of its own unless alone. -/
def service (name : String) (actions : Data) : Outcome (List Data) := do
  let group ← actions.getD "task_group" (.str "other")
  let condition ← actions.get "when"
  let states := match ← actions.getD "state" (.list []) with
    | .str s => [Data.str s]
    | .list items => items
    | _ => []
  let listed (word : String) := states.any (Data.same (.str word))
  let (enabled, states) :=
    if listed "enabled" then (some "yes", withoutFirst (.str "enabled") states)
    else if listed "disabled" then (some "no", withoutFirst (.str "disabled") states)
    else (none, states)
  let enabling := enabled.toList.map fun e => ("enabled", Data.str e)
  if states.isEmpty then
    return enabled.toList.map fun e =>
      serviceTask name (if e == "yes" then "enabled" else "disabled")
        (name ++ "_enabled_result") enabling
        condition group
  else
    return states.map fun state =>
      serviceTask name state.text s!"{name}_{state.text}_result"
        (("state", state) :: enabling) condition group

def command (d : Data) : Outcome Data := do
  let name ← d.getD "name" (.str "Run command")
  let command ← d.item "command"
  let base := [
    ("name", name), ("command", command), ("register", .str "command_result"),
    ("changed_when", ← d.getD "changed_when" (.bool false)),
    ("failed_when", ← d.getD "failed_when" (.str "command_result.rc != 0")),
    ("ignore_errors", ← d.getD "ignore_errors" (.bool false))]
  let more ← present d ["environment", "when"]
  let retries ← if ← d.has "retries" then do
      pure [("retries", ← d.item "retries"), ("delay", ← d.getD "delay" (.int 5)),
        ("until", ← d.getD "until" (.str "command_result.rc == 0"))]
    else pure []
  return .map (base ++ more ++ retries)

def verificationKeys : List String :=
  ["name", "module", "retries", "delay", "until", "group", "failed_when", "changed_when", "register"]

def registerName (d : Data) (name : String) : Outcome Data := do
  if ← d.has "register" then d.item "register"
  else
    let until_ ← d.getD "until" (.str "")
    if until_.holds then return .str ((← until_.split ".").headD "")
    else
      let plain :=
        Text.replace (Text.replace (Text.replace (Text.lower name) " " "_") "-" "_") "." "_"
      return .str (plain ++ "_result")

def verification (d : Data) : Outcome Data := do
  let name := Text.replace (←
    (← d.getD "name" (.str "Verify something")).strFor "replace") "Check " ""
  let register ← registerName d name
  let module ← d.getD "module" (.str "command")
  let params := (← d.entries).filter fun e => !verificationKeys.contains e.1
  let entries := Assoc.ofPairs [
    ("name", .str ("Verify " ++ name)), (← module.keyText, .map params), ("register", register),
    ("failed_when", ← d.get "failed_when"), ("changed_when", ← d.getD "changed_when" (.bool false)),
    ("retries", ← d.getD "retries" (.int 1)), ("delay", ← d.getD "delay" (.int 5)),
    ("until", ← d.get "until")]
  return .map (Assoc.set (Data.dropNulls entries) "group" (← d.getD "group" (.str "other")))

def retried (d : Data) : Outcome Data := do
  let name ← d.item "name"
  let register := Text.replace (← name.lower) " " "_" ++ "_result"
  let base := [("name", name), ("command", ← d.item "command"), ("register", .str register)]
  let retries ← if ← d.has "retries" then do
      pure [("retries", ← d.item "retries"), ("delay", ← d.getD "delay" (.int 5)),
        ("until", .str (register ++ " is success"))]
    else pure []
  return .map (base ++ retries ++ (← present d ["when", "delegate_to", "run_once", "environment"]))

def database (d : Data) : Outcome Data := do
  let name ← d.item "name"
  let db ← d.getD "mysql_db" (.map [])
  let base : Assoc Data := [
    ("name", name), ("mysql_db", db), ("when", .str "inventory_hostname in groups['db_servers']")]
  let dump ← if ← db.has "state" then do
      pure ((← (← d.item "mysql_db").item "state").same (.str "dump"))
    else pure false
  if dump then
    return .map (base ++ [
      ("delegate_to", ← d.getD "delegate_to" (.str "localhost")),
      ("register", .str "mysql_backup_result"),
      ("failed_when", .str "mysql_backup_result.failed")])
  else return .map base

def inGroup (t : Data) : Outcome GroupedTask := do return (← t.getD "group" (.str "other"), t)

/-- The handlers that a file's notifications call for; the last word names the service. -/
def fileHandlers (t : Data) : Outcome (List Data) := do
  if !(← t.has "notify") then return []
  (← (← t.item "notify").elements).mapM fun name => do
    match (Text.words (← name.strFor "split")).getLast? with
    | some service => return .map [
      ("name", name), ("service", .map [("name", .str service), ("state", .str "restarted")]),
      ("listen", name)]
    | none => .error (.indexOutOfRange "list")

def packages (d : Data) : List GroupedTask :=
  if d.holds then [(.str "packages", .map [
    ("name", .str "Install required packages"),
    ("package", .map [
      ("name", .str "\x7b\x7b item \x7d\x7d"), ("state", .str "present"),
      ("update_cache", .bool true)]),
    ("loop", d), ("check_mode", .bool false)])]
  else []

def setupTasks (s : Setup) : Outcome (List GroupedTask × List Data) := do
  let files ← (← s.files.entries).mapM fun (path, content) => do
    let t ← file path content
    let grouped ← inGroup t
    return (grouped, ← fileHandlers t)
  let services ← (← s.services.entries).mapM fun (name, actions) => do
    (← service name actions).mapM inGroup
  let tasks ← (← s.tasks.elements).mapM fun t => do inGroup (← task t)
  let checks ← (← s.verifications.elements).mapM fun v => do inGroup (← verification v)
  let commands ← (← s.commands.elements).mapM fun c => do inGroup (← command c)
  return (packages s.packages ++ files.map Prod.fst ++ services.flatten ++ tasks ++
    checks ++ commands,
    (files.map Prod.snd).flatten)

def needHashable (d : Data) : Outcome Unit :=
  if d.hashable then .ok () else .error (.unhashable d.kind)

def order (tasks : List GroupedTask) (groups : Data) : Outcome (List Data) := do
  let groups ← groups.elements
  groups.forM needHashable
  tasks.forM fun t => needHashable t.1
  let named ← groups.mapM fun g => do
    let members := (tasks.filter fun t => t.1.same g).map Prod.snd
    if members.isEmpty then return []
    else
      let word := Text.capitalize (Text.replace (← g.strFor "replace") "_" " ")
      return [Data.map [("name", .str (word ++ " tasks")), ("block", .list members)]]
  let others := (tasks.filter fun t => !groups.any (Data.same t.1)).map Prod.snd
  let last := if others.isEmpty then []
    else [Data.map [("name", .str "Other tasks"), ("block", .list others)]]
  return named.flatten ++ last

def play (s : Service) : Outcome (Assoc Data) := do
  let vars : Assoc Data :=
    [("target_web_servers", .str "web_servers"), ("target_db_servers", .str "db_servers")]
  let (tasks, handlers, vars) ← match s.setup with
    | none => pure ([], [], vars)
    | some setup => do
      let vars ← if setup.vars.holds then Data.updateWith vars setup.vars else pure vars
      let (tasks, handlers) ← setupTasks setup
      pure (← order tasks setup.taskOrder, handlers, vars)
  return [
    ("name", .str ("Configure " ++ s.name)),
    ("hosts", .str "\x7b\x7b target_servers | default('all') \x7d\x7d"),
    ("become", .bool true), ("tasks", .list tasks), ("handlers", .list handlers), ("vars", .map vars)]

/-- A walk over the parts of something that is no list: each is a text, and none may speak of a
group or of tasks. -/
def refuseParts (parts : List String) : Outcome Unit := parts.forM fun part => do
  if Text.contains part "group" then .error (.notErasable "str")
  if Text.containsAny part ["block", "rescue", "always"] then .error (.badIndex "str" "str")

/-- Refuses a task that is no map but has the words of one. -/
def refuseTask (d : Data) : Outcome Unit := do
  if ← d.has "group" then .error (.notErasable d.kind)
  for key in ["block", "rescue", "always"] do
    if ← d.has key then discard <| d.item key

/-- The entries of a task. What fails inside its sections fails in the order in which those run. -/
def inOrder (entries : Assoc (Outcome Data)) : Outcome (Assoc Data) := do
  for key in ["block", "rescue", "always"] do
    if let some d := Assoc.get? entries key then discard d
  entries.mapM fun (key, d) => do return (key, ← d)

mutual

def ungroup : Data → Outcome Data
  | .list items => .list <$> ungroupItems items
  | .str s => do
    refuseParts (s.toList.map String.singleton)
    return .str s
  | .map entries => do
    refuseParts (Assoc.keys entries)
    return .map entries
  | d => .error (.notIterable d.kind)

def ungroupItems : List Data → Outcome (List Data)
  | [] => .ok []
  | .map entries :: rest => do
    return .map (← inOrder (ungroupEntries entries)) :: (← ungroupItems rest)
  | d :: rest => do
    refuseTask d
    return d :: (← ungroupItems rest)

def ungroupEntries : List (String × Data) → Assoc (Outcome Data)
  | [] => []
  | (k, d) :: rest =>
    if k == "group" then ungroupEntries rest
    else if k == "block" || k == "rescue" || k == "always" then (k, ungroup d) :: ungroupEntries rest
    else (k, .ok d) :: ungroupEntries rest

end

def ungroupPlay (play : Assoc Data) : Outcome Data := do
  .map <$> play.mapM fun (k, d) => do
    if k == "tasks" || k == "handlers" then return (k, ← ungroup d) else return (k, d)

def generate (services : List Service) : Outcome (Data × Data) := do
  let steps ← services.foldlM (fun (plays, inventory) s => do
    let p ← play s
    let plays := if (Assoc.getD p "tasks" .null).holds then plays ++ [p] else plays
    return (plays, ← addService s inventory)) (([] : List (Assoc Data)), emptyInventory)
  return (.list (← steps.1.mapM ungroupPlay), steps.2)

end Stratus.Ansible.Grouped
