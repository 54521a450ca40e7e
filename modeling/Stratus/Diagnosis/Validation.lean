import Stratus.Diagnosis.Remark
import Stratus.Json.Reader
import Stratus.World.Document

/-!
Checks of a description and of the files generated from it. Each check answers its remarks; a value
of an unexpected shape ends the check with a fault.
-/
namespace Stratus

structure Workspace where
  description : String
  terraform : Option Data := none
  kubernetes : Option (List Data) := none
  ansible : Option (List Data) := none

namespace Workspace

open Text Text.Piece

def loadFile (format : DocumentFormat) (disk : Disk) (dir : String) (w : Workspace)
    (name : String) : Outcome Workspace := do
  let path := Path.join dir name
  if endsWith name ".tf.json" then return { w with terraform := ← Json.read (← disk.readText path) }
  else if name == "playbook.yml" then
    return { w with ansible := ← format.readAll (← disk.readText path) }
  else if name == "resources.yml" then
    return { w with kubernetes := ← format.readAll (← disk.readText path) }
  else return w

def load (format : DocumentFormat) (disk : Disk) (dir path : String) : Outcome Workspace := do
  let description ← disk.readText path
  if !disk.isDir dir then throw (.noFile dir)
  (disk.entries dir).foldlM (loadFile format disk dir) { description }

structure Outline where
  service : Option String := none
  part : Option String := none
  services : Assoc Data := []
  types : Assoc Data := []

def emptyService : Data := .map [("infrastructure", .map []), ("configuration", .map []),
      ("containers", .list [])]

def Outline.declare (o : Outline) (stripped : String) : Outline :=
  if startsWith stripped "type " then
    match Pattern.atStart ([text "type", gap] ++ grab word ++ [blanks, text "\x7b"]) stripped with
    | some [name] => { o with part := some "type", types := Assoc.set o.types name (.map []) }
    | _ => o
  else if startsWith stripped "service " then
    match Pattern.atStart ([text "service", gap] ++ quotedGrab) stripped with
    | some [name] => { o with
        service := some name, part := some "service", services :=
          Assoc.set o.services name emptyService }
    | _ => o
  else if stripped == "infrastructure \x7b" then { o with part := some "infrastructure" }
  else if stripped == "configuration \x7b" then { o with part := some "configuration" }
  else if startsWith stripped "containers =" then { o with part := some "containers" }
  else o

def Outline.step (o : Outline) (line : String) : Outline :=
  let o := o.declare (strip line)
  match o.service, o.part with
  | some name, some part =>
    if ["infrastructure", "configuration", "containers"].contains part then
      let entry := ((Assoc.get? o.services name).bind Data.map?).getD []
      { o with services := Assoc.set o.services name (.map (Assoc.set entry part (.str line))) }
    else o
  | _, _ => o

def outline (content : String) : Data :=
  let o := (split content "\n").foldl Outline.step {}
  .map [("raw_content", .str content), ("services", .map o.services), ("types", .map o.types)]

structure BraceWalk where
  depth : Int := 0
  services : List String := []
  remarks : List Remark := []

def declaration : Pattern := [text "service", gap] ++ quotedGrab ++ [blanks, text "\x7b"]

def badDeclaration (path : String) (number : Nat) (line : String) : Remark where
  kind := .error
  source := "cloud"
  message := "Invalid service declaration syntax"
  details := some s!"Line {number}: {line}"
  place := some (.fixed ⟨number, 1, "service", .block path "unknown", []⟩)
  suggestion := some "Use format: service \"name\" \x7b"

def BraceWalk.step (path : String) (w : BraceWalk) (line : String) (number : Nat) : BraceWalk :=
  let stripped := strip line
  if stripped == "" || startsWith stripped "#" then w
  else
    let w := if startsWith line "service" then
        match Pattern.atStart declaration stripped with
        | some (name :: _) => { w with services := w.services ++ [name] }
        | _ => { w with remarks := w.remarks ++ [badDeclaration path number line] }
      else w
    let w := if contains stripped "\x7b" then { w with depth := w.depth + 1 } else w
    if contains stripped "\x7d" then
      let depth := w.depth - 1
      { w with depth, services := if depth == 0 then w.services.dropLast else w.services }
    else w

def descriptionRemarks (path : String) (w : Workspace) : List Remark :=
  let walk := ((split w.description "\n").zipIdx 1).foldl
    (fun walk (line, n) => BraceWalk.step path walk line n) {}
  if walk.depth > 0 && !walk.services.isEmpty then
    let unclosed := commas (walk.services.map fun name => s!"service '{name}'")
    walk.remarks ++ [{
      kind := .error, source := "cloud", message := "Unclosed blocks detected"
      details := some ("Missing closing braces for: " ++ unclosed)
      suggestion := some "Ensure all blocks are properly closed with \x7d" }]
  else walk.remarks

def remarkOn (kind : RemarkKind) (message : String) (resource : Option String)
    (id suggestion : String) :
    Tracing Remark := do
  let place ← Locator.find? id
  return { kind, source := "cloud", message, resource, place, suggestion := some suggestion }

def machineRemarks (name : String) (machine : Data) : Tracing (List Remark) := do
  let id := "aws_instance." ++ name
  let mut remarks := []
  if (← machine.get "instance_type") == .str "t2.micro" then
    remarks :=
      remarks ++ [← remarkOn .warning "Consider using a larger instance type for production" id id
      "Update the size in your Instance type to 't2.small' or larger"]
  let device ← machine.getD "root_block_device" (.map [])
  if !(← device.getD "encrypted" (.bool false)).holds then
    remarks := remarks ++ [← remarkOn .warning "Root volume encryption not enabled" id id
      "Add root_block_device.encrypted = true to your compute block"]
  if !(← machine.get "vpc_security_group_ids").holds then
    remarks := remarks ++ [← remarkOn .error "Instance missing security group" id id
      "Add security group configuration to your compute block"]
  return remarks

def ruleRemarks (name : String) (rule : Data) : Tracing (List Remark) := do
  let id := "aws_security_group." ++ name
  if (← rule.get "cidr_blocks") == .texts ["0.0.0.0/0"] then
    let port ← rule.get "to_port"
    if port == .int 80 then return []
    return [← remarkOn .warning s!"Security group has wide-open access on port {port.text}" id id
      "Restrict security group access to specific IP ranges"]
  return []

def resourcesOf (resources : Data) (type : String) : Tracing (Assoc Data) := do
  if ← resources.has type then (← resources.item type).entries else return []

def infrastructureRemarks (content : Data) : Tracing (List Remark) := do
  let mut remarks := []
  if !(← content.has "provider") then
    remarks := [{
      kind := .error, source := "terraform", message := "Missing provider configuration"
      place := ← Locator.find? "service/main"
      suggestion := some "Add provider configuration to your service block" }]
  if !(← content.has "resource") then throw (.unbound "resources")
  let resources ← content.item "resource"
  for (name, machine) in ← resourcesOf resources "aws_instance" do
    remarks := remarks ++ (← machineRemarks name machine)
  for (name, group) in ← resourcesOf resources "aws_security_group" do
    for rule in ← (← group.getD "ingress" (.list [])).elements do
      remarks := remarks ++ (← ruleRemarks name rule)
  return remarks

def containerRemarks (name : Data) (container : Data) : Tracing (List Remark) := do
  let remark (message suggestion : String) : Tracing Remark :=
    remarkOn .warning message ("Deployment/" ++ name.text) ("containers/" ++ name.text) suggestion
  let mut remarks := []
  if !(← container.has "resources") then
    remarks := [← remark "Container missing resource limits"
      "Add resource limits to your container definition"]
  else
    let resources ← container.get "resources"
    if resources.holds then
      let limits ← resources.get "limits"
      let complete ← if limits.holds then Data.holds <$> (resources.get "requests" : Outcome Data)
        else pure false
      if !complete then
        remarks := [← remark "Container missing resource requests or limits"
          "Specify both requests and limits in your resource configuration"]
  let alive ← container.has "livenessProbe"
  let ready ← if alive then pure true else container.has "readinessProbe"
  if !ready then
    remarks := remarks ++ [← remark "Container missing health probes"
      "Add health check configuration to your container"]
  if ← (← container.getD "image" (.str "")).has ":latest" then
    remarks := remarks ++ [← remark "Container using 'latest' tag"
      "Specify a concrete version instead of 'latest' tag"]
  return remarks

def documentRemarks (doc : Data) : Tracing (List Remark) := do
  let kind ← doc.get "kind"
  let name ← (← doc.getD "metadata" (.map [])).getD "name" (.str "unknown")
  if kind != .str "Deployment" then return []
  let template ← (← doc.getD "spec" (.map [])).getD "template" (.map [])
  let containers ← (← template.getD "spec" (.map [])).getD "containers" (.list [])
  return (← (← containers.elements).mapM (containerRemarks name)).flatten

def taskRemarks (task : Data) : Tracing (List Remark) := do
  let remark (message suggestion : String) : Tracing Remark :=
    remarkOn .warning message none "configuration/main" suggestion
  let mut remarks := []
  if !(← task.get "name").holds then
    remarks :=
      [← remark "Task missing name" "Add descriptive names to all tasks in your configuration"]
  let apt ← task.get "apt"
  let manager ← if apt.holds then pure apt else task.get "yum"
  if manager.holds then
    if let .list packages ← manager.getD "name" (.list []) then
      let versioned ← packages.foldlM (fun found p => if found then pure true else p.has "=") false
      if !versioned then
        remarks := remarks ++ [← remark "Package versions not specified"
          "Specify package versions in your packages list"]
  return remarks

def playRemarks (play : Data) : Tracing (List Remark) := do
  let .map _ := play | return []
  let raised ← play.get "become"
  let head ← if raised.holds then pure [] else do
    pure [← remarkOn .warning "Playbook not using privilege escalation" none "configuration/main"
      "Add become: true to your configuration block"]
  let tasks ← (← play.getD "tasks" (.list [])).elements
  return head ++ (← tasks.mapM taskRemarks).flatten

def terraformRemarks (w : Workspace) : Tracing (List Remark) :=
  match w.terraform with
  | some content => infrastructureRemarks content
  | none => return []

def kubernetesRemarks (w : Workspace) : Tracing (List Remark) := do
  return (← (w.kubernetes.getD []).mapM documentRemarks).flatten

def ansibleRemarks (w : Workspace) : Tracing (List Remark) := do
  return (← (w.ansible.getD []).mapM playRemarks).flatten

def generalRemarks (w : Workspace) : List Remark :=
  let absent (word message suggestion : String) : List Remark :=
    if contains w.description word then []
    else [{ kind := .suggestion, source := "cloud", message, suggestion := some suggestion }]
  absent "health_check" "Consider adding health checks to your services"
      "Add health_check blocks to your container definitions" ++
    absent "resources" "Consider adding resource limits"
      "Add resource limits to your compute and container definitions"

def allRemarks (path : String) (w : Workspace) : Tracing (List Remark) := do
  return w.descriptionRemarks path ++ (← w.terraformRemarks) ++ (← w.kubernetesRemarks) ++
    (← w.ansibleRemarks) ++ w.generalRemarks

end Workspace

end Stratus
