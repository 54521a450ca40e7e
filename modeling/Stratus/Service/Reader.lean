import Stratus.Data.Access
import Stratus.Service.Basic

/-! Services and providers from the tree of a configuration text. -/
namespace Stratus

structure Landscape where
  services : List Service
  providers : Assoc Data
  mappings : Data

namespace Landscape

/-- The attributes of a provider; none for shapes that are passed over. -/
def providerAttributes? : Data → Option Data
  | .list [] => none
  | .list (first :: _) => some first
  | .map entries => some (.map entries)
  | _ => none

def provider (label : String) (attributes : Data) : Outcome Data := do
  let type ← attributes.getD "provider" (.str label)
  let version ← attributes.get "version"
  let (_, config) ← (← attributes.copied).pop "provider" .null
  let (_, config) ← config.pop "version" .null
  return .map [("type", type), ("alias", .str label), ("version", version), ("config", config)]

def providersIn (known : Assoc Data) (entries : Assoc Data) : Outcome (Assoc Data) :=
  entries.foldlM (fun known (label, attributes) =>
    match providerAttributes? attributes with
    | some attributes => do return Assoc.set known label (← provider label attributes)
    | none => return known) known

def providersOf (blocks : Data) : Outcome (Assoc Data) :=
  match blocks with
  | .list items => items.foldlM (fun known item =>
    match item with
    | .map entries => providersIn known entries
    | _ => return known) []
  | .map entries => providersIn [] entries
  | _ => .ok []

def yumSystems : List String := ["amazon-linux", "centos", "redhat", "fedora"]

def packageManager (os : String) : String := if yumSystems.contains os then "yum" else "apt"

def component (fallback : Data) (kind : Option String) (name : String) (content : Data) :
    Outcome Component := do
  let (count, rest) ← (← content.copied).pop "count" .null
  let (forEach, rest) ← rest.pop "for_each" .null
  let (dependsOn, rest) ← rest.pop "depends_on" (.list [])
  let (lifecycle, rest) ← rest.pop "lifecycle" .null
  let (provisioners, rest) ← rest.pop "provisioners" .null
  let (others, rest) ← rest.pop "providers" fallback
  let (provider, rest) ← rest.pop "provider" others
  let (resourceType, rest) ← rest.pop "resource_type" .null
  let (dataSource, rest) ← rest.pop "data_source" (.bool false)
  let (module, rest) ← rest.pop "module" (.bool false)
  let (kind, rest) ← match kind with
    | some k => if k == "" then rest.pop "component_type" .null else pure (.str k, rest)
    | none => rest.pop "component_type" .null
  let os ← (← rest.getD "os" (.str "")).lower
  return {
    name, kind, attributes := ← rest.entries, provider, resourceType, count, forEach, dependsOn,
    lifecycle, provisioners, packageManager := .str (packageManager os), dataSource, module }

mutual

def sectionComponents (fallback : Data) (kind : String) : Data → Outcome (List Component)
  | .map entries => entries.mapM fun (name, content) => component fallback (some kind) name content
  | .list items => sectionItems fallback kind items
  | _ => .ok []

def sectionItems (fallback : Data) (kind : String) : List Data → Outcome (List Component)
  | [] => .ok []
  | d :: rest =>
    do return (← sectionComponents fallback kind d) ++ (← sectionItems fallback kind rest)

end

mutual

def infrastructure (fallback : Data) : Data → Outcome (List Component)
  | .map entries => do
    return (← entries.mapM fun (kind, content) => sectionComponents fallback kind content).flatten
  | .list items => infrastructureItems fallback items
  | _ => .ok []

def infrastructureItems (fallback : Data) : List Data → Outcome (List Component)
  | [] => .ok []
  | d :: rest => do return (← infrastructure fallback d) ++ (← infrastructureItems fallback rest)

end

/-- Components listed by name alone have no content to copy. -/
def bareComponents (kind : String) (components : Data) : Outcome (List Component) := do
  let names := match components with
    | .list items => items.flatMap fun (item : Data) =>
      match item with
      | .map entries => Assoc.keys entries
      | _ => []
    | .map entries => Assoc.keys entries
    | _ => []
  names.mapM fun name => component .null none kind (.str name)

def extendSetup (setup : Setup) (name : String) (content : Data) : Outcome Setup := do
  let extended (have_ : Data) (key : String) : Outcome Data := do
    .list <$> Data.extendWith ((have_.list?).getD []) (← content.getD key (.list []))
  let updated (have_ : Data) (key : String) : Outcome Data := do
    .map <$> Data.updateWith ((have_.map?).getD []) (← content.getD key (.map []))
  match content with
  | .map _ => return {
    name
    packages := ← extended setup.packages "packages"
    files := ← updated setup.files "files"
    services := ← updated setup.services "services"
    vars := ← updated setup.vars "variables"
    tasks := ← extended setup.tasks "tasks"
    commands := ← extended setup.commands "commands"
    verifications := ← extended setup.verifications "verifications"
    blocks := ← extended setup.blocks "blocks"
    handlers := ← extended setup.handlers "handlers"
    includeVars := ← content.get "include_vars"
    taskOrder := ← content.getD "task_order" (.list [])
    sections := setup.sections }
  | _ => return { setup with name }

def extendSection (setup : Setup) (name : String) (content : Data) : Outcome Setup :=
  match content with
  | .list items =>
    if name == "play" then .ok setup
    else items.foldlM (fun setup item =>
      match item with
      | .map entries =>
        entries.foldlM (fun setup (name, content) => extendSetup setup name content) setup
      | _ => return setup) setup
  | _ => .ok setup

def setup (block : Data) : Outcome Setup :=
  match block with
  | .list items => items.foldlM (fun setup item =>
    match item with
    | .map entries =>
      entries.foldlM (fun setup (name, content) => extendSection setup name content) setup
    | _ => return setup) { sections := block }
  | block => .ok { sections := .list [block] }

def containerFields : List String := [
  "image", "ports", "environment", "replicas", "type", "command", "args", "working_dir",
  "readiness_probe", "liveness_probe", "startup_probe", "resources", "volume_mounts",
  "empty_dir_volumes", "host_path_volumes", "service", "auto_scaling", "node_selector",
  "init_containers", "pod_disruption_budget", "pod_anti_affinity",
    "persistent_volume_claims", "data"]

/-- The ports of a container, or those of its service if it lists any. -/
def containerPorts (content : Data) : Outcome Data := do
  let own ← content.getD "ports" (.list [])
  let config : Data := match content.field "service" with
    | .map entries => .map entries
    | .list (.map entries :: _) => .map entries
    | _ => .map []
  let ports ← config.getD "ports" (.list [])
  return if ports.holds then ports else own

def container (name : String) (content : Data) : Outcome Container := do
  let data ← content.get "data"
  if data.holds then
    return {
      name, ports := .list [], kind := .str "ConfigMap", attributes := [("data", data)] }
  if !(← content.has "image") then .error (.imageMissing name)
  let read := content.field
  return {
    name
    image := ← content.item "image"
    ports := ← containerPorts content
    environment := ← content.getD "environment" (.map [])
    replicas := ← content.getD "replicas" (.int 1)
    kind := ← content.getD "type" (.str "Deployment")
    command := read "command"
    args := read "args"
    workingDir := read "working_dir"
    readinessProbe := read "readiness_probe"
    livenessProbe := read "liveness_probe"
    startupProbe := read "startup_probe"
    resources := read "resources"
    volumeMounts := read "volume_mounts"
    emptyDirVolumes := read "empty_dir_volumes"
    hostPathVolumes := read "host_path_volumes"
    service := read "service"
    autoScaling := read "auto_scaling"
    nodeSelector := read "node_selector"
    initContainers := read "init_containers"
    disruptionBudget := read "pod_disruption_budget"
    podAntiAffinity := read "pod_anti_affinity"
    volumeClaims := read "persistent_volume_claims"
    attributes := (← content.entries).filter fun e => !containerFields.contains e.1 }

def containersNamed (configs : Data) : Outcome (List Container) :=
  match configs with
  | .list items => do
    return (← items.mapM fun
      | .map entries => entries.mapM fun (name, content) => container name content
      | _ => pure []).flatten
  | .map entries => entries.mapM fun (name, content) => container name content
  | _ => .ok []

def containersIn (entries : Assoc Data) : Outcome (List Container) := do
  return (← entries.mapM fun (_, configs) => containersNamed configs).flatten

def containerBlock (block : Data) : Outcome (List Container) :=
  match block with
  | .map entries => containersIn entries
  | .list items => do
    return (← items.mapM fun
      | .map entries => containersIn entries
      | _ => pure []).flatten
  | _ => .ok []

def containers (block : Data) : Outcome (List Container) :=
  match block with
  | .list items => do return (← items.mapM containerBlock).flatten
  | block => containerBlock block

def deployment (d : Data) : Data :=
  if d.holds then
    match d with
    | .list (.map entries :: _) => .map entries
    | .map entries => .map entries
    | _ => .map []
  else d

def service (fallback : Data) (name : String) (content : Data) : Outcome Service := do
  let provider ← content.getD "provider" fallback
  let read := content.field
  let infrastructure ← match read "infrastructure" with
    | .list items => infrastructureItems fallback items
    | block => infrastructure fallback block
  let setup ← if (read "configuration").holds then some <$> setup (read "configuration")
    else pure none
  let containers ← if (read "containers").holds then containers (read "containers") else pure []
  let deployment := deployment (← content.getD "deployment" (.map []))
  return {
    name, provider, infrastructure, setup, containers
    backend := read "backend"
    workspace := read "workspace"
    deploymentOrder := ← content.getD "deployment_order" (.list [])
    dependencies := ← content.getD "dependencies" (.list [])
    deployment := if deployment.isMap then deployment else .null }

def mappingsOf (s : Service) : Outcome Data :=
  match s.deployment with
  | .map (entry :: entries) => (Data.map (entry :: entries)).item "mappings"
  | _ => .ok .null

def serviceEntries (fallback : Data) : Assoc Data → Outcome (List (Service × Data))
  | [] => .ok []
  | (name, content) :: rest => do
    let s ← service fallback name content
    let mappings ← mappingsOf s
    return (s, mappings) :: (← serviceEntries fallback rest)

/-- The landscape of a tree; without a service there are no mappings to speak of. -/
def ofTree (tree : Data) : Outcome Landscape := do
  let providers ← if ← tree.has "providers" then providersOf (← tree.item "providers") else pure []
  let fallback := match providers with
    | [(label, _)] => Data.str label
    | _ => .null
  let blocks := match ← tree.getD "service" (.list []) with
    | .list items => items
    | block => [block]
  let found ← blocks.mapM fun
    | .map entries => serviceEntries fallback entries
    | _ => pure []
  let found := found.flatten
  match found.getLast? with
  | some (_, mappings) => return ⟨found.map Prod.fst, providers, mappings⟩
  | none => .error (.unbound "mappings")

end Landscape

end Stratus
