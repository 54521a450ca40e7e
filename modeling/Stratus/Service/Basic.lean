import Stratus.Source.Record

/-!
Services: infrastructure components, a configuration of their machines and containers. Fields whose
contents a description leaves open are plain data.
-/
namespace Stratus

structure Component where
  name : String
  kind : Data := .null
  attributes : Assoc Data := []
  provider : Data := .null
  resourceType : Data := .null
  count : Data := .null
  forEach : Data := .null
  dependsOn : Data := .list []
  lifecycle : Data := .null
  provisioners : Data := .null
  packageManager : Data := .null
  dataSource : Data := .bool false
  module : Data := .bool false
deriving Inhabited

/-- A container or another resource of a cluster. -/
structure Container where
  name : String
  image : Data := .null
  ports : Data := .null
  environment : Data := .map []
  replicas : Data := .int 1
  kind : Data := .str "Deployment"
  command : Data := .null
  args : Data := .null
  workingDir : Data := .null
  healthCheck : Data := .null
  readinessProbe : Data := .null
  livenessProbe : Data := .null
  startupProbe : Data := .null
  resources : Data := .null
  volumes : Data := .null
  volumeMounts : Data := .null
  emptyDirVolumes : Data := .null
  hostPathVolumes : Data := .null
  autoScaling : Data := .null
  scope : Data := .null
  service : Data := .null
  nodeSelector : Data := .null
  configMaps : Data := .null
  secrets : Data := .null
  volumeClaims : Data := .null
  ingress : Data := .null
  networkPolicies : Data := .null
  serviceAccount : Data := .null
  initContainers : Data := .null
  disruptionBudget : Data := .null
  podAntiAffinity : Data := .null
  podAffinity : Data := .null
  nodeAffinity : Data := .null
  customResources : Data := .null
  podSecurityPolicy : Data := .null
  verticalScaling : Data := .null
  attributes : Assoc Data := []
deriving Inhabited

structure Setup where
  name : String := ""
  packages : Data := .list []
  files : Data := .map []
  services : Data := .map []
  vars : Data := .map []
  tasks : Data := .list []
  commands : Data := .list []
  verifications : Data := .list []
  blocks : Data := .list []
  handlers : Data := .list []
  includeVars : Data := .null
  taskOrder : Data := .list []
  sections : Data := .list []
deriving Inhabited

structure Service where
  name : String
  deploymentOrder : Data := .list []
  backend : Data := .null
  workspace : Data := .null
  infrastructure : List Component := []
  setup : Option Setup := none
  containers : List Container := []
  dependencies : Data := .list []
  deployment : Data := .null
  provider : Data := .null
deriving Inhabited

namespace Component

def record (c : Component) : Data :=
  .map [
    ("name", .str c.name), ("component_type", c.kind), ("attributes", .map c.attributes),
    ("provider", c.provider), ("resource_type", c.resourceType), ("count", c.count),
    ("for_each", c.forEach), ("depends_on", c.dependsOn), ("lifecycle", c.lifecycle),
    ("provisioners", c.provisioners), ("package_manager", c.packageManager),
    ("data_source", c.dataSource), ("module", c.module)]

def ofRecord (d : Data) : Component :=
  let entries := (d.map?).getD []
  let read (name : String) (fallback : Data) := Assoc.getD entries name fallback
  {
    name := d.textField "name"
    kind := read "component_type" .null
    attributes := ((d.field "attributes").map?).getD []
    provider := read "provider" .null
    resourceType := read "resource_type" .null
    count := read "count" .null
    forEach := read "for_each" .null
    dependsOn := read "depends_on" (.list [])
    lifecycle := read "lifecycle" .null
    provisioners := read "provisioners" .null
    packageManager := read "package_manager" .null
    dataSource := read "data_source" (.bool false)
    module := read "module" (.bool false) }

end Component

namespace Container

def record (c : Container) : Data :=
  .map [
    ("name", .str c.name), ("image", c.image), ("ports", c.ports), ("environment", c.environment),
    ("replicas", c.replicas), ("type", c.kind), ("command", c.command), ("args", c.args),
    ("working_dir", c.workingDir), ("health_check", c.healthCheck),
    ("readiness_probe", c.readinessProbe), ("liveness_probe", c.livenessProbe),
    ("startup_probe", c.startupProbe), ("resources", c.resources), ("volumes", c.volumes),
    ("volume_mounts", c.volumeMounts), ("empty_dir_volumes", c.emptyDirVolumes),
    ("host_path_volumes", c.hostPathVolumes), ("auto_scaling", c.autoScaling),
    ("namespace", c.scope), ("service", c.service), ("node_selector", c.nodeSelector),
    ("config_maps", c.configMaps), ("secrets", c.secrets),
    ("persistent_volume_claims", c.volumeClaims), ("ingress", c.ingress),
    ("network_policies", c.networkPolicies), ("service_account", c.serviceAccount),
    ("init_containers", c.initContainers), ("pod_disruption_budget", c.disruptionBudget),
    ("pod_anti_affinity", c.podAntiAffinity), ("pod_affinity", c.podAffinity),
    ("node_affinity", c.nodeAffinity), ("custom_resources", c.customResources),
    ("pod_security_policy", c.podSecurityPolicy),
    ("vertical_pod_autoscaling", c.verticalScaling), ("attributes", .map c.attributes)]

def ofRecord (d : Data) : Container :=
  let entries := (d.map?).getD []
  let read := d.field
  {
    name := d.textField "name"
    image := read "image"
    ports := read "ports"
    environment := Assoc.getD entries "environment" (.map [])
    replicas := Assoc.getD entries "replicas" (.int 1)
    kind := Assoc.getD entries "type" (.str "Deployment")
    command := read "command"
    args := read "args"
    workingDir := read "working_dir"
    healthCheck := read "health_check"
    readinessProbe := read "readiness_probe"
    livenessProbe := read "liveness_probe"
    startupProbe := read "startup_probe"
    resources := read "resources"
    volumes := read "volumes"
    volumeMounts := read "volume_mounts"
    emptyDirVolumes := read "empty_dir_volumes"
    hostPathVolumes := read "host_path_volumes"
    autoScaling := read "auto_scaling"
    scope := read "namespace"
    service := read "service"
    nodeSelector := read "node_selector"
    configMaps := read "config_maps"
    secrets := read "secrets"
    volumeClaims := read "persistent_volume_claims"
    ingress := read "ingress"
    networkPolicies := read "network_policies"
    serviceAccount := read "service_account"
    initContainers := read "init_containers"
    disruptionBudget := read "pod_disruption_budget"
    podAntiAffinity := read "pod_anti_affinity"
    podAffinity := read "pod_affinity"
    nodeAffinity := read "node_affinity"
    customResources := read "custom_resources"
    podSecurityPolicy := read "pod_security_policy"
    verticalScaling := read "vertical_pod_autoscaling"
    attributes := ((d.field "attributes").map?).getD [] }

end Container

namespace Setup

def record (s : Setup) : Data :=
  .map [
    ("name", .str s.name), ("packages", s.packages), ("files", s.files), ("services", s.services),
    ("variables", s.vars), ("tasks", s.tasks), ("commands", s.commands),
    ("verifications", s.verifications), ("blocks", s.blocks), ("handlers", s.handlers),
    ("include_vars", s.includeVars), ("task_order", s.taskOrder), ("configuration", s.sections)]

def ofRecord (d : Data) : Setup :=
  let entries := (d.map?).getD []
  let read (name : String) (fallback : Data) := Assoc.getD entries name fallback
  {
    name := d.textField "name"
    packages := read "packages" (.list [])
    files := read "files" (.map [])
    services := read "services" (.map [])
    vars := read "variables" (.map [])
    tasks := read "tasks" (.list [])
    commands := read "commands" (.list [])
    verifications := read "verifications" (.list [])
    blocks := read "blocks" (.list [])
    handlers := read "handlers" (.list [])
    includeVars := read "include_vars" .null
    taskOrder := read "task_order" (.list [])
    sections := if (d.field "configuration").holds then d.field "configuration" else .list [] }

end Setup

namespace Service

def record (s : Service) : Data :=
  .map [
    ("name", .str s.name), ("deployment_order", s.deploymentOrder), ("backend", s.backend),
    ("workspace", s.workspace), ("infrastructure", .list (s.infrastructure.map Component.record)),
    ("configuration", .ofOption (s.setup.map Setup.record)),
    ("containers", .list (s.containers.map Container.record)), ("dependencies", s.dependencies),
    ("deployment", s.deployment), ("provider", s.provider)]

def ofRecord (d : Data) : Service :=
  let entries := (d.map?).getD []
  {
    name := d.textField "name"
    deploymentOrder := Assoc.getD entries "deployment_order" (.list [])
    backend := d.field "backend"
    workspace := d.field "workspace"
    infrastructure := (d.itemsField "infrastructure").map .ofRecord
    setup := (d.field? "configuration").map .ofRecord
    containers := (d.itemsField "containers").map .ofRecord
    dependencies := Assoc.getD entries "dependencies" (.list [])
    deployment := d.field "deployment"
    provider := d.field "provider" }

end Service

end Stratus
