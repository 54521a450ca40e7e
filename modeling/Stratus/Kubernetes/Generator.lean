import Stratus.Kubernetes.Dynamic
import Stratus.Service.Basic

/-! Kubernetes resources of containers. -/
namespace Stratus.Kubernetes

def dashed (s : String) : String := Text.replace s "_" "-"

def scopeOf (c : Container) : Data := if c.scope.holds then c.scope else .str "default"

def resource (apiVersion : String) (kind : Data) (name : Data) (scope : Data)
    (rest : List (String × Data)) :
    Data :=
  .map ([
    ("apiVersion", .str apiVersion), ("kind", kind),
    ("metadata", .map [("name", name), ("namespace", scope)])] ++ rest)

def specified (c : Container) (apiVersion kind name : String) (spec : Data) : Data :=
  resource apiVersion (.str kind) (.str name) (scopeOf c) [("spec", spec)]

def appLabel (name : String) : Data := .map [("app", .str name)]

def selector (name : String) : Data := .map [("matchLabels", appLabel name)]

def template (name : String) (pod : Data) : Data :=
  .map [("metadata", .map [("labels", appLabel name)]), ("spec", pod)]

def probe (d : Data) : Outcome Data := do
  let action ← if ← d.has "http_get" then do
      let get ← d.item "http_get"
      pure [("httpGet", Data.map [("path", ← get.item "path"), ("port", ← get.item "port")])]
    else if ← d.has "tcp_socket" then do
      let socket ← d.item "tcp_socket"
      pure [("tcpSocket", Data.map [("port", ← socket.item "port")])]
    else pure []
  let rest := (← d.entries).filter fun e => e.1 != "http_get" && e.1 != "tcp_socket"
  return .map (Assoc.update action (rest.map fun (k, v) => (camelCase k, v)))

def containerPorts (ports : Data) : Outcome Data := do
  .list <$> (← ports.elements).mapM fun port => do
    return .map [("containerPort", ← port.item "container_port")]

def emptyDir (volume : Data) : Outcome Data := do
  let name ← volume.item "name"
  let size ← if ← volume.has "size_limit" then do
      pure [("sizeLimit", ← volume.item "size_limit")]
    else pure []
  return .map [("name", name), ("emptyDir", .map size)]

def hostPath (volume : Data) : Outcome Data := do
  let name ← volume.item "name"
  let path ← volume.item "path"
  return .map [("name", name), ("hostPath", .map [("path", path), ("type", ← volume.get "type")])]

def filled (name : String) (d : Data) : List (String × Data) := if d.holds then [(name, d)] else []

def filledBy (name : String) (d : Data) (f : Data → Outcome Data) : Outcome (List (String × Data)) :=
  if d.holds then do return [(name, ← f d)] else .ok []

def volumesBy (d : Data) (f : Data → Outcome Data) : Outcome (List Data) :=
  if d.holds then do (← d.elements).mapM f else .ok []

def podSpec (c : Container) : Outcome (Assoc Data) := do
  let ports ← filledBy "ports" c.ports containerPorts
  let readiness ← filledBy "readinessProbe" c.readinessProbe probe
  let liveness ← filledBy "livenessProbe" c.livenessProbe probe
  let startup ← filledBy "startupProbe" c.startupProbe probe
  let container : Data := .map ([("name", .str (dashed c.name)), ("image", c.image)] ++
    filled "command" c.command ++ filled "args" c.args ++ filled "workingDir" c.workingDir ++
    ports ++ readiness ++ liveness ++ startup ++
    filled "resources" c.resources ++ filled "volumeMounts" c.volumeMounts)
  let empty ← volumesBy c.emptyDirVolumes emptyDir
  let host ← volumesBy c.hostPathVolumes hostPath
  let affinity := if c.podAntiAffinity.holds
    then [("affinity", Data.map [("podAntiAffinity", c.podAntiAffinity)])] else []
  return [("containers", .list [container])] ++ filled "initContainers" c.initContainers ++
    filled "nodeSelector" c.nodeSelector ++ affinity ++ filled "volumes" (.list (empty ++ host))

def pod (c : Container) : Outcome Data := .map <$> podSpec c

def deployment (c : Container) : Outcome Data := do
  let name := dashed c.name
  return specified c "apps/v1" "Deployment" name <| .map [
    ("replicas", c.replicas), ("selector", selector name), ("template", template name (← pod c))]

def statefulSet (c : Container) : Outcome Data := do
  let name := dashed c.name
  return specified c "apps/v1" "StatefulSet" name <| .map ([
    ("serviceName", .str name), ("replicas", c.replicas), ("selector", selector name),
    ("template", template name (← pod c))] ++ filled "volumeClaimTemplates" c.volumeClaims)

def daemonSet (c : Container) : Outcome Data := do
  let name := dashed c.name
  return specified c "apps/v1" "DaemonSet" name <| .map [
    ("selector", selector name), ("template", template name (← pod c))]

def cronJob (c : Container) : Outcome Data := do
  let name := dashed c.name
  let pod := Assoc.set (← podSpec c) "restartPolicy"
    (Assoc.getD c.attributes "restartPolicy" (.str "OnFailure"))
  return specified c "batch/v1" "CronJob" name <| .map [
    ("schedule", Assoc.getD c.attributes "schedule" (.str "* * * * *")),
    ("jobTemplate", .map [("spec", .map [("template", template name (.map pod))])])]

def job (c : Container) : Outcome Data := do
  let name := dashed c.name
  let pod ← pod c
  let read (key : String) (n : Int) := Assoc.getD c.attributes key (.int n)
  return specified c "batch/v1" "Job" name <| .map [
    ("template", template name pod), ("backoffLimit", read "backoff_limit" 6),
    ("completions", read "completions" 1), ("parallelism", read "parallelism" 1)]

def volumeClaim (claim : Data) : Outcome Data := do
  let name ← claim.item "name"
  let modes ← claim.item "access_modes"
  let storageClass ← claim.getD "storage_class" (.str "standard")
  let storage ← claim.item "storage"
  return .map [
    ("metadata", .map [("name", name)]),
    ("spec", .map [
      ("accessModes", modes), ("storageClassName", storageClass),
      ("resources", .map [("requests", .map [("storage", storage)])])])]

def workload (c : Container) : Outcome Data := do
  let name := dashed c.name
  let pod ← pod c
  let claims ← if c.kind.same (.str "StatefulSet") && c.volumeClaims.holds then do
      let claims ← (← c.volumeClaims.elements).mapM volumeClaim
      pure [("volumeClaimTemplates", Data.list claims)]
    else pure []
  return resource "apps/v1" c.kind (.str name) (.str "default") [("spec", .map ([
    ("replicas", c.replicas), ("selector", selector name),
    ("template", template name pod)] ++ claims))]

def single (d : Data) : Outcome Data :=
  match d with
  | .list _ => d.first
  | d => .ok d

def servicePort (port : Data) : Outcome Data := do
  let target ← port.get "container_port"
  return .map [
    ("port", ← port.getD "service_port" target), ("targetPort", target),
    ("protocol", ← port.getD "protocol" (.str "TCP"))]

def service (c : Container) : Outcome Data := do
  let name := dashed c.name
  let head (rest : List (String × Data)) :=
    Data.map ([("name", .str name), ("namespace", scopeOf c)] ++ rest)
  let resource (metadata : Data) (rest : List (String × Data)) :=
    Data.map ([("apiVersion", .str "v1"), ("kind", .str "Service"), ("metadata", metadata)] ++ rest)
  if !c.service.holds then return resource (head []) []
  let config ← single c.service
  let annotations ← if ← config.has "annotations" then do
      pure [("annotations", ← config.item "annotations")]
    else pure []
  let ports ← if c.ports.holds then do (← c.ports.elements).mapM servicePort else pure []
  let type ← config.getD "type" (.str "ClusterIP")
  return resource (head annotations) [("spec", .map [
    ("selector", appLabel name), ("ports", .list ports), ("type", type)])]

def ingress (c : Container) : Data :=
  specified c "networking.k8s.io/v1" "Ingress" (dashed c.name ++ "-ingress") c.ingress

def networkPolicy (c : Container) (policy : Data) : Data :=
  specified c "networking.k8s.io/v1" "NetworkPolicy" (c.name ++ "-network-policy") policy

def podAutoscaler (c : Container) : Outcome Data := do
  let name := dashed c.name
  let config ← single c.autoScaling
  let least ← config.getD "min_replicas" (.int 1)
  let most ← config.getD "max_replicas" (.int 10)
  let load ← config.getD "target_cpu_utilization_percentage" (.int 80)
  return specified c "autoscaling/v2" "HorizontalPodAutoscaler" (name ++ "-hpa") <| .map [
    ("scaleTargetRef", .map [("apiVersion", .str "apps/v1"), ("kind", c.kind), ("name", .str name)]),
    ("minReplicas", least), ("maxReplicas", most),
    ("metrics", .list [.map [
      ("type", .str "Resource"),
      ("resource", .map [
        ("name", .str "cpu"),
        ("target", .map [("type", .str "Utilization"), ("averageUtilization", load)])])]])]

def verticalAutoscaler (c : Container) : Data :=
  specified c "autoscaling.k8s.io/v1" "VerticalPodAutoscaler"
    (dashed c.name ++ "-vpa") c.verticalScaling

def disruptionBudget (c : Container) : Outcome Data := do
  let name := dashed c.name
  let budget ← spread c.disruptionBudget
  return specified c "policy/v1" "PodDisruptionBudget" (name ++ "-pdb")
    (.map (Assoc.update [("selector", selector name)] budget))

def configMap (c : Container) : Data :=
  resource "v1" (.str "ConfigMap") (.str (dashed c.name)) (scopeOf c)
    [("data", Assoc.getD c.attributes "data" (.map []))]

def secret (d : Data) (c : Container) : Outcome Data := do
  let name ← d.item "name"
  return resource "v1" (.str "Secret") name (scopeOf c) [
    ("type", ← d.getD "type" (.str "Opaque")), ("data", ← d.getD "data" (.map [])),
    ("stringData", ← d.getD "string_data" (.map []))]

def serviceAccount (c : Container) : Data :=
  resource "v1" (.str "ServiceAccount") c.serviceAccount (scopeOf c) []

def scope (name : Data) : Data :=
  .map [("apiVersion", .str "v1"), ("kind", .str "Namespace"), ("metadata", .map [("name", name)])]

def otherKind (table : DefaultsTable) (c : Container) : Outcome Data := do
  let name := Data.str (dashed c.name)
  let container := Data.dropNulls [
    ("name", name), ("image", c.image), ("command", c.command), ("args", c.args),
    ("workingDir", c.workingDir), ("ports", ← containerPorts c.ports), ("resources", c.resources),
    ("volumeMounts", c.volumeMounts), ("readinessProbe", c.readinessProbe)]
  let pod := Assoc.set (← podSpec c) "containers" (.list [.map container])
  dynamicResource table c.kind <| .map [
    ("name", name), ("type", c.kind), ("replicas", c.replicas),
    ("template", template (dashed c.name) (.map pod)), ("namespace", scopeOf c)]

def incomplete (form argument : String) : Fault :=
  .badArguments s!"{form} missing 1 required positional argument: '{argument}'"

def primary (table : DefaultsTable) (c : Container) : Outcome Data := do
  match ← c.kind.asKey? with
  | some "Deployment" => deployment c
  | some "StatefulSet" => statefulSet c
  | some "CronJob" => cronJob c
  | some "DaemonSet" => daemonSet c
  | some "Job" => job c
  | some "Service" => service c
  | some "Ingress" => return ingress c
  | some "NetworkPolicy" => .error (incomplete "NetworkPolicy" "policy")
  | some "HorizontalPodAutoscaler" => podAutoscaler c
  | some "VerticalPodAutoscaler" => return verticalAutoscaler c
  | some "PodDisruptionBudget" => disruptionBudget c
  | some "ConfigMap" => return configMap c
  | some "Secret" => .error (incomplete "Secret" "container")
  | some "ServiceAccount" => return serviceAccount c
  | some "Namespace" => return scope c.record
  | _ => otherKind table c

def resourcesOf (table : DefaultsTable) (c : Container) : Outcome (List Data) := do
  let main ← primary table c
  let service ← if c.service.holds then (fun d => [d]) <$> service c else pure []
  let scaler ← if c.autoScaling.holds then (fun d => [d]) <$> podAutoscaler c else pure []
  let budget ← if c.disruptionBudget.holds then (fun d => [d]) <$> disruptionBudget c else pure []
  return main :: service ++ scaler ++ budget

def generate (table : DefaultsTable) (services : List Service) : Outcome (List Data) := do
  return (← services.mapM fun s => do
    return (← s.containers.mapM (resourcesOf table)).flatten).flatten

end Stratus.Kubernetes
