import Stratus.Diagnosis.Basic

/-!
Messages of the Kubernetes tools, explained by the container they are about.
-/
namespace Stratus.Diagnosis.Kubernetes

open Text Text.Piece

def workload? (message : String) : Option String :=
  (Pattern.search (grab (words ["Deployment", "StatefulSet", "DaemonSet"]) ++ text "/" :: grab solid)
    message).bind fun groups => groups.getLast?

def explain (terms : List String) (headline : String → String) (suggestion message : String) :
    Tracing (Option Diagnosis) := do
  if !containsAny (lower message) terms then return none
  let some name := workload? message | return none
  let some place ← Locator.find? ("container/" ++ name) | return none
  let location ← Locator.locate place
  return some {
    message := headline name
    place := some (.fixed ⟨location.line, location.column, "containers",
      .resource (some .container) (some name), []⟩)
    suggestion := some suggestion
    details := some ("Original error: " ++ message) }

def quota : String → Tracing (Option Diagnosis) :=
  explain ["resource quota", "exceeded", "limit"]
    (fun name => s!"Resource limits exceeded for container '{name}'")
    "Reduce the resource requests/limits in your container configuration"

def probe : String → Tracing (Option Diagnosis) :=
  explain ["probe"] (fun name => s!"Invalid probe configuration for container '{name}'")
    "Check the health check configuration in your container block"

def image : String → Tracing (Option Diagnosis) :=
  explain ["image", "pull"] (fun name => s!"Container image error for '{name}'")
    "Verify the image name and ensure it's accessible"

def container (message : String) : Tracing (Option Diagnosis) := do
  if !contains (lower message) "container configuration" then return none
  let some name := Pattern.first (text "container/" :: grab solid) message | return none
  let some place ← Locator.find? ("container/" ++ name) | return none
  let image := Assoc.getD (← Locator.locate place).metadata "image" .null
  if !image.holds then return none
  return some {
    message := s!"Invalid container configuration for '{name}'"
    place
    suggestion := some s!"Check image '{image.text}' and container settings"
    details := some message }

def ofMessage (message : String) : Tracing (Option Diagnosis) :=
  firstOf [quota message, probe message, image message]

end Stratus.Diagnosis.Kubernetes
