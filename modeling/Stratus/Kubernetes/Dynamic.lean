import Stratus.Data.Access

/-! Resources of kinds without a form of their own: their fields in camel case over defaults. -/
namespace Stratus.Kubernetes

def camelCase (s : String) : String :=
  match Text.split s "_" with
  | first :: rest => first ++ String.join (rest.map Text.title)
  | [] => ""

mutual

def camelKeys : Data → Data
  | .map entries => .map (Assoc.ofPairs (camelEntries entries))
  | .list items => .list (camelItems items)
  | d => d

def camelItems : List Data → List Data
  | [] => []
  | d :: rest => camelKeys d :: camelItems rest

def camelEntries : List (String × Data) → List (String × Data)
  | [] => []
  | (k, d) :: rest => (camelCase k, camelKeys d) :: camelEntries rest

end

def isHandled (key : String) : Bool := key == "name" || key == "namespace" || key == "type"

mutual

/-- A map without the handled keys and in camel case, as are the maps inside it; lists are entered
one level. -/
def specEntries : List (String × Data) → List (String × Data)
  | [] => []
  | (k, d) :: rest =>
    if isHandled k then specEntries rest else (camelCase k, specValue d) :: specEntries rest

def specValue : Data → Data
  | .map entries => .map (Assoc.ofPairs (specEntries entries))
  | .list items => .list (specItems items)
  | d => d

def specItems : List Data → List Data
  | [] => []
  | .map entries :: rest => .map (Assoc.ofPairs (specEntries entries)) :: specItems rest
  | d :: rest => d :: specItems rest

end

def spec (d : Data) : Outcome (Assoc Data) := do return Assoc.ofPairs (specEntries (← d.entries))

structure Defaults where
  apiVersion : Data := .str "apps/v1"
  spec : Data := .map []
  metadata : Data := .map []

abbrev DefaultsTable := Assoc Defaults

def spread (d : Data) : Outcome (Assoc Data) :=
  match d with
  | .map entries => .ok entries
  | d => .error (.badArguments s!"'{d.kind}' object is not a mapping")

def dynamicResource (table : DefaultsTable) (kind d : Data) : Outcome Data := do
  let defaults := ((← kind.asKey?).bind (Assoc.get? table)).getD {}
  let name := Text.replace (← (← d.getD "name" (.str "")).strFor "replace") "_" "-"
  let scope ← d.get "namespace"
  let scope := if scope.holds then scope else .str "default"
  let metadata := Assoc.update [("name", Data.str name), ("namespace", scope)]
    (← spread defaults.metadata)
  let base ← spread defaults.spec
  return .map [
    ("apiVersion", defaults.apiVersion), ("kind", kind), ("metadata", .map metadata),
    ("spec", .map (Assoc.update base (← spec d)))]

def nested : Data → List String → Option Data
  | d, [] => some d
  | .map entries, part :: rest =>
    match Assoc.get? entries part with
    | some d => nested d rest
    | none => none
  | _, _ :: _ => none

/-- Walks down a path, making maps where there is nothing, and changes what is at its end. -/
def alongPath (change : Data → Outcome Data) : List String → Data → Outcome Data
  | [], d => change d
  | part :: rest, d => do
    let d ← if ← d.has part then pure d else d.put part (.map [])
    d.put part (← alongPath change rest (← d.item part))

def applyTransform (target : Data) (path : List String) (transform : Data → Outcome Data)
    (source : Data) :
    Outcome Data :=
  match path.getLast? with
  | none => match nested source path with
    | some .null | none => .ok target
    | some value => do
      discard <| transform value
      .error (.indexOutOfRange "list")
  | some last =>
    alongPath (fun d =>
      match nested source path with
      | some .null | none => .ok d
      | some value => do d.put last (← transform value)) path.dropLast target

end Stratus.Kubernetes
