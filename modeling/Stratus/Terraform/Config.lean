import Stratus.Data.Access
import Stratus.Json.Writer

/-! A Terraform configuration under construction and its JSON text. -/
namespace Stratus.Terraform

abbrev Blocks := Assoc (Assoc Data)

structure Config where
  requiredProviders : Assoc Data := []
  providers : Assoc Data := []
  resources : Blocks := []
  dataSources : Blocks := []
  modules : Assoc Data := []
  vars : Assoc Data := []
  outputs : Assoc Data := []
  locals : Assoc Data := []
  backend : Data := .null
  workspace : Data := .null

namespace Blocks

def data (b : Blocks) : Data := .map (Assoc.mapValues Data.map b)

def add (b : Blocks) (type name : String) (block : Data) : Blocks :=
  Assoc.set b type (Assoc.set (Assoc.getD b type []) name block)

def get? (b : Blocks) (type name : String) : Option Data :=
  (Assoc.get? b type).bind (Assoc.get? · name)

end Blocks

namespace Config

def record (c : Config) : Data :=
  .map <| [
    ("required_providers", .map c.requiredProviders), ("providers", .map c.providers),
    ("resources", Blocks.data c.resources), ("data_sources", Blocks.data c.dataSources),
    ("modules", .map c.modules), ("variables", .map c.vars), ("outputs", .map c.outputs),
    ("locals", .map c.locals), ("backend", c.backend), ("workspace", c.workspace)].filter (·.2.holds)

def outputEntry (d : Data) : Outcome Data := do
  return .map [("value", ← d.item "value"), ("description", ← d.getD "description" (.str ""))]

def sections (c : Config) : Outcome Data := do
  let workspaces : Data := .map [("name", c.workspace)]
  let head := [("required_providers", Data.map c.requiredProviders)] ++
    (if c.backend.holds then [("backend", c.backend)] else []) ++
    (if c.workspace.holds then [("workspaces", workspaces)] else [])
  let outputs ← c.outputs.mapM fun (k, d) => do return (k, ← outputEntry d)
  let rest : Assoc Data := [
    ("provider", .map c.providers), ("variable", .map c.vars), ("locals", .map c.locals),
    ("resource", Blocks.data c.resources), ("data", Blocks.data c.dataSources),
    ("module", .map c.modules), ("output", .map outputs)]
  return .map (("terraform", .map head) :: rest.filter (·.2.holds))

def text (c : Config) : Outcome String := do return Json.write .indented (← c.sections)

end Config

end Stratus.Terraform
