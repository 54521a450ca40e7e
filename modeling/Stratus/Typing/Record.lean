import Stratus.Source.Parser
import Stratus.Source.Record

/-! Fields and types as records, and fields from records. -/
namespace Stratus

namespace Initial

def record : Initial → Data
  | absent => .null
  | value d => d.tagged
  | computed node => .tag "ast" node.record

end Initial

namespace Constraint

def record (k : Constraint) : Data :=
  match k.admits with
  | .oneOf values => .list (values.map Data.tagged)
  | .declared type | .primitive type => type.record

def ofRecord (d : Data) : Constraint :=
  let type := TypeRef.ofRecord (d.field "type")
  {
    admits := match d.field "type" with
      | .list values => .oneOf values
      | _ => if (d.field "plain").holds then .primitive type else .declared type
    nullable := (d.field "constraint_nullable").holds }

end Constraint

namespace Field

def record (name : String) (f : Field) : Data :=
  .map [
    ("key", .str name), ("type", f.constraint.record), ("nullable", .bool f.constraint.nullable),
    ("default", f.initial.record), ("calc", .ofOption (f.calculated.map Node.record)),
    ("description", .ofText? f.description)]

def records (fields : Assoc Field) : Data := .list (fields.map fun (name, f) => record name f)

def expression? (d : Data) (name : String) : Outcome (Option Node) :=
  match d.field name with
  | .str source => do return some (← Parser.run (fun g => g.expression 0) source).1
  | _ => .ok none

def ofRecord (d : Data) : Outcome (String × Field) := do
  let initial := match ← expression? d "expr" with
    | some node => .computed node
    | none => match d.field "default" with
      | .null => .absent
      | value => .value value
  return (d.textField "name", {
    constraint := .ofRecord d
    initial
    calculated := ← expression? d "calc" })

end Field

namespace TypeDef

def record (t : TypeDef) : Data :=
  .map [("name", .str t.name), ("base", .ofText? t.base), ("fields", Field.records t.fields)]

def ofRecord (d : Data) : Outcome TypeDef := do
  let fields ← (d.itemsField "fields").mapM Field.ofRecord
  return { name := d.textField "name", base := (d.field "base").str?, fields := Assoc.ofPairs fields }

end TypeDef

end Stratus
