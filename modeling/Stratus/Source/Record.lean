import Stratus.Data.Tagged
import Stratus.Source.Node

/-! Trees and types as records of named fields, and back. -/
namespace Stratus

mutual

def TypeRef.record : TypeRef → Data
  | ⟨name, nullable, members⟩ => .map [
    ("name", .str name), ("nullable", .bool nullable),
    ("union", if members.isEmpty then .null else .list (TypeRef.records members))]

def TypeRef.records : List TypeRef → List Data
  | [] => []
  | t :: rest => TypeRef.record t :: TypeRef.records rest

end

namespace Param

def record (p : Param) : Data := .list [.str p.name, p.type.record]

end Param

def recordFormat : Format Data where
  record form fields := .map (("node", .str form) :: fields)
  sequence := .list
  entries es := .list (es.map fun e => .list [.str e.1, e.2])
  pair a b := .list [a, b]
  none := .null
  text := .str
  data := Data.tagged
  token t := .str t.text
  type := TypeRef.record
  param := Param.record
  field name t initial := .map [("name", .str name), ("type", t.record), ("default", initial)]

def Node.record (node : Node) : Data := node.write recordFormat

namespace Data

def field (d : Data) (name : String) : Data :=
  match d with
  | map entries => Assoc.getD entries name null
  | _ => null

def textField (d : Data) (name : String) : String := ((d.field name).str?).getD ""

def itemsField (d : Data) (name : String) : List Data := ((d.field name).list?).getD []

def field? (d : Data) (name : String) : Option Data :=
  match d.field name with
  | null => none
  | v => some v

end Data

namespace TypeRef

def ofRecordWithin : Nat → Data → TypeRef
  | 0, d => { name := d.textField "name" }
  | depth + 1, d => {
    name := d.textField "name"
    nullable := (d.field "nullable").holds
    members := (d.itemsField "union").map (ofRecordWithin depth) }

def ofRecord (d : Data) : TypeRef := ofRecordWithin d.depth d

end TypeRef

namespace Param

def ofRecord : Data → Param
  | .list [.str name, type] => ⟨name, .ofRecord type⟩
  | _ => default

end Param

def Token.ofOperator (text : String) : Token :=
  ⟨(TokenKind.operators.lookup text).getD .dot, text, 1, 1⟩

namespace Node

def fieldOfRecord (read : Data → Node) (d : Data) : String × TypeRef × Option Node :=
  (d.textField "name", .ofRecord (d.field "type"), (d.field? "default").map read)

def ofRecordWith (read : Data → Node) (d : Data) : Node :=
  let part (name : String) : Node := read (d.field name)
  let part? (name : String) : Option Node := (d.field? name).map read
  let parts (name : String) : List Node := (d.itemsField name).map read
  let text := d.textField
  let text? (name : String) : Option String := (d.field name).str?
  match text "node" with
  | "KeyValueNode" => keyValue (text "key") (part "value")
  | "BlockNode" => block (parts "statements")
  | "TypeInstanceNode" => typed (text? "label") (text "type_name") (part "block")
  | "TernaryExpressionNode" => ternary (part "condition") (part "true_expr") (part "false_expr")
  | "ResourceNode" => resource (text "type") (text "name") (part "block") (d.field "type_instance")
  | "ForLoopNode" => forLoop (text "iterator") (part "iterable") (part "body")
  | "IfNode" => conditional (part "condition") (part "then_block") (part? "else_block")
  | "SwitchNode" =>
    let cases := (d.itemsField "cases").filterMap fun
      | .list [value, body] => some (read value, read body)
      | _ => none
    switch (part "value") cases (part? "default")
  | "FunctionNode" =>
    function (text "name") ((d.itemsField "params").map .ofRecord) none (part "body")
  | "VariableAssignmentNode" => assignment (text "name") (part "value")
  | "ExpressionNode" =>
    expression (part "left") ((text? "operator").map .ofOperator) (part? "right")
  | "ReturnNode" => returns (part "value")
  | "RangeNode" => range (text "function_name") (parts "arguments")
  | "IdentifierNode" => identifier (text "name")
  | "FunctionCallNode" => call (part "function") (parts "arguments")
  | "AttributeAccessNode" => access (part "object") (text "attribute")
  | "ListNode" => list (parts "elements")
  | "ObjectNode" =>
    object <| Assoc.ofPairs <| (d.itemsField "attributes").filterMap fun
      | .list [.str key, value] => some (key, read value)
      | _ => none
  | "NamedBlockNode" => named (text "name") (text? "label") (part "block")
  | "TypeDefNode" =>
    typeDef (text "module" == "type_system") (text "name")
      ((d.itemsField "fields").map (fieldOfRecord read)) (text? "base_type")
  | "BlockExpressionNode" => applied (part "expression") (part "block")
  | "RawBlockNode" => raw (text "name") (text? "label") (text "content")
  | "MapsToNode" => mapsTo (part "source") (part "target")
  | _ => literal (d.field "value")

def ofRecordWithin : Nat → Data → Node
  | 0, _ => default
  | depth + 1, d => ofRecordWith (ofRecordWithin depth) d

def ofRecord (d : Data) : Node := ofRecordWithin d.depth d

end Node

end Stratus
