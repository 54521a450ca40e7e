import Stratus.Data.Shown
import Stratus.Source.Token

/-!
Syntax trees of the description language. Every part that the language calls a block is a tree of
its own, so that trees built by hand may put anything there.
-/
namespace Stratus

/-- A type as written behind a colon: a name, or a union of members when there are any. -/
structure TypeRef where
  name : String
  nullable : Bool := false
  members : List TypeRef := []
deriving Inhabited

structure Param where
  name : String
  type : TypeRef
deriving Inhabited

inductive Node where
  | keyValue (key : String) (value : Node)
  | block (statements : List Node)
  | typed (label : Option String) (typeName : String) (body : Node)
  | ternary (condition yes no : Node)
  | resource (kind name : String) (body : Node) (typeInstance : Data)
  | forLoop (iterator : String) (iterable body : Node)
  | conditional (condition yes : Node) (no : Option Node)
  | switch (value : Node) (cases : List (Node × Node)) (otherwise : Option Node)
  | function (name : String) (params : List Param) (result : Option TypeRef) (body : Node)
  | assignment (name : String) (value : Node)
  | expression (left : Node) (operator : Option Token) (right : Option Node)
  | returns (value : Node)
  | range (callee : String) (arguments : List Node)
  | literal (value : Data)
  | identifier (name : String)
  | call (callee : Node) (arguments : List Node)
  | access (owner : Node) (member : String)
  | list (elements : List Node)
  | object (attributes : List (String × Node))
  | named (name : String) (label : Option String) (body : Node)
  /-- The definition of a type; a silent one leaves no trace in printed text. -/
  | typeDef (silent : Bool) (name : String) (fields : List (String × TypeRef × Option Node))
      (base : Option String)
  | applied (head body : Node)
  | raw (name : String) (label : Option String) (content : String)
  | mapsTo (source target : Node)
deriving Inhabited

namespace Node

def form : Node → String
  | keyValue .. => "KeyValueNode"
  | block _ => "BlockNode"
  | typed .. => "TypeInstanceNode"
  | ternary .. => "TernaryExpressionNode"
  | resource .. => "ResourceNode"
  | forLoop .. => "ForLoopNode"
  | conditional .. => "IfNode"
  | switch .. => "SwitchNode"
  | function .. => "FunctionNode"
  | assignment .. => "VariableAssignmentNode"
  | expression .. => "ExpressionNode"
  | returns _ => "ReturnNode"
  | range .. => "RangeNode"
  | literal _ => "LiteralNode"
  | identifier _ => "IdentifierNode"
  | call .. => "FunctionCallNode"
  | access .. => "AttributeAccessNode"
  | list _ => "ListNode"
  | object _ => "ObjectNode"
  | named .. => "NamedBlockNode"
  | typeDef .. => "TypeDefNode"
  | applied .. => "BlockExpressionNode"
  | raw .. => "RawBlockNode"
  | mapsTo .. => "MapsToNode"

def formPath (node : Node) : String :=
  let home := match node with
    | typeDef true .. => "type_system"
    | _ => "ast_nodes"
  "<class 'transpiler." ++ home ++ "." ++ node.form ++ "'>"

def isKeyValue : Node → Bool
  | keyValue .. => true
  | _ => false

def isAtom : Node → Bool
  | literal _ | identifier _ => true
  | _ => false

end Node

/-- How records are written, and what stands in their fields. -/
structure Format (α : Type) where
  record (form : String) (fields : List (String × α)) : α
  sequence : List α → α
  entries : List (String × α) → α
  pair : α → α → α
  none : α
  text : String → α
  data : Data → α
  token : Token → α
  type : TypeRef → α
  param : Param → α
  field (name : String) (type : TypeRef) (initial : α) : α

def Format.text? {α : Type} (k : Format α) (text : Option String) : α :=
  (text.map k.text).getD k.none

namespace Node

variable {α : Type} (k : Format α)

mutual

def write : Node → α
  | keyValue key value => k.record "KeyValueNode" [("key", k.text key), ("value", write value)]
  | block statements => k.record "BlockNode" [("statements", k.sequence (writeAll statements))]
  | typed label typeName body =>
    k.record "TypeInstanceNode" [
      ("label", k.text? label), ("type_name", k.text typeName), ("block", write body)]
  | ternary condition yes no =>
    k.record "TernaryExpressionNode" [
      ("condition", write condition), ("true_expr", write yes), ("false_expr", write no)]
  | resource kind name body typeInstance =>
    k.record "ResourceNode" [
      ("type", k.text kind), ("name", k.text name), ("block", write body),
      ("type_instance", k.data typeInstance)]
  | forLoop iterator iterable body =>
    k.record "ForLoopNode" [
      ("iterator", k.text iterator), ("iterable", write iterable), ("body", write body)]
  | conditional condition yes no =>
    k.record "IfNode" [
      ("condition", write condition), ("then_block", write yes), ("else_block", write? no)]
  | switch value cases otherwise =>
    k.record "SwitchNode" [
      ("value", write value), ("cases", k.sequence (writeCases cases)),
      ("default", write? otherwise)]
  | function name params result body =>
    k.record "FunctionNode" [
      ("name", k.text name), ("params", k.sequence (params.map k.param)),
      ("return_type", (result.map k.type).getD k.none), ("body", write body)]
  | assignment name value =>
    k.record "VariableAssignmentNode" [("name", k.text name), ("value", write value)]
  | expression left operator right =>
    k.record "ExpressionNode" [
      ("left", write left), ("operator", (operator.map k.token).getD k.none),
      ("right", write? right)]
  | returns value => k.record "ReturnNode" [("value", write value)]
  | range callee arguments =>
    k.record "RangeNode" [("function_name", k.text callee),
      ("arguments", k.sequence (writeAll arguments))]
  | literal value => k.record "LiteralNode" [("value", k.data value)]
  | identifier name => k.record "IdentifierNode" [("name", k.text name)]
  | call callee arguments =>
    k.record "FunctionCallNode" [("function", write callee),
      ("arguments", k.sequence (writeAll arguments))]
  | access owner member =>
    k.record "AttributeAccessNode" [("object", write owner), ("attribute", k.text member)]
  | list elements => k.record "ListNode" [("elements", k.sequence (writeAll elements))]
  | object attributes => k.record "ObjectNode" [("attributes", k.entries (writeEntries attributes))]
  | named name label body =>
    k.record "NamedBlockNode" [("name", k.text name), ("label", k.text? label),
      ("block", write body)]
  | typeDef _ name fields base =>
    k.record "TypeDefNode" [
      ("name", k.text name), ("fields", k.sequence (writeFields fields)),
      ("base_type", k.text? base)]
  | applied head body =>
    k.record "BlockExpressionNode" [("expression", write head), ("block", write body)]
  | raw name label content =>
    k.record "RawBlockNode" [("name", k.text name), ("label", k.text? label),
      ("content", k.text content)]
  | mapsTo source target =>
    k.record "MapsToNode" [("source", write source), ("target", write target)]

def write? : Option Node → α
  | some n => write n
  | none => k.none

def writeAll : List Node → List α
  | [] => []
  | n :: rest => write n :: writeAll rest

def writeEntries : List (String × Node) → List (String × α)
  | [] => []
  | (key, n) :: rest => (key, write n) :: writeEntries rest

def writeCases : List (Node × Node) → List α
  | [] => []
  | (value, body) :: rest => k.pair (write value) (write body) :: writeCases rest

def writeFields : List (String × TypeRef × Option Node) → List α
  | [] => []
  | (name, type, initial) :: rest => k.field name type (write? initial) :: writeFields rest

end

end Node

namespace Shown

def record (form : String) (fields : List (String × String)) : String :=
  form ++ "(" ++ Text.commas (fields.map fun f => f.1 ++ "=" ++ f.2) ++ ")"

def sequence (items : List String) : String := "[" ++ Text.commas items ++ "]"

def token (t : Token) : String :=
  record "Token" [
    ("type", "<" ++ t.kind.label ++ ": " ++ Text.shown t.kind.spelling ++ ">"),
    ("value", Text.shown t.text), ("line", toString t.line), ("column", toString t.column)]

mutual

def type : TypeRef → String
  | ⟨name, nullable, members⟩ =>
    let union := if members.isEmpty then "None" else sequence (types members)
    record "CustomType" [
      ("name", Text.shown name), ("constraints", "None"), ("union_types", union),
      ("is_nullable", (Data.bool nullable).shown)]

def types : List TypeRef → List String
  | [] => []
  | t :: rest => type t :: types rest

end

def format : Format String where
  record := record
  sequence := sequence
  entries es := "\x7b" ++ Text.commas (es.map fun e => Text.shown e.1 ++ ": " ++ e.2) ++ "\x7d"
  pair a b := "(" ++ a ++ ", " ++ b ++ ")"
  none := "None"
  text := Text.shown
  data := Data.shown
  token := token
  type := type
  param p := record "Variable" [("name", Text.shown p.name), ("type", type p.type),
    ("value", "None")]
  field name t initial :=
    record "ASTFieldDefinition" [("name", Text.shown name), ("type", type t),
      ("default_value", initial)]

end Shown

namespace Node

def shown (node : Node) : String := node.write Shown.format

mutual

def height : Node → Nat
  | keyValue _ value => height value + 1
  | block statements => heightAll statements + 1
  | typed _ _ body => height body + 1
  | ternary condition yes no => max (height condition) (max (height yes) (height no)) + 1
  | resource _ _ body _ => height body + 1
  | forLoop _ iterable body => max (height iterable) (height body) + 1
  | conditional condition yes no => max (height condition) (max (height yes) (height? no)) + 1
  | switch value cases otherwise =>
    max (height value) (max (heightCases cases) (height? otherwise)) + 1
  | function _ _ _ body => height body + 1
  | assignment _ value => height value + 1
  | expression left _ right => max (height left) (height? right) + 1
  | returns value => height value + 1
  | range _ arguments => heightAll arguments + 1
  | literal _ => 0
  | identifier _ => 0
  | call callee arguments => max (height callee) (heightAll arguments) + 1
  | access owner _ => height owner + 1
  | list elements => heightAll elements + 1
  | object attributes => heightEntries attributes + 1
  | named _ _ body => height body + 1
  | typeDef _ _ fields _ => heightFields fields + 1
  | applied head body => max (height head) (height body) + 1
  | raw .. => 0
  | mapsTo source target => max (height source) (height target) + 1

def height? : Option Node → Nat
  | some n => height n
  | none => 0

def heightAll : List Node → Nat
  | [] => 0
  | n :: rest => max (height n) (heightAll rest)

def heightEntries : List (String × Node) → Nat
  | [] => 0
  | (_, n) :: rest => max (height n) (heightEntries rest)

def heightCases : List (Node × Node) → Nat
  | [] => 0
  | (value, body) :: rest => max (max (height value) (height body)) (heightCases rest)

def heightFields : List (String × TypeRef × Option Node) → Nat
  | [] => 0
  | (_, _, initial) :: rest => max (height? initial) (heightFields rest)

end

end Node

end Stratus
