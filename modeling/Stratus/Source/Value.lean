import Stratus.Fault
import Stratus.Source.Node

/-! Trees that spell out a value, and the values of such trees. -/
namespace Stratus.Node

mutual

/-- The tree that spells a value; null has none. -/
def ofValue : Data → Outcome Node
  | .null => .error (.unsupportedValue "NoneType")
  | .list items => list <$> ofItems items
  | .map entries => object <$> ofEntries entries
  | d => .ok (literal d)

def ofItems : List Data → Outcome (List Node)
  | [] => .ok []
  | d :: rest => do return (← ofValue d) :: (← ofItems rest)

def ofEntries : List (String × Data) → Outcome (List (String × Node))
  | [] => .ok []
  | (k, d) :: rest => do return (k, ← ofValue d) :: (← ofEntries rest)

end

mutual

/-- The value that a tree spells; identifiers spell their names. -/
def toValue : Node → Outcome Data
  | literal value => .ok value
  | object attributes => .map <$> toEntries attributes
  | list elements => .list <$> toItems elements
  | identifier name => .ok (.str name)
  | node => .error (.notPlainValue node.formPath)

def toItems : List Node → Outcome (List Data)
  | [] => .ok []
  | n :: rest => do return (← toValue n) :: (← toItems rest)

def toEntries : List (String × Node) → Outcome (List (String × Data))
  | [] => .ok []
  | (k, n) :: rest => do return (k, ← toValue n) :: (← toEntries rest)

end

mutual

def blockOfEntries : List (String × Data) → List Node
  | [] => []
  | (k, d) :: rest => member k d :: blockOfEntries rest

def member (key : String) : Data → Node
  | .map entries => named key none (block (blockOfEntries entries))
  | d => keyValue key (literal d)

end

def blockOfValue : Data → Outcome Node
  | .map entries => .ok (block (blockOfEntries entries))
  | d => .error (.noMember d.kind "items")

def statements : Node → Outcome (List Node)
  | block statements => .ok statements
  | node => .error (.noMember node.form "statements")

def isSimpleList : Node → Bool
  | list elements => elements.length ≤ 3 && elements.all fun
    | list inner => inner.length ≤ 3
    | element => element.isAtom
  | _ => false

def isSimpleObject : Node → Outcome Bool
  | object attributes =>
    .ok (attributes.length ≤ 3 && attributes.all fun (_, n) => n.isAtom || n.isSimpleList)
  | node => .error (.noMember node.form "attributes")

def isComplex : Node → Bool
  | list elements => !(list elements).isSimpleList
  | object attributes => !((object attributes).isSimpleObject.toOption.getD false)
  | block statements => statements.length > 1
  | _ => false

def moduleLabel (node : Node) : Outcome (Option String) := do
  let labels := (← node.statements).filterMap fun
    | typed label .. => some label
    | _ => none
  return labels.head?.join

def declaredType (attributes : Assoc Node) : Outcome (Option Data) :=
  match Assoc.get? attributes "type" with
  | none => .ok none
  | some (identifier name) => .ok (some (.str name))
  | some (literal value) => .ok (some value)
  | some node => .error (.unsupportedTypeValue node.shown)

end Stratus.Node
