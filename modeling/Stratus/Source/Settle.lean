import Stratus.Source.Value
import Stratus.Typing.Defaults

/-!
Values of the members of a resource. Members see those before them as variables; the members of a
plain object join the variables of the resource, and those of a typed object only each other.
-/
namespace Stratus.Settle

abbrev Vars := Assoc Data

abbrev Settling := StateT Vars (Except Fault)

def learn (name : String) (value : Data) : Settling Unit := modify (Assoc.set · name value)

def evaluator : Registry.Evaluator := fun e known => e.evaluate .values known

mutual

def value (r : Registry) : Node → Settling Data
  | .object attributes => do
    match ← Node.declaredType attributes with
    | some type =>
      let outer ← get
      let values ← members r attributes
      set outer
      return .map (← r.complete type (.map values) (some evaluator))
    | none => return .map (← members r attributes)
  | .literal d => do (Node.literal d).evaluate .values (← get)
  | .identifier name => do return Assoc.getD (← get) name (.str name)
  | .expression left operator right =>
    do (Node.expression left operator right).evaluate .values (← get)
  | node => throw (.notAValue node.formPath)

def members (r : Registry) : List (String × Node) → Settling (List (String × Data))
  | [] => return []
  | (key, node) :: rest =>
    if key == "type" then members r rest
    else do
      let d ← value r node
      learn key d
      return (key, d) :: (← members r rest)

end

/-- The values of a block as a map, blocks inside it under their names. -/
def blockValues (r : Registry) : List Node → Settling (Assoc Data)
  | [] => return []
  | .keyValue key node :: rest | .named key _ node :: rest => do
    let d ← value r node
    learn key d
    return Assoc.update [(key, d)] (← blockValues r rest)
  | _ :: rest => blockValues r rest

mutual

/-- The tree of a settled value; null has none. -/
def tree : Data → Outcome Node
  | .map entries => .object <$> treeEntries entries
  | .list items => .list <$> treeItems items
  | .null => .error (.unsupportedValue "NoneType")
  | d => .ok (.literal d)

def treeItems : List Data → Outcome (List Node)
  | [] => .ok []
  | d :: rest => do return (← tree d) :: (← treeItems rest)

def treeEntries : List (String × Data) → Outcome (List (String × Node))
  | [] => .ok []
  | (k, d) :: rest => do return (k, ← tree d) :: (← treeEntries rest)

end

/-- The tree that stands for the value of a member; a map that still names a type is completed, and
loses the type in this variable. Values are copied: another variable keeps its own map. -/
def settled (r : Registry) (key : String) (d : Data) : Settling Node := do
  learn key d
  match d with
  | .map entries =>
    match Assoc.get? entries "type" with
    | some type =>
      let rest := .map (Assoc.erase entries "type")
      learn key rest
      tree (.map (← r.complete type rest (some evaluator)))
    | none => tree d
  | d => tree d

mutual

/-- A block with its values settled, blocks inside it included. -/
def body (r : Registry) : Node → Settling Node
  | .block statements => do return .block (← statementsOf r statements)
  | node => throw (.noMember node.form "statements")

def statementsOf (r : Registry) : List Node → Settling (List Node)
  | [] => return []
  | .keyValue key node :: rest => do
    let d ← value r node
    let tree ← settled r key d
    return .keyValue key tree :: (← statementsOf r rest)
  | .named name label inner :: rest => do
    let inner ← body r inner
    return .named name label inner :: (← statementsOf r rest)
  | statement :: rest => do return statement :: (← statementsOf r rest)

end

def resourceBody (r : Registry) (node : Node) : Outcome Node := do return (← (body r node).run []).1

end Stratus.Settle
