import Stratus.Source.Value
import Stratus.Typing.Defaults

/-!
Expansion of typed objects: an object or block whose `type` names a registered type is replaced by
its completed fields, and these are expanded in turn.
-/
namespace Stratus

namespace Expand

def maxDepth : Nat := 1000

def registeredType (r : Registry) (members : Assoc Node) : Outcome (Option String) := do
  let some type ← Node.declaredType members | return none
  let some name ← type.asKey? | return none
  return if Assoc.contains r name then some name else none

def fieldsOf (r : Registry) (expand : Node → Outcome Node) (name : String) (members : Assoc Node) :
    Outcome (Assoc Node) := do
  let values ← Assoc.mapValuesM (fun n => do (← expand n).toValue) (members.filter (·.1 != "type"))
  let completed ← r.complete (.str name) (.map values) (some fun e known => e.evaluate .fields known)
  let nodes ← Node.ofEntries (Assoc.erase completed "type")
  Assoc.mapValuesM expand nodes

def attributes (r : Registry) (expand : Node → Outcome Node) (members : Assoc Node) :
    Outcome (Assoc Node) := do
  match ← registeredType r members with
  | some name => fieldsOf r expand name members
  | none => Assoc.mapValuesM expand members

def pairs? : List Node → Option (List (String × Node))
  | [] => some []
  | .keyValue key value :: rest => (pairs? rest).map ((key, value) :: ·)
  | _ :: _ => none

def ofPairs (pairs : Assoc Node) : Node := .block (pairs.map fun (k, n) => .keyValue k n)

/-- A statement of a block; the value of a pair stands as deep as the pair. -/
def statement (expand : Node → Outcome Node) : Node → Outcome Node
  | .keyValue key value => .keyValue key <$> expand value
  | node => expand node

def block (r : Registry) (expand : Node → Outcome Node) (statements : List Node) : Outcome Node := do
  let statements ← statements.mapM (statement expand)
  match pairs? statements with
  | some pairs =>
    let members := Assoc.ofPairs pairs
    if Assoc.contains members "type" then return ofPairs (← attributes r expand members)
    else return .block statements
  | none => return .block statements

/-- The body of a named block; the members of a single object in it are written into the body. -/
def namedBody (expand : Node → Outcome Node) (body : Node) : Outcome Node := do
  let body ← expand body
  match ← body.statements with
  | [.object attributes] =>
    match ← expand (.object attributes) with
    | .object members => return ofPairs members
    | node => .error (.noMember node.form "attributes")
  | _ => return body

def step (r : Registry) (expand : Node → Outcome Node) : Node → Outcome Node
  | .object members => .object <$> attributes r expand (Assoc.ofPairs members)
  | .list elements => .list <$> elements.mapM expand
  | .block statements => block r expand statements
  | .named name label body => .named name label <$> namedBody expand body
  | .keyValue key value => .keyValue key <$> expand value
  | node => .ok node

def within (r : Registry) : Nat → Node → Outcome Node
  | 0, _ => .error .tooDeep
  | depth + 1, node => step r (within r depth) node

end Expand

def Node.expand (r : Registry) (node : Node) : Outcome Node := Expand.within r Expand.maxDepth node

end Stratus
