import Stratus.Data.Access

/-!
How two states of the resources differ: per type, names that came, names that went, and names whose
resource is another one.
-/
namespace Stratus

inductive Change where
  | added (type name : String)
  | removed (type name : String)
  | modified (type name : String)
deriving DecidableEq

namespace Change

def text : Change → String
  | added type name => s!"➕ Add {type}.{name}"
  | removed type name => s!"➖ Remove {type}.{name}"
  | modified type name => s!"📝 Modify {type}.{name}"

def ofType (type : String) (before after : Data) : Outcome (List Change) := do
  let after ← after.entriesFor "keys"
  let before ← before.entriesFor "keys"
  let added := after.filter fun e => !Assoc.contains before e.1
  let removed := before.filter fun e => !Assoc.contains after e.1
  let modified := before.filter fun e => (Assoc.get? after e.1).any fun v => !(e.2 == v)
  return added.map (.added type ·.1) ++ removed.map (.removed type ·.1) ++
    modified.map (.modified type ·.1)

def between (before after : Data) : Outcome (List Change) := do
  let before ← before.entriesFor "keys"
  let after ← after.entriesFor "keys"
  let types := before.keys ++ after.keys.filter fun type => !Assoc.contains before type
  let changes ← types.mapM fun type =>
    ofType type (Assoc.getD before type (.map [])) (Assoc.getD after type (.map []))
  return changes.flatten

def lines (changes : List Change) : List String :=
  (changes.map text).mergeSort fun a b => decide (a ≤ b)

end Change

end Stratus
