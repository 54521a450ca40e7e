import Stratus.Fault
import Stratus.Source.Node

/-!
Types of the description language. A type has fields in order and possibly a base, whose fields come
first; a registry keeps the types in the order in which their names were first registered.
-/
namespace Stratus

inductive Constraint.Admits where
  | oneOf (values : List Data)
  /-- Values of a type or of one of its members. -/
  | declared (type : TypeRef)
  /-- Values of the primitive kind with that name, or any value for every other name. -/
  | primitive (type : TypeRef)

structure Constraint where
  admits : Constraint.Admits
  nullable : Bool := false

/-- The value of a field that an instance leaves out. -/
inductive Initial where
  | absent
  | value (d : Data)
  | computed (node : Node)

def Initial.isAbsent : Initial → Bool
  | absent | value .null => true
  | _ => false

structure Field where
  constraint : Constraint
  initial : Initial := .absent
  /-- An expression over the other fields that overrides whatever an instance says. -/
  calculated : Option Node := none
  description : Option String := none

structure TypeDef where
  name : String
  fields : Assoc Field
  base : Option String := none

abbrev Registry := Assoc TypeDef

namespace Registry

/-- Registers a type, replacing one of the same name; a base has to be there already. -/
def register (r : Registry) (t : TypeDef) : Outcome Registry :=
  match t.base with
  | some base =>
    if base != "" && !Assoc.contains r base then .error (.baseNotFound base)
    else .ok (Assoc.set r t.name t)
  | none => .ok (Assoc.set r t.name t)

/-- Fields of a type over those of its bases, the deepest base first. A chain of bases longer than
the fuel is circular. -/
def fieldsWithin (r : Registry) : Nat → String → Outcome (Assoc Field)
  | 0, _ => .error .tooDeep
  | fuel + 1, name =>
    match Assoc.get? r name with
    | none => .error (.typeNotFound name)
    | some t =>
      match t.base with
      | some base =>
        if base == "" then .ok t.fields
        else do return Assoc.update (← fieldsWithin r fuel base) t.fields
      | none => .ok t.fields

/-- All fields of a type; one that replaces a field of its base stands at the base's place. -/
def allFields (r : Registry) (name : String) : Outcome (Assoc Field) :=
  fieldsWithin r (r.length + 1) name

end Registry

end Stratus
