import Stratus.Data.Access
import Stratus.Typing.Registry

/-!
Whether values fit their types. A value fits a registered type when checking it as an instance finds
no problem; an unknown type name stands for the text that spells it.
-/
namespace Stratus

/-- The primitive kinds; a number may be a boolean, and every value is of the kind `any`. -/
inductive Primitive where
  | string | number | bool | any
deriving DecidableEq

namespace Primitive

def ofName? : String → Option Primitive
  | "string" => some string
  | "number" => some number
  | "bool" => some bool
  | "any" => some any
  | _ => none

def includes : Primitive → Data → Bool
  | string, .str _ => true
  | number, .int _ | number, .float _ | number, .bool _ => true
  | bool, .bool _ => true
  | any, _ => true
  | _, _ => false

/-- Kinds of values in a primitive kind; names of no primitive kind include everything. -/
def kinds : Option Primitive → List String
  | some string => ["str"]
  | some number => ["int", "float"]
  | some bool => ["bool"]
  | some any | none => ["object"]

end Primitive

/-- A value with the answer, for each type name, whether it fits that type. -/
structure Candidate where
  value : Data
  fits : String → Outcome Bool

namespace Constraint

/-- The first member of a union that a value fits decides. -/
def fitsAny (c : Candidate) : List TypeRef → Outcome Bool
  | [] => .ok false
  | t :: rest => do if ← c.fits t.name then return true else fitsAny c rest

def problem? (k : Constraint) (c : Candidate) : Outcome (Option String) :=
  if c.value.isNull then .ok (if k.nullable then none else some "Value cannot be null")
  else match k.admits with
    | .oneOf values =>
      .ok (if values.any (Data.same c.value) then none
        else some ("Value must be one of: " ++ Text.commas (values.map Data.text)))
    | .declared type =>
      if type.members.isEmpty then do
        if ← c.fits type.name then return none
        else return some ("Value does not match type: " ++ type.name)
      else do
        if ← fitsAny c type.members then return none
        else
          return some ("Value does not match any of the union types: " ++
            Text.commas (type.members.map TypeRef.name))
    | .primitive type =>
      .ok (match Primitive.ofName? type.name with
        | some kind =>
          if kind.includes c.value then none else some ("Value must be of type " ++ type.name)
        | none => none)

end Constraint

namespace Registry

/-- Problems of a value under the fields of a type; `members` are the candidates inside it. -/
def fieldProblems (whole : Data) (members : Assoc Candidate) : Assoc Field → Outcome (List String)
  | [] => .ok []
  | (name, field) :: rest => do
    let here ← if ← whole.has name then
        match Assoc.get? members name with
        | some c => do
          let problem ← field.constraint.problem? c
          pure (problem.toList.map fun p => s!"Field {name}: {p}")
        | none => (fun _ => []) <$> whole.item name
      else
        pure (if field.initial.isAbsent && field.calculated.isNone
          then [s!"Missing required field: {name}"] else [])
    return here ++ (← fieldProblems whole members rest)

def instanceProblems (r : Registry) (whole : Data) (members : Assoc Candidate) (type : String) :
    Outcome (List String) :=
  if Assoc.contains r type then do fieldProblems whole members (← r.allFields type)
  else .ok ["Unknown type: " ++ type]

def fitsNamed (r : Registry) (whole : Data) (members : Assoc Candidate) (type : String) :
    Outcome Bool :=
  match Primitive.ofName? type with
  | some kind => .ok (kind.includes whole)
  | none =>
    if Assoc.contains r type then List.isEmpty <$> r.instanceProblems whole members type
    else .ok (match whole with
      | .str s => s == type
      | _ => false)

mutual

def fits (r : Registry) : Data → String → Outcome Bool
  | .map entries, type => r.fitsNamed (.map entries) (candidates r entries) type
  | d, type => r.fitsNamed d [] type

def candidates (r : Registry) : List (String × Data) → Assoc Candidate
  | [] => []
  | (k, d) :: rest => (k, ⟨d, fits r d⟩) :: candidates r rest

end

def candidate (r : Registry) (d : Data) : Candidate := ⟨d, r.fits d⟩

def problems (r : Registry) (type : String) (values : Data) : Outcome (List String) :=
  match values with
  | .map entries => r.instanceProblems values (r.candidates entries) type
  | values => r.instanceProblems values [] type

def problemsOf (r : Registry) (type values : Data) : Outcome (List String) := do
  match ← type.asKey? with
  | some name => r.problems name values
  | none => return ["Unknown type: " ++ type.text]

end Registry

end Stratus
