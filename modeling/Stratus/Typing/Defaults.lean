import Stratus.Data.Access
import Stratus.Source.Evaluate
import Stratus.Typing.Registry

/-! Completing an instance: missing fields take their initial values, then calculated ones are set.
-/
namespace Stratus.Registry

abbrev Evaluator := Node → Assoc Data → Outcome Data

def initialValue (evaluate : Evaluator) (initial : Initial) (known : Assoc Data) :
    Outcome (Option Data) :=
  match initial with
  | .absent | .value .null => .ok none
  | .value d => .ok (some d)
  | .computed node => some <$> evaluate node known

def fillInitial (evaluate : Evaluator) : Assoc Field → Assoc Data → Outcome (Assoc Data)
  | [], known => .ok known
  | (name, field) :: rest, known => do
    if Assoc.contains known name then fillInitial evaluate rest known
    else match ← initialValue evaluate field.initial known with
      | some d => fillInitial evaluate rest (Assoc.set known name d)
      | none => fillInitial evaluate rest known

def fillCalculated (evaluate : Evaluator) : Assoc Field → Assoc Data → Outcome (Assoc Data)
  | [], known => .ok known
  | (name, field) :: rest, known =>
    match field.calculated with
    | some node => do fillCalculated evaluate rest (Assoc.set known name (← evaluate node known))
    | none => fillCalculated evaluate rest known

/-- An instance of a type with all its fields; without an evaluator there is none. -/
def complete (r : Registry) (type values : Data) (evaluate : Option Evaluator) :
    Outcome (Assoc Data) := do
  let some evaluate := evaluate | .error .evaluatorMissing
  let some name ← type.asKey? | .error (.typeNotFound type.text)
  if !Assoc.contains r name then .error (.typeNotFound name)
  let known ← Data.updateWith [] values
  let fields ← r.allFields name
  fillCalculated evaluate fields (← fillInitial evaluate fields known)

end Stratus.Registry
