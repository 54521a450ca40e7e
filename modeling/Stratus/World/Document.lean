import Stratus.Fault

/-!
Files of several documents. How a text spells documents is up to the format that a run is given.
-/
namespace Stratus

/-- How documents are laid out: whether keys are sorted, and whether each document has a mark in
front. -/
structure Layout where
  sorted : Bool := true
  marked : Bool := false

structure DocumentFormat where
  /-- The one document of a text. -/
  read : String → Outcome Data := fun _ => .error (.badDocument "")
  readAll : String → Outcome (List Data) := fun _ => .error (.badDocument "")
  write : Layout → List Data → String := fun _ _ => ""

end Stratus
