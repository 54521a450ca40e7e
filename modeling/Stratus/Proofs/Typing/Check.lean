import Stratus.Proofs.Outcome
import Stratus.Typing.Check

/-! The ways in which checking an instance can fail, other than by finding problems. -/
namespace Stratus

/-- Faults of a registry or of values that are no instance at all. -/
def Fault.ofCheck : Fault → Bool
  | .tooDeep | .typeNotFound _ | .unhashable _ | .notAContainer _ | .missingKey _ | .badIndex ..
  | .notSubscriptable _ => true
  | _ => false

open Outcome

namespace Registry

variable {members : Assoc Candidate} {c : Candidate}

/-- A computation whose faults are those of checking. -/
abbrev Checks {α : Type} (x : Outcome α) : Prop := Raises (fun fault => fault.ofCheck = true) x

theorem fieldsWithin_checks (r : Registry) (fuel : Nat) (name : String) :
    Checks (fieldsWithin r fuel name) := by
  induction fuel generalizing name with
  | zero => exact .error rfl
  | succ fuel ih =>
    rw [fieldsWithin]
    split
    · exact .error rfl
    · split
      · split
        · exact .ok _
        · exact (ih _).bind fun _ _ => .ok _
      · exact .ok _

theorem has_checks (d : Data) (key : String) : Checks (d.has key) := by
  cases d with
  | map entries => exact .ok _
  | list items => exact .ok _
  | str s => exact .ok _
  | _ => exact .error rfl

theorem item_checks (d : Data) (key : String) : Checks (d.item key) := by
  cases d with
  | map entries =>
    rw [Data.item]
    split
    · exact .ok _
    · exact .error rfl
  | list items => exact .error rfl
  | str s => exact .error rfl
  | _ => exact .error rfl

theorem fitsAny_checks (h : ∀ type, Checks (c.fits type)) (types : List TypeRef) :
    Checks (Constraint.fitsAny c types) := by
  induction types with
  | nil => exact .ok _
  | cons t rest ih =>
    refine (h t.name).bind fun fits _ => ?_
    split
    · exact .ok _
    · exact ih

theorem problem?_checks (h : ∀ type, Checks (c.fits type)) (k : Constraint) :
    Checks (k.problem? c) := by
  rw [Constraint.problem?]
  split
  · exact .ok _
  split
  · exact .ok _
  · split
    · refine (h _).bind fun fits _ => ?_
      split <;> exact .ok _
    · refine (fitsAny_checks h _).bind fun fits _ => ?_
      split <;> exact .ok _
  · exact .ok _

/-- The members of a value check, so that the value does. -/
def MembersCheck (members : Assoc Candidate) : Prop :=
  ∀ name c, Assoc.get? members name = some c → ∀ type, Checks (c.fits type)

theorem membersCheck_nil : MembersCheck [] := by
  intro name c found
  cases found

theorem fieldProblems_checks (h : MembersCheck members) (whole : Data)
    (fields : Assoc Field) : Checks (fieldProblems whole members fields) := by
  induction fields with
  | nil => exact .ok _
  | cons entry rest ih =>
    obtain ⟨name, field⟩ := entry
    rw [fieldProblems]
    refine (has_checks whole name).bind fun present _ => ?_
    have later (here : List String) : Checks
        (do return here ++ (← fieldProblems whole members rest) : Outcome (List String)) :=
      ih.bind fun _ _ => .ok _
    split
    · split
      · next c found =>
          exact (problem?_checks (h name c found) field.constraint).bind fun _ _ => later _
      · exact (item_checks whole name).map.bind fun here _ => later here
    · exact later _

theorem instanceProblems_checks (h : MembersCheck members) (r : Registry)
    (whole : Data) (type : String) : Checks (r.instanceProblems whole members type) := by
  rw [instanceProblems]
  split
  · exact (fieldsWithin_checks r _ type).bind fun fields _ => fieldProblems_checks h whole fields
  · exact .ok _

theorem fitsNamed_checks (h : MembersCheck members) (r : Registry)
    (whole : Data) (type : String) : Checks (r.fitsNamed whole members type) := by
  unfold fitsNamed
  split
  · exact .ok _
  · split
    · exact (instanceProblems_checks h r whole type).map
    · exact .ok _

mutual

theorem fits_checks (r : Registry) (d : Data) (type : String) : Checks (r.fits d type) := by
  cases d with
  | map entries =>
    rw [fits]
    exact fitsNamed_checks (candidates_check r entries) r _ type
  | _ => exact fitsNamed_checks membersCheck_nil r _ type

theorem candidates_check (r : Registry) (entries : List (String × Data)) :
    MembersCheck (r.candidates entries) := by
  cases entries with
  | nil => exact membersCheck_nil
  | cons entry rest =>
    obtain ⟨k, d⟩ := entry
    intro name c found type
    rw [candidates, Assoc.get?] at found
    split at found
    · cases found
      exact fits_checks r d type
    · exact candidates_check r rest name c found type

end

/-- Checking an instance fails for want of a type, of an end of its bases or of a fitting shape. -/
theorem problemsOf_checks (r : Registry) (type values : Data) :
    Checks (r.problemsOf type values) := by
  refine Raises.bind ?_ fun name? _ => ?_
  · cases type with
    | list => exact .error rfl
    | map => exact .error rfl
    | _ => exact .ok _
  · split
    · cases values with
      | map entries => exact instanceProblems_checks (candidates_check r entries) r _ _
      | _ => exact instanceProblems_checks membersCheck_nil r _ _
    · exact .ok _

end Registry

end Stratus
