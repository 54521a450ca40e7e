import Stratus.Proofs.Assoc
import Stratus.Typing.Defaults

/-!
Completing an instance writes one field after the other: a property of the known fields that every
write keeps is a property of the completed ones.
-/
namespace Stratus.Registry

open Assoc hiding set

variable {r : Registry} {evaluate : Evaluator} {fields : Assoc Field} {name : String}
  {values known completed : Assoc Data} {I : Assoc Data → Prop}

/-- A value that completing an instance writes to a field. -/
inductive Writes (evaluate : Evaluator) (known : Assoc Data) (field : Field) (d : Data) : Prop where
  | initial (h : initialValue evaluate field.initial known = .ok (some d))
  | calculated {node : Node} (own : field.calculated = some node) (h : evaluate node known = .ok d)

/-- Every write of one of the fields keeps a property of the known ones. -/
def Keeps (evaluate : Evaluator) (fields : Assoc Field) (I : Assoc Data → Prop) : Prop :=
  ∀ key field, (key, field) ∈ fields → ∀ known d, I known → Writes evaluate known field d →
    I (Assoc.set known key d)

theorem Keeps.tail {e : String × Field} (h : Keeps evaluate (e :: fields) I) :
    Keeps evaluate fields I :=
  fun key field mem => h key field (List.mem_cons_of_mem _ mem)

theorem fillInitial_invariant (keeps : Keeps evaluate fields I) (start : I known)
    (run : fillInitial evaluate fields known = .ok completed) : I completed := by
  induction fields generalizing known with
  | nil =>
    cases run
    exact start
  | cons e rest ih =>
    obtain ⟨key, field⟩ := e
    rw [fillInitial] at run
    split at run
    · exact ih keeps.tail start run
    · obtain ⟨initial, found, run⟩ := Outcome.bind_eq_ok run
      cases initial with
      | none => exact ih keeps.tail start run
      | some d =>
        exact ih keeps.tail (keeps key field List.mem_cons_self known d start (.initial found)) run

theorem fillCalculated_invariant (keeps : Keeps evaluate fields I) (start : I known)
    (run : fillCalculated evaluate fields known = .ok completed) : I completed := by
  induction fields generalizing known with
  | nil =>
    cases run
    exact start
  | cons e rest ih =>
    obtain ⟨key, field⟩ := e
    rw [fillCalculated] at run
    split at run
    · next node own =>
        obtain ⟨d, found, run⟩ := Outcome.bind_eq_ok run
        have written := keeps key field List.mem_cons_self known d start (.calculated own found)
        exact ih keeps.tail written run
    · exact ih keeps.tail start run

theorem complete_eq : r.complete (.str name) (.map values) (some evaluate) =
      if contains r name then
        r.allFields name >>= fun fields =>
          fillInitial evaluate fields (ofPairs values) >>= fillCalculated evaluate fields
      else .error (.typeNotFound name) := by
  unfold complete
  cases found : contains r name with
  | false => simp [Data.asKey?, bind, Except.bind, found]
  | true => simp [Data.asKey?, Data.updateWith, ofPairs, bind, Except.bind, found]

/-- What the given values have and every write of a field keeps, the completed fields have. -/
theorem complete_invariant (start : I (ofPairs values))
    (keeps : ∀ fields, r.allFields name = .ok fields → Keeps evaluate fields I)
    (run : r.complete (.str name) (.map values) (some evaluate) = .ok completed) : I completed := by
  rw [complete_eq] at run
  split at run
  · obtain ⟨fields, found, run⟩ := Outcome.bind_eq_ok run
    obtain ⟨known, initial, calculated⟩ := Outcome.bind_eq_ok run
    have known := fillInitial_invariant (keeps fields found) start initial
    exact fillCalculated_invariant (keeps fields found) known calculated
  · cases run

theorem nodup_keys_complete (run : r.complete (.str name) (.map values) (some evaluate) =
      .ok completed) :
    (keys completed).Nodup :=
  complete_invariant (I := fun known => (keys known).Nodup) (nodup_keys_ofPairs values)
    (fun _ _ key _ _ _ d nodup _ => nodup_keys_set nodup key d) run

end Stratus.Registry
