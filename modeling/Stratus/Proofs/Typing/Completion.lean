import Stratus.Proofs.Typing.Conformance
import Stratus.Proofs.Typing.Defaults
import Stratus.Proofs.Typing.Lineage

/-!
What a completed instance holds. The fields are gone through for their initial values and for the
calculated ones; given values stay unless they are calculated.
-/
namespace Stratus

open Assoc hiding set

open Outcome

namespace Assoc

variable {α : Type*} {m : Assoc α} {key : String}

theorem select_congr {n : Assoc α} {names : List String}
    (h : ∀ name ∈ names, get? m name = get? n name) :
    select m names = select n names :=
  List.filterMap_congr fun name mem => by rw [h name mem]

theorem mem_of_mem_keys_select {names : List String} (h : key ∈ keys (select m names)) :
    key ∈ names := by
  obtain ⟨e, mem, rfl⟩ := List.mem_map.mp h
  obtain ⟨name, source, found⟩ := List.mem_filterMap.mp mem
  obtain ⟨value, -, rfl⟩ := Option.map_eq_some_iff.mp found
  exact source

def put? (m : Assoc α) (key : String) (value : Option α) : Assoc α := value.elim m (set m key)

theorem get?_put?_self (value : Option α) : get? (put? m key value) key = value.or (get? m key) := by
  cases value with
  | none => rfl
  | some value => simp [put?, get?_set]

theorem get?_put?_of_ne {other : String} (value : Option α) (h : key ≠ other) :
    get? (put? m key value) other = get? m other := by
  cases value with
  | none => rfl
  | some value => simp [put?, get?_set, h]

theorem put?_or (value : Option α) : put? m key (value.or (get? m key)) = put? m key value := by
  cases value with
  | some value => rfl
  | none =>
    cases found : get? m key with
    | none => rfl
    | some value => exact set_of_get? found

theorem update_select_cons (m n : Assoc α) (key : String) (names : List String) :
    update m (select n (key :: names)) = update (put? m key (get? n key)) (select n names) := by
  rw [select, List.filterMap_cons]
  cases get? n key <;> rfl

end Assoc

namespace Registry

section Walk

abbrev FieldStep := Assoc Data → String → Field → Outcome (Option Data)

def walk (step : FieldStep) : Assoc Field → Assoc Data → Outcome (Assoc Data)
  | [], known => .ok known
  | (key, field) :: rest, known => do walk step rest (put? known key (← step known key field))

variable {step : FieldStep} {fields before after : Assoc Field} {known result : Assoc Data}
  {key : String}
  {field : Field}

theorem walk_append (before after : Assoc Field) (known : Assoc Data) :
    walk step (before ++ after) known = walk step before known >>= walk step after := by
  induction before generalizing known with
  | nil => rfl
  | cons e rest ih =>
    simp only [List.cons_append, walk, ih, bind_assoc]

theorem get?_walk_of_notMem (run : walk step fields known = .ok result) (other : key ∉ keys fields) :
    get? result key = get? known key := by
  induction fields generalizing known with
  | nil =>
    cases run
    rfl
  | cons e rest ih =>
    rw [keys_cons, List.mem_cons, not_or] at other
    obtain ⟨value, -, run⟩ := bind_eq_ok run
    rw [ih run other.2, get?_put?_of_ne _ (Ne.symm other.1)]

theorem walk_eq_update (distinct : (keys fields).Nodup) (run : walk step fields known = .ok result) :
    result = update known (select result (keys fields)) := by
  induction fields generalizing known with
  | nil =>
    cases run
    rfl
  | cons e rest ih =>
    obtain ⟨key, field⟩ := e
    obtain ⟨new, distinct⟩ := List.nodup_cons.mp distinct
    obtain ⟨value, -, run⟩ := bind_eq_ok run
    have here : get? result key = value.or (get? known key) := by
      rw [get?_walk_of_notMem run new, get?_put?_self]
    rw [keys_cons, update_select_cons, here, put?_or]
    exact ih distinct run

/-- Each field of a walk takes its step where the fields before it are known as they came out, and
what the step gives is the value of the field in the end. -/
theorem step_of_walk (distinct : (keys (before ++ (key, field) :: after)).Nodup)
    (run : walk step (before ++ (key, field) :: after) known = .ok result) :
    ∃ value, step (update known (select result (keys before))) key field = .ok value ∧
      get? result key = value.or (get? known key) := by
  obtain ⟨distinct, newBefore, newAfter, apart⟩ := nodup_keys_split distinct
  rw [walk_append] at run
  obtain ⟨reached, first, run⟩ := bind_eq_ok run
  obtain ⟨value, taken, last⟩ := bind_eq_ok run
  -- What follows writes other names, so the fields before the step stand as they do in the end.
  have kept : ∀ name ∈ keys before, get? reached name = get? result name := by
    intro name mem
    have other : name ≠ key := fun same => newBefore (same ▸ mem)
    rw [get?_walk_of_notMem last (apart mem), get?_put?_of_ne _ (Ne.symm other)]
  refine ⟨value, ?_, ?_⟩
  · rw [← select_congr kept, ← walk_eq_update distinct first]
    exact taken
  · rw [get?_walk_of_notMem last newAfter, get?_put?_self, get?_walk_of_notMem first newBefore]

end Walk

variable {r : Registry} {evaluate : Evaluator} {fields : Assoc Field} {name : String}
  {values known completed : Assoc Data}

def initialStep (evaluate : Evaluator) : FieldStep := fun known key field =>
  if contains known key then .ok none else initialValue evaluate field.initial known

def calculatedStep (evaluate : Evaluator) : FieldStep := fun known _ field =>
  field.calculated.elim (.ok none) fun node => some <$> evaluate node known

theorem fillInitial_eq_walk (fields : Assoc Field) (known : Assoc Data) :
    fillInitial evaluate fields known = walk (initialStep evaluate) fields known := by
  induction fields generalizing known with
  | nil => rfl
  | cons e rest ih =>
    obtain ⟨key, field⟩ := e
    rw [fillInitial, walk, initialStep]
    split
    · exact ih known
    · refine bind_congr fun value => ?_
      cases value with
      | none => exact ih known
      | some d => exact ih _

theorem fillCalculated_eq_walk (fields : Assoc Field) (known : Assoc Data) :
    fillCalculated evaluate fields known = walk (calculatedStep evaluate) fields known := by
  induction fields generalizing known with
  | nil => rfl
  | cons e rest ih =>
    obtain ⟨key, field⟩ := e
    rw [fillCalculated, walk, calculatedStep]
    cases field.calculated with
    | none => exact ih known
    | some node =>
      simp only [Option.elim, bind_map_left]
      exact bind_congr fun d => ih _

/-- The missing fields have their initial values, each found among the given ones and the fields
before it. -/
structure Initialises (evaluate : Evaluator) (fields : Assoc Field)
    (given filled : Assoc Data) : Prop where
  kept : ∀ key ∈ keys given, get? filled key = get? given key
  missing : ∀ before key field after, fields = before ++ (key, field) :: after → key ∉ keys given →
    initialValue evaluate field.initial (update given (select filled (keys before))) =
      .ok (get? filled key)
  only : ∀ key ∈ keys filled, key ∈ keys given ∨ key ∈ keys fields

def Calculated (fields : Assoc Field) (key : String) : Prop :=
  ∃ field, (key, field) ∈ fields ∧ field.calculated.isSome = true

/-- The calculated fields have the values of their expressions, each found where those before it
have theirs; the other entries are as they were. -/
structure Calculates (evaluate : Evaluator) (fields : Assoc Field)
    (filled completed : Assoc Data) : Prop where
  own : ∀ before key field after node, fields = before ++ (key, field) :: after →
    field.calculated = some node →
    ∃ d, evaluate node (update filled (select completed (keys before))) = .ok d ∧
      get? completed key = some d
  others : ∀ key, ¬ Calculated fields key → get? completed key = get? filled key

theorem initialises_of_run (distinct : (keys fields).Nodup)
    (run : fillInitial evaluate fields known = .ok completed) :
    Initialises evaluate fields known completed := by
  rw [fillInitial_eq_walk] at run
  refine ⟨fun key old => ?_, fun before key field after split new => ?_, fun key mem => ?_⟩
  · by_cases own : key ∈ keys fields
    · obtain ⟨before, field, after, rfl⟩ := exists_split_of_mem_keys own
      obtain ⟨value, taken, found⟩ := step_of_walk distinct run
      rw [initialStep, if_pos (contains_iff.mpr (mem_keys_update_iff.mpr (.inl old)))] at taken
      cases taken
      exact found
    · exact get?_walk_of_notMem run own
  · subst split
    obtain ⟨value, taken, found⟩ := step_of_walk distinct run
    have unknown : ¬ contains (update known (select completed (keys before))) key = true := by
      rw [contains_iff, mem_keys_update_iff]
      rintro (old | earlier)
      · exact new old
      · exact (nodup_keys_split distinct).2.1 (mem_of_mem_keys_select earlier)
    rw [initialStep, if_neg unknown] at taken
    rw [taken, found, get?_eq_none_iff.mpr new, Option.or_none]
  · rw [walk_eq_update distinct run, mem_keys_update_iff] at mem
    exact mem.imp_right mem_of_mem_keys_select

theorem calculates_of_run (distinct : (keys fields).Nodup)
    (run : fillCalculated evaluate fields known = .ok completed) :
    Calculates evaluate fields known completed := by
  rw [fillCalculated_eq_walk] at run
  refine ⟨fun before key field after node split own => ?_, fun key other => ?_⟩
  · subst split
    obtain ⟨value, taken, found⟩ := step_of_walk distinct run
    rw [calculatedStep, own] at taken
    obtain ⟨d, evaluated, rfl⟩ := map_eq_ok taken
    exact ⟨d, evaluated, found⟩
  · by_cases own : key ∈ keys fields
    · obtain ⟨before, field, after, rfl⟩ := exists_split_of_mem_keys own
      obtain ⟨value, taken, found⟩ := step_of_walk distinct run
      have plain : field.calculated = none := by
        rw [← Option.not_isSome_iff_eq_none]
        exact fun calculated => other ⟨field, List.mem_append_right _ List.mem_cons_self, calculated⟩
      rw [calculatedStep, plain] at taken
      cases taken
      exact found
    · exact get?_walk_of_notMem run own

/-- An instance without problems leaves out only optional fields. -/
theorem optional_of_fieldProblems {entries : Assoc Data}
    (none : fieldProblems (.map entries) (r.candidates entries) fields = .ok []) :
    ∀ e ∈ fields, e.1 ∉ keys entries → e.2.Optional := by
  induction fields with
  | nil => exact fun e mem => by cases mem
  | cons e rest ih =>
    obtain ⟨key, field⟩ := e
    cases found : get? entries key with
    | none =>
      rw [fieldProblems_absent found] at none
      obtain ⟨later, run, last⟩ := bind_eq_ok none
      obtain ⟨here, rfl⟩ := List.append_eq_nil_iff.mp (pure_eq_ok_iff.mp last)
      rw [List.forall_mem_cons]
      refine ⟨fun _ => ?_, ih run⟩
      rw [Field.Optional, ← Option.isNone_eq_false_iff, ← Bool.and_eq_false_iff]
      by_contra required
      rw [if_pos (by simpa using required)] at here
      cases here
    | some d =>
      rw [fieldProblems_present found] at none
      obtain ⟨problem, -, none⟩ := bind_eq_ok none
      obtain ⟨later, run, last⟩ := bind_eq_ok none
      obtain ⟨-, rfl⟩ := List.append_eq_nil_iff.mp (pure_eq_ok_iff.mp last)
      rw [List.forall_mem_cons]
      exact ⟨fun missing => absurd (mem_keys (mem_of_get? found)) missing, ih run⟩

theorem optional_of_problems {entries : Assoc Data} (none : r.problems name (.map entries) = .ok [])
    (found : r.allFields name = .ok fields) : ∀ e ∈ fields, e.1 ∉ keys entries → e.2.Optional := by
  have known := (allFields_ok_iff.mp ⟨fields, found⟩).registered_name
  rw [problems, instanceProblems, if_pos known, found] at none
  exact optional_of_fieldProblems none

theorem isSome_of_initialValue {initial : Initial} {value : Option Data}
    (present : initial.isAbsent = false)
    (run : initialValue evaluate initial known = .ok value) : value.isSome = true := by
  unfold initialValue at run
  split at run
  · cases present
  · cases present
  · cases run
    rfl
  · obtain ⟨d, -, rfl⟩ := map_eq_ok run
    rfl

theorem mem_keys_of_optional {filled : Assoc Data} (distinct : (keys fields).Nodup)
    (initial : Initialises evaluate fields values filled)
    (calculated : Calculates evaluate fields filled completed)
    {key : String} {field : Field} (mem : (key, field) ∈ fields)
    (optional : key ∉ keys values → field.Optional) : key ∈ keys completed := by
  obtain ⟨before, after, split⟩ := List.append_of_mem mem
  rw [← contains_iff, contains]
  cases own : field.calculated with
  | some node =>
    obtain ⟨d, -, found⟩ := calculated.own before key field after node split own
    rw [found, Option.isSome_some]
  | none =>
    have other : ¬ Calculated fields key := by
      rintro ⟨field', member', calculated⟩
      have same := (get?_of_mem distinct mem).symm.trans (get?_of_mem distinct member')
      cases same
      rw [own] at calculated
      cases calculated
    rw [calculated.others key other]
    by_cases given : key ∈ keys values
    · rw [initial.kept key given]
      exact contains_iff.mpr given
    · have present : field.initial.isAbsent = false := by
        simpa [Field.Optional, own] using optional given
      exact isSome_of_initialValue present (initial.missing before key field after split given)

/-- Values are completed by initial values and then by the calculated fields. Given values stay
unless their fields are calculated, no other name is added, and if the given values have no problems
then no field is missing. -/
theorem complete_initialises_calculates (distinct : Distinct r) (single : (keys values).Nodup)
    (run : r.complete (.str name) (.map values) (some evaluate) = .ok completed) :
    ∃ fields filled, r.allFields name = .ok fields ∧
      (r.problems name (.map values) = .ok [] → ∀ key ∈ keys fields, key ∈ keys completed) ∧
      (∀ key ∈ keys values, ¬ Calculated fields key → get? completed key = get? values key) ∧
      Initialises evaluate fields values filled ∧ Calculates evaluate fields filled completed ∧
      ∀ key ∈ keys completed, key ∈ keys values ∨ key ∈ keys fields := by
  rw [complete_eq, ofPairs_of_nodup single] at run
  split at run
  · next registered =>
      obtain ⟨fields, found, run⟩ := bind_eq_ok run
      obtain ⟨filled, first, second⟩ := bind_eq_ok run
      have nodup := nodup_keys_allFields distinct found
      have initial := initialises_of_run nodup first
      have calculated := calculates_of_run nodup second
      refine ⟨fields, filled, found, ?_, ?_, initial, calculated, ?_⟩
      · intro none key mem
        obtain ⟨⟨key, field⟩, own, rfl⟩ := List.mem_map.mp mem
        exact mem_keys_of_optional nodup initial calculated own
          (optional_of_problems none found _ own)
      · intro key given other
        rw [calculated.others key other, initial.kept key given]
      · intro key mem
        by_cases own : Calculated fields key
        · obtain ⟨field, own, -⟩ := own
          exact .inr (mem_keys own)
        · refine initial.only key ?_
          rw [← contains_iff, contains, ← calculated.others key own]
          exact contains_iff.mpr mem
  · cases run

/-- The value given for a calculated field gives way; the zone that the calculation mentions is
itself the value of an expression. -/
theorem complete_of_calculated_label :
    let text : Constraint := { admits := .declared { name := "string" } }
    let zone : Node := .literal (.str "$\x7bname\x7d-eu")
    let label : Node := .expression (.identifier "size") (some ⟨.plus, "+", 1, 1⟩)
      (some (.identifier "zone"))
    let r : Registry := registerEach []
      [{ name := "Base", fields := [("size", { constraint := text, initial := .value (.str "s") }),
          ("label", { constraint := text, calculated := some label })] },
        { name := "Server", base := some "Base", fields := [("name", { constraint := text }),
          ("zone", { constraint := text, initial := .computed zone })] }]
    let evaluate : Evaluator := fun node known => node.evaluate .fields known
    let values : Assoc Data := [("name", .str "web"), ("label", .str "mine"), ("note", .int 1)]
    let completed : Assoc Data := [("name", .str "web"), ("label", .str "sweb-eu"), ("note", .int 1),
      ("size", .str "s"), ("zone", .str "web-eu")]
    (Distinct r ∧ (keys values).Nodup ∧
        r.complete (.str "Server") (.map values) (some evaluate) = .ok completed ∧
        r.problems "Server" (.map values) = .ok []) ∧
      ∃ fields filled, r.allFields "Server" = .ok fields ∧
        (∀ key ∈ keys fields, key ∈ keys completed) ∧
        (∀ key ∈ keys values, ¬ Calculated fields key → get? completed key = get? values key) ∧
        Initialises evaluate fields values filled ∧ Calculates evaluate fields filled completed ∧
        ∀ key ∈ keys completed, key ∈ keys values ∨ key ∈ keys fields := by
  intro text zone label r evaluate values completed
  have distinct : Distinct r := by
    refine (Reachable.empty.registerEach fun t mem => ?_).distinct
    simp only [List.mem_cons, List.not_mem_nil, or_false] at mem
    rcases mem with rfl | rfl <;> decide
  have single : (keys values).Nodup := by decide
  have run : r.complete (.str "Server") (.map values) (some evaluate) = .ok completed := by cbv
  have none : r.problems "Server" (.map values) = .ok [] := rfl
  obtain ⟨fields, filled, found, whole, rest⟩ := complete_initialises_calculates distinct single run
  exact ⟨⟨distinct, single, run, none⟩, fields, filled, found, whole none, rest⟩

end Registry

end Stratus
