import Stratus.Proofs.Parser.Reading
import Stratus.Proofs.Typing.Check
import Stratus.Proofs.Typing.Conformance

/-!
Resources as instances of their types. Only literals and identifiers of a block are looked at; a
field whose value is of another form counts as left out.
-/
namespace Stratus

open Assoc hiding set

/-- Texts that begin with different characters differ. -/
theorem append_ne_append {a b : String} {c d : Char} (ha : a.toList.head? = some c)
    (hb : b.toList.head? = some d) (differ : c ≠ d) (s t : String) : a ++ s ≠ b ++ t := by
  intro same
  have heads := congrArg (fun text => text.toList.head?) same
  simp only [String.toList_append, List.head?_append, ha, hb, Option.some_or] at heads
  exact differ (Option.some.inj heads)

namespace Registry

variable {r : Registry} {entries : Assoc Data} {fields : Assoc Field} {problems : List String}
  {key : String}

def missing (key : String) : String := s!"Missing required field: {key}"

/-- A value names a type that has a field which no instance may leave out. -/
def Requires (r : Registry) (type : Data) (key : String) : Prop :=
  ∃ name fields field, type = .str name ∧ name ≠ "" ∧ r.allFields name = .ok fields ∧
    (key, field) ∈ fields ∧
    ¬ field.Optional

theorem missing_inj {other : String} : missing key = missing other ↔ key = other :=
  String.append_right_inj "Missing required field: "

theorem missing_ne_field (name problem : String) : missing key ≠ s!"Field {name}: {problem}" := by
  have whole : s!"Field {name}: {problem}" = "Field " ++ (name ++ ": " ++ problem) := by
    simp only [String.append_assoc]
    rfl
  rw [whole]
  exact append_ne_append (c := 'M') (d := 'F') (by decide) (by decide) (by decide) _ _

theorem missing_ne_unknown (name : String) : missing key ≠ "Unknown type: " ++ name :=
  append_ne_append (c := 'M') (d := 'U') (by decide) (by decide) (by decide) _ _

theorem not_optional_iff {field : Field} :
    ¬ field.Optional ↔ (field.initial.isAbsent && field.calculated.isNone) = true := by
  rw [Field.Optional, ← Option.isNone_eq_false_iff, ← Bool.and_eq_false_iff, Bool.not_eq_false]

/-- A field is reported missing just when the values leave it out and it is not optional. -/
theorem missing_mem_fieldProblems_iff
    (run : fieldProblems (.map entries) (r.candidates entries) fields = .ok problems) :
    missing key ∈ problems ↔ key ∉ keys entries ∧ ∃ field, (key, field) ∈ fields ∧
      ¬ field.Optional := by
  induction fields generalizing problems with
  | nil =>
    cases run
    simp
  | cons e rest ih =>
    obtain ⟨name, field⟩ := e
    cases found : get? entries name with
    | some d =>
      rw [fieldProblems_present found] at run
      obtain ⟨problem, -, run⟩ := Outcome.bind_eq_ok run
      obtain ⟨later, others, last⟩ := Outcome.bind_eq_ok run
      cases last
      have elsewhere : missing key ∉ problem.toList.map fun p => s!"Field {name}: {p}" := by
        intro here
        obtain ⟨p, -, same⟩ := List.mem_map.mp here
        exact missing_ne_field name p same.symm
      rw [List.mem_append, or_iff_right elsewhere, ih others]
      refine and_congr_right fun absent => exists_congr fun field' => and_congr_left fun _ => ?_
      have other : key ≠ name := fun same => absent (same ▸ mem_keys (mem_of_get? found))
      simp [other]
    | none =>
      rw [fieldProblems_absent found] at run
      obtain ⟨later, others, last⟩ := Outcome.bind_eq_ok run
      cases last
      have here : missing key ∈ (if field.initial.isAbsent && field.calculated.isNone
          then [s!"Missing required field: {name}"] else []) ↔ key = name ∧ ¬ field.Optional := by
        rw [not_optional_iff]
        split
        · next required =>
            rw [List.mem_singleton, and_iff_left required]
            exact missing_inj
        · next optional => simp [optional]
      have absent : name ∉ keys entries := get?_eq_none_iff.mp found
      rw [List.mem_append, here, ih others]
      constructor
      · rintro (⟨rfl, required⟩ | ⟨absent, field', mem, required⟩)
        · exact ⟨absent, field, List.mem_cons_self, required⟩
        · exact ⟨absent, field', List.mem_cons_of_mem _ mem, required⟩
      · rintro ⟨absent, field', mem, required⟩
        rcases List.mem_cons.mp mem with same | mem
        · cases same
          exact .inl ⟨rfl, required⟩
        · exact .inr ⟨absent, field', mem, required⟩

theorem missing_mem_problems_iff {name : String}
    (run : r.problems name (.map entries) = .ok problems) :
    missing key ∈ problems ↔ key ∉ keys entries ∧
      ∃ fields field, r.allFields name = .ok fields ∧ (key, field) ∈ fields ∧ ¬ field.Optional := by
  rw [Registry.problems, instanceProblems] at run
  split at run
  · obtain ⟨fields, found, run⟩ := Outcome.bind_eq_ok run
    rw [missing_mem_fieldProblems_iff run, found]
    simp
  · next unknown =>
      cases run
      have unnamed : ∀ fields, r.allFields name ≠ .ok fields := fun fields found =>
        unknown (allFields_ok_iff.mp ⟨fields, found⟩).registered_name
      simp [unnamed, missing_ne_unknown]

/-- A check reports a field missing just when the type requires it and the values leave it out. -/
theorem missing_mem_problemsOf_iff {type : Data} (named : type.holds = true)
    (run : r.problemsOf type (.map entries) = .ok problems) :
    missing key ∈ problems ↔ key ∉ keys entries ∧ r.Requires type key := by
  cases type with
  | str name =>
    have filled : name ≠ "" := by simpa [Data.holds] using named
    rw [missing_mem_problems_iff run]
    simp [Requires, filled]
  | list | map => cases run
  | _ =>
    cases run
    simp [Requires, missing_ne_unknown]

end Registry

namespace Parser

open Registry

/-- The plain values of a block are those of its keys that have a literal or an identifier. -/
theorem mem_keys_plainValues_iff {statements : List Node} {key : String} :
    key ∈ keys (plainValues statements) ↔
      ∃ value : Node, .keyValue key value ∈ statements ∧ value.isAtom = true := by
  rw [plainValues, ofPairs, mem_keys_update_iff, or_iff_right (by simp [keys])]
  constructor
  · intro mem
    obtain ⟨⟨_, d⟩, listed, rfl⟩ := List.mem_map.mp mem
    obtain ⟨statement, own, kept⟩ := List.mem_filterMap.mp listed
    split at kept
    · cases kept
      exact ⟨_, own, rfl⟩
    · cases kept
      exact ⟨_, own, rfl⟩
    · cases kept
  · rintro ⟨value, own, atom⟩
    cases value with
    | literal d => exact mem_keys (List.mem_filterMap.mpr ⟨_, own, rfl⟩)
    | identifier name => exact mem_keys (List.mem_filterMap.mpr ⟨_, own, rfl⟩)
    | _ => cases atom

section Resource

variable {g : Grammar} {s s' : State} {word kind name : Token} {rest : List Token} {body : Node}

/-- A resource is refused with a list of problems just when it names a type and the check of its
plain values finds them. -/
theorem resource_invalid_iff (ahead : s.ahead = word :: kind :: name :: rest)
    (opened : word.kind = .resourceWord)
    (kinded : kind.kind = .string) (named : name.kind = .string)
    (read : g.block (s.skip 3) = .ok (body, s'))
    {line : Nat} {problems : List String} :
    (resource g).run s = .error (.invalidInstance line problems) ↔
      line = kind.line ∧ (typeInstance (statementsOf body)).holds = true ∧ problems ≠ [] ∧
      s'.registry.problemsOf (typeInstance (statementsOf body))
        (.map (plainValues (statementsOf body))) =
        .ok problems := by
  have second := State.ahead_skip_one ahead
  have third := State.ahead_skip_one second
  rw [State.skip_skip] at third
  rw [StateT.run, resource, bind_run (discard_run (consume_run ahead opened)),
    bind_run (consume_run second kinded),
    State.skip_skip, bind_run (consume_run third named), State.skip_skip, bind_run read]
  dsimp only
  cases holds : (typeInstance (statementsOf body)).holds with
  | false => simp [pure, StateT.pure, Except.pure]
  | true =>
    have got : (get : Parse State) s' = .ok (s', s') := rfl
    rw [if_pos rfl, bind_run got]
    cases checked : s'.registry.problemsOf (typeInstance (statementsOf body))
        (.map (plainValues (statementsOf body))) with
    | error fault =>
      -- The check has no fault that could be taken for a list of problems.
      have own := s'.registry.problemsOf_checks _ _ fault checked
      have other : fault ≠ .invalidInstance line problems := by
        rintro rfl
        cases own
      simpa [bind, StateT.bind, liftM, monadLift, MonadLift.monadLift, StateT.lift,
        Except.bind] using other
    | ok found =>
      have answered : (liftM (.ok found : Outcome (List String)) : Parse (List String)) s' =
        .ok (found, s') := rfl
      rw [bind_run answered]
      cases found with
      | nil => simp [pure, StateT.pure, Except.pure]
      | cons first others =>
        change Except.error (Fault.invalidInstance kind.line (first :: others)) = _ ↔ _
        simp only [Except.error.injEq, Fault.invalidInstance.injEq, Except.ok.injEq, true_and]
        constructor
        · rintro ⟨rfl, rfl⟩
          exact ⟨rfl, List.cons_ne_nil _ _, rfl⟩
        · rintro ⟨rfl, -, rfl⟩
          exact ⟨rfl, rfl⟩

/-- If the check has an answer, a field is reported missing just when the type requires it and no
value that the block gives for it is a literal or an identifier. -/
theorem resource_reports_missing_iff (ahead : s.ahead = word :: kind :: name :: rest)
    (opened : word.kind = .resourceWord) (kinded : kind.kind = .string) (named : name.kind = .string)
    (read : g.block (s.skip 3) = .ok (body, s')) (key : String) :
    (∃ line problems, (resource g).run s = .error (.invalidInstance line problems) ∧
      missing key ∈ problems) ↔
      (∀ value : Node, .keyValue key value ∈ statementsOf body → value.isAtom = false) ∧
      s'.registry.Requires (typeInstance (statementsOf body)) key ∧
      ∃ problems, s'.registry.problemsOf (typeInstance (statementsOf body))
        (.map (plainValues (statementsOf body))) = .ok problems := by
  have left : key ∉ Assoc.keys (plainValues (statementsOf body)) ↔
      ∀ value : Node, .keyValue key value ∈ statementsOf body → value.isAtom = false := by
    simp only [mem_keys_plainValues_iff, not_exists, not_and, Bool.not_eq_true]
  simp only [resource_invalid_iff ahead opened kinded named read]
  constructor
  · rintro ⟨line, problems, ⟨-, holds, -, checked⟩, reported⟩
    obtain ⟨absent, required⟩ := (missing_mem_problemsOf_iff holds checked).mp reported
    exact ⟨left.mp absent, required, problems, checked⟩
  · rintro ⟨absent, required, problems, checked⟩
    have holds : (typeInstance (statementsOf body)).holds = true := by
      obtain ⟨type, -, -, same, filled, -⟩ := required
      rw [same]
      simpa [Data.holds] using filled
    have reported := (missing_mem_problemsOf_iff holds checked).mpr ⟨left.mpr absent, required⟩
    exact ⟨kind.line, problems, ⟨rfl, holds, List.ne_nil_of_mem reported, checked⟩, reported⟩

end Resource

/-- Of two required fields that a resource supplies, the one with a list is reported and the one
with a number is not. -/
theorem resource_reports_missing_list :
    let field : Field := { constraint := { admits := .declared { name := "any" } } }
    let r : Registry := [("A", { name := "A", fields := [("x", field), ("y", field)] })]
    let tokens : List Token := [⟨.resourceWord, "resource", 1, 1⟩, ⟨.string, "a", 1, 10⟩,
      ⟨.string, "b", 1, 14⟩,
      ⟨.leftBrace, "\x7b", 1, 18⟩, ⟨.identifier, "type", 1, 20⟩, ⟨.equals, "=", 1, 25⟩,
        ⟨.identifier, "A", 1, 27⟩,
      ⟨.identifier, "x", 1, 29⟩, ⟨.equals, "=", 1, 31⟩, ⟨.leftBracket, "[", 1, 33⟩,
        ⟨.number, "1", 1, 34⟩,
      ⟨.rightBracket, "]", 1, 35⟩, ⟨.identifier, "y", 1, 37⟩, ⟨.equals, "=", 1, 39⟩,
        ⟨.number, "2", 1, 41⟩,
      ⟨.rightBrace, "\x7d", 1, 43⟩, ⟨.endOfFile, "", 1, 44⟩]
    let g := grammar (depthFor tokens)
    let s : State := { tokens := tokens.toArray, registry := r }
    (∃ line problems, (resource g).run s = .error (.invalidInstance line problems) ∧
      missing "x" ∈ problems) ∧
      ¬ ∃ line problems, (resource g).run s = .error (.invalidInstance line problems) ∧
        missing "y" ∈ problems := by
  intro field r tokens g s
  have read : (fun x => (x.1, x.2.registry)) <$> g.block (s.skip 3) = .ok
      (.block [.keyValue "type" (.identifier "A"), .keyValue "x" (.list [.literal (.int 1)]),
        .keyValue "y" (.literal (.int 2))], r) := by
    cbv
  obtain ⟨⟨body, s'⟩, read, same⟩ := Outcome.map_eq_ok read
  obtain ⟨rfl, registered⟩ := Prod.mk.inj same
  dsimp only at registered
  have ahead : s.ahead = ⟨.resourceWord, "resource", 1, 1⟩ :: ⟨.string, "a", 1, 10⟩ ::
    ⟨.string, "b", 1, 14⟩ ::
      tokens.drop 3 := rfl
  have reports (key : String) := resource_reports_missing_iff ahead rfl rfl rfl read key
  rw [reports, reports, registered]
  refine ⟨⟨?_, ?_, _, rfl⟩, fun h => ?_⟩
  · simp [statementsOf, Node.isAtom]
  · exact ⟨"A", _, field, rfl, by decide, rfl,
      List.mem_cons_self, by simp [Field.Optional, field, Initial.isAbsent]⟩
  · have plain := h.1 (.literal (.int 2)) (by simp [statementsOf])
    cases plain

/-- The one field of a type is given as a list, and the resource is refused for want of it. -/
theorem parse_reports_listed_field :
    parse "type A \x7b x: any \x7d resource \"a\" \"b\" \x7b type = A x = [1] \x7d" =
      .error (.invalidInstance 1 ["Missing required field: x"]) := by
  cbv

end Parser

end Stratus
