import Stratus.Proofs.Outcome
import Stratus.Source.Evaluate

/-!
One expression in several places. Among the values of a resource a list, an object or an access has
no value; in the body of a function a boolean literal stands for the text that spells it.
-/
namespace Stratus

open Outcome

namespace Node

variable {vars : Assoc Data}

/-- With these variables, evaluation of the tree comes to literals, identifiers, operators and
conditions only. -/
inductive Elementary (vars : Assoc Data) : Node → Prop where
  | literal (d : Data) : Elementary vars (literal d)
  | identifier (name : String) : Elementary vars (identifier name)
  | unary {left : Node} {operator : Option Token} :
      Elementary vars left → Elementary vars (expression left operator none)
  | binary {left right : Node} {operator : Option Token} :
      Elementary vars left → Elementary vars right →
        Elementary vars (expression left operator (some right))
  | ternary {condition yes no : Node} : Elementary vars condition →
      (∀ a, condition.evaluate .fields vars = .ok a → Elementary vars (if a.holds then yes else no)) →
      Elementary vars (ternary condition yes no)

theorem literalValue_fields (d : Data) :
    literalValue .fields vars d = literalValue .values vars d := by
  cases d <;> rfl

theorem operate_fields (operator : Option String) (a b : Data) :
    operate .fields operator a b = operate .values operator a b := by
  unfold operate
  split <;> simp_all

theorem evaluate_ternary (setting : Setting) (condition yes no : Node) :
    (ternary condition yes no).evaluate setting vars =
      condition.evaluate setting vars >>= fun a =>
        (if a.holds then yes else no).evaluate setting vars := by
  rw [evaluate]
  refine bind_congr fun a => ?_
  split <;> rfl

theorem Elementary.evaluate_fields {n : Node} (elementary : n.Elementary vars) :
    n.evaluate .fields vars = n.evaluate .values vars := by
  induction elementary with
  | literal d => rw [evaluate, evaluate, literalValue_fields]
  | identifier name => rw [evaluate, evaluate]
  | unary _ ih => simp only [evaluate, evaluate?, ih, operate_fields]
  | binary _ _ left right => simp only [evaluate, evaluate?, left, right, operate_fields]
  | @ternary condition yes no _ _ same branch =>
    rw [evaluate_ternary, evaluate_ternary, ← same]
    cases found : condition.evaluate .fields vars with
    | error fault => rfl
    | ok a => exact branch a found

theorem elementary_of_evaluate {d : Data} :
    (n : Node) → n.evaluate .values vars = .ok d → n.Elementary vars
  | literal d, _ => .literal d
  | identifier name, _ => .identifier name
  | expression left operator none, run => by
      rw [evaluate, Outcome.bind_eq_ok_iff] at run
      obtain ⟨a, first, -⟩ := run
      exact .unary (elementary_of_evaluate left first)
  | expression left operator (some right), run => by
      rw [evaluate, Outcome.bind_eq_ok_iff] at run
      obtain ⟨a, first, rest⟩ := run
      obtain ⟨b, second, -⟩ := Outcome.bind_eq_ok rest
      exact .binary (elementary_of_evaluate left first) (elementary_of_evaluate right second)
  | ternary condition yes no, run => by
      rw [evaluate_ternary, Outcome.bind_eq_ok_iff] at run
      obtain ⟨a, first, rest⟩ := run
      have elementary := elementary_of_evaluate condition first
      -- The branch is chosen by the value among the fields, which for the condition is the one
      -- found here.
      refine .ternary elementary fun a' again => ?_
      obtain rfl : a = a' := by
        rw [elementary.evaluate_fields, first] at again; exact Except.ok.inj again
      by_cases holds : a.holds
      · rw [if_pos holds] at rest ⊢
        exact elementary_of_evaluate yes rest
      · rw [if_neg holds] at rest ⊢
        exact elementary_of_evaluate no rest
  | keyValue .., run | block _, run | typed .., run | resource .., run | forLoop ..,
      run | conditional .., run
  | switch .., run | function .., run | assignment .., run | returns _, run | range ..,
      run | call .., run
  | access .., run | list _, run | object _, run | named .., run | typeDef .., run | applied ..,
      run | raw .., run
  | mapsTo .., run => by cases run

/-- A value that an expression has among the values of a resource it has among the fields of a type
too; conversely only elementary expressions keep theirs. -/
theorem evaluate_values_iff (n : Node) (vars : Assoc Data) :
    (∀ d, n.evaluate .values vars = .ok d ↔ n.evaluate .fields vars = .ok d ∧ n.Elementary vars) ∧
      (n.Elementary vars → n.evaluate .fields vars = n.evaluate .values vars) := by
  refine ⟨fun d => ⟨fun run => ?_, ?_⟩, Elementary.evaluate_fields⟩
  · have elementary := elementary_of_evaluate n run
    exact ⟨elementary.evaluate_fields.trans run, elementary⟩
  · rintro ⟨run, elementary⟩
    exact elementary.evaluate_fields.symm.trans run

/-- The branch that is left out is a list; the other one joins a variable and a text that mentions
it. -/
theorem evaluate_values_of_condition :
    let plus : Token := ⟨.plus, "+", 1, 1⟩
    let n : Node := .ternary (.identifier "zone") (.expression (.identifier "zone") plus
      (some (.literal (.str "-$\x7bzone\x7d")))) (.list [])
    let vars : Assoc Data := [("zone", .str "a")]
    n.Elementary vars ∧ n.evaluate .values vars = .ok (.str "a-a") ∧
      n.evaluate .fields vars = .ok (.str "a-a") := by
  intro plus n vars
  have run : n.evaluate .values vars = .ok (.str "a-a") := by cbv
  have both := ((evaluate_values_iff n vars).1 _).mp run
  exact ⟨both.2, run, both.1⟩

variable {a b c : Data}

mutual

/-- An expression with the boolean literals among its operands and branches spelled out. -/
def spelled : Node → Node
  | literal (.bool b) => literal (.str (if b then "true" else "false"))
  | expression left operator right => expression (spelled left) operator (spelled? right)
  | ternary condition yes no => ternary (spelled condition) (spelled yes) (spelled no)
  | n => n

def spelled? : Option Node → Option Node
  | some n => some (spelled n)
  | none => none

end

/-- With these variables, evaluation of a tree among the values of a resource comes to another tree.
-/
inductive ComesTo (vars : Assoc Data) : Node → Node → Prop where
  | here (n : Node) : ComesTo vars n n
  | left {left m : Node} {operator : Option Token} {right : Option Node} :
      ComesTo vars left m → ComesTo vars (expression left operator right) m
  | right {left right m : Node} {operator : Option Token} :
      ComesTo vars right m → ComesTo vars (expression left operator (some right)) m
  | condition {condition yes no m : Node} : ComesTo vars condition m →
      ComesTo vars (ternary condition yes no) m
  | branch {condition yes no m : Node} {a : Data} : condition.evaluate .values vars = .ok a →
      ComesTo vars (if a.holds then yes else no) m → ComesTo vars (ternary condition yes no) m

/-- Evaluation comes to no boolean literal. -/
def Wordless (vars : Assoc Data) (n : Node) : Prop := ∀ x, ¬ ComesTo vars n (literal (.bool x))

theorem operate_body {operator : Option String} (body : operate .body operator a b = .ok c) {d : Data}
    (elsewhere : operate .values operator a b = .ok d) : c = d := by
  unfold operate at body elsewhere
  split at body <;> simp_all

theorem interpolate_spelled (value : String → String) (b : Bool) :
    Text.interpolate value (if b then "true" else "false") = if b then "true" else "false" := by
  cases b <;> rfl

theorem evaluate_spelled_literal (d : Data) :
    (literal d).spelled.evaluate .values vars = (literal d).evaluate .body vars := by
  cases d with
  | bool b =>
    rw [spelled, evaluate, evaluate, literalValue, literalValue, interpolate_spelled]
    rfl
  | _ => rfl

/-- A value in a body is the one that the spelled expression has elsewhere, if it has any. -/
theorem eq_of_evaluate_spelled {a c : Data} : (n : Node) → n.evaluate .body vars = .ok a →
    n.spelled.evaluate .values vars = .ok c → a = c
  | literal d, body, elsewhere => by
      rw [evaluate_spelled_literal, body] at elsewhere
      exact Except.ok.inj elsewhere
  | identifier name, body, elsewhere => by
      rw [spelled, evaluate] at elsewhere
      · rw [evaluate, elsewhere] at body
        exact (Except.ok.inj body).symm
      all_goals simp
  | expression left operator none, body, elsewhere => by
      rw [evaluate, bind_eq_ok_iff] at body
      rw [spelled, evaluate, bind_eq_ok_iff] at elsewhere
      obtain ⟨x, first, body⟩ := body
      obtain ⟨x', first', elsewhere⟩ := elsewhere
      obtain rfl := eq_of_evaluate_spelled left first first'
      exact operate_body body elsewhere
  | expression left operator (some right), body, elsewhere => by
      rw [evaluate, bind_eq_ok_iff] at body
      rw [spelled, evaluate, bind_eq_ok_iff] at elsewhere
      obtain ⟨x, first, body⟩ := body
      obtain ⟨x', first', elsewhere⟩ := elsewhere
      obtain ⟨y, second, body⟩ := bind_eq_ok body
      obtain ⟨y', second', elsewhere⟩ := bind_eq_ok elsewhere
      obtain rfl := eq_of_evaluate_spelled left first first'
      obtain rfl := eq_of_evaluate_spelled right second second'
      exact operate_body body elsewhere
  | ternary condition yes no, body, elsewhere => by
      rw [evaluate_ternary, bind_eq_ok_iff] at body
      rw [spelled, evaluate_ternary, bind_eq_ok_iff] at elsewhere
      obtain ⟨x, first, body⟩ := body
      obtain ⟨x', first', elsewhere⟩ := elsewhere
      -- The conditions have one value, so the same branch is taken on both sides.
      obtain rfl := eq_of_evaluate_spelled condition first first'
      by_cases holds : x.holds
      · rw [if_pos holds] at body elsewhere
        exact eq_of_evaluate_spelled yes body elsewhere
      · rw [if_neg holds] at body elsewhere
        exact eq_of_evaluate_spelled no body elsewhere
  | keyValue .., _, run | block _, _, run | typed .., _, run | resource .., _,
      run | forLoop .., _, run
  | conditional .., _, run | switch .., _, run | function .., _, run | assignment .., _,
      run | returns _, _, run
  | range .., _, run | call .., _, run | access .., _, run | list _, _, run | object _, _,
      run | named .., _, run
  | typeDef .., _, run | applied .., _, run | raw .., _, run | mapsTo .., _, run => by cases run

theorem Wordless.evaluate_spelled : {n : Node} → n.Wordless vars →
    n.spelled.evaluate .values vars = n.evaluate .values vars
  | literal d, wordless => by
      cases d with
      | bool b => exact absurd (.here _) (wordless b)
      | _ => rfl
  | expression left operator none, wordless => by
      have first := evaluate_spelled fun x comes => wordless x (.left comes)
      simp only [spelled, spelled?, evaluate, evaluate?, first]
  | expression left operator (some right), wordless => by
      have first := evaluate_spelled fun x comes => wordless x (.left comes)
      have second := evaluate_spelled fun x comes => wordless x (.right comes)
      simp only [spelled, spelled?, evaluate, evaluate?, first, second]
  | ternary condition yes no, wordless => by
      have first := evaluate_spelled fun x comes => wordless x (.condition comes)
      rw [spelled, evaluate_ternary, evaluate_ternary, first]
      cases found : condition.evaluate .values vars with
      | error fault => rfl
      | ok a =>
        have chosen : (if a.holds then yes else no).Wordless vars :=
          fun x comes => wordless x (.branch found comes)
        by_cases holds : a.holds
        · simp only [bind, Except.bind, holds, if_true] at chosen ⊢
          exact chosen.evaluate_spelled
        · simp only [bind, Except.bind, holds] at chosen ⊢
          exact chosen.evaluate_spelled
  | identifier _, _ | keyValue .., _ | block _, _ | typed .., _ | resource .., _ | forLoop ..,
      _ | conditional .., _
  | switch .., _ | function .., _ | assignment .., _ | returns _, _ | range .., _ | call ..,
      _ | access .., _
  | list _, _ | object _, _ | named .., _ | typeDef .., _ | applied .., _ | raw ..,
      _ | mapsTo .., _ => rfl

/-- Where an expression has a value both in the body of a function and elsewhere, the two are equal
if evaluation comes to no boolean literal; in any case the value in the body is that of the spelled
expression. -/
theorem evaluate_body_spells {n : Node} (body : n.evaluate .body vars = .ok a)
    (elsewhere : n.evaluate .values vars = .ok b) :
    (n.Wordless vars → a = b) ∧ ∀ c, n.spelled.evaluate .values vars = .ok c → a = c := by
  refine ⟨fun wordless => ?_, fun c run => eq_of_evaluate_spelled n body run⟩
  exact eq_of_evaluate_spelled n body (wordless.evaluate_spelled.trans elsewhere)

/-- The boolean literal stands in the branch that is left out. -/
theorem evaluate_body_of_size :
    let more : Node := .expression (.identifier "size") (some ⟨.plus, "+", 1, 1⟩)
      (some (.literal (.int 1)))
    let n : Node := .ternary (.identifier "size") more (.literal (.bool true))
    let vars : Assoc Data := [("size", .int 2)]
    (n.evaluate .body vars = .ok (.int 3) ∧ n.evaluate .values vars = .ok (.int 3) ∧
      n.Wordless vars) ∧
      ∀ a b, n.evaluate .body vars = .ok a → n.evaluate .values vars = .ok b → a = b := by
  intro more n vars
  have wordless : n.Wordless vars := by
    intro x comes
    dsimp only [n, more] at comes
    cases comes with
    | condition comes => cases comes
    | branch found comes =>
      cases found
      cases comes with
      | left comes => cases comes
      | right comes => cases comes
  have body : n.evaluate .body vars = .ok (.int 3) := rfl
  have elsewhere : n.evaluate .values vars = .ok (.int 3) := rfl
  exact ⟨⟨body, elsewhere, wordless⟩, fun a b run run' => (evaluate_body_spells run run').1 wordless⟩

/-- The text of a false condition holds, so that in a body the other branch is taken. -/
theorem evaluate_body_of_false :
    let n : Node := .ternary (.literal (.bool false)) (.literal (.str "on")) (.literal (.str "off"))
    n.evaluate .body [] = .ok (.str "on") ∧ n.evaluate .values [] = .ok (.str "off") ∧
      Data.same (.str "on") (.str "off") = false := by
  intro n
  have body : n.evaluate .body [] = .ok (.str "on") := rfl
  have elsewhere : n.evaluate .values [] = .ok (.str "off") := rfl
  exact ⟨body, elsewhere, rfl⟩

end Node

end Stratus
