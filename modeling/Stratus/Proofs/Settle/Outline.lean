import Stratus.Proofs.Settle.Nested

/-!
The outline of a settled body. Settling puts trees that spell values in the place of the values of
members, also of those in named blocks; every other statement is left as it is.
-/
namespace Stratus

namespace Node

/-- Trees that spell values. -/
inductive Spelling : Node → Prop where
  | literal (d : Data) : Spelling (.literal d)
  | list {elements : List Node} (each : ∀ n ∈ elements, Spelling n) : Spelling (.list elements)
  | object {attributes : List (String × Node)} (each : ∀ e ∈ attributes, Spelling e.2) :
      Spelling (.object attributes)

theorem Spelling.throughout {P : Node → Prop} (each : ∀ {tree : Node}, tree.Spelling → P tree)
    {n : Node} (h : n.Spelling) :
    n.Throughout P := by
  induction h with
  | literal d => exact throughout_iff.mpr ⟨each (.literal d), by simp [children]⟩
  | list elements ih => exact throughout_iff.mpr ⟨each (.list elements), ih⟩
  | object attributes ih =>
    exact throughout_iff.mpr ⟨each (.object attributes), List.forall_mem_map.mpr ih⟩

mutual

theorem ofValue_spelling {d : Data} {tree : Node} (spelled : ofValue d = .ok tree) :
    tree.Spelling := by
  cases d with
  | null => cases spelled
  | list items =>
    rw [ofValue] at spelled
    obtain ⟨trees, inside, rfl⟩ := Outcome.map_eq_ok spelled
    exact .list (ofItems_spelling inside)
  | map entries =>
    obtain ⟨trees, inside, rfl⟩ := ofValue_map_iff.mp spelled
    exact .object (ofEntries_spelling inside)
  | _ =>
    cases spelled
    exact .literal _

theorem ofItems_spelling {items : List Data} {trees : List Node}
    (spelled : ofItems items = .ok trees) :
    ∀ n ∈ trees, n.Spelling := by
  cases items with
  | nil =>
    cases spelled
    simp
  | cons d rest =>
    rw [ofItems] at spelled
    obtain ⟨tree, own, spelled⟩ := Outcome.bind_eq_ok spelled
    obtain ⟨trees, others, spelled⟩ := Outcome.bind_eq_ok spelled
    cases spelled
    exact List.forall_mem_cons.mpr ⟨ofValue_spelling own, ofItems_spelling others⟩

theorem ofEntries_spelling {entries : List (String × Data)} {trees : List (String × Node)}
    (spelled : ofEntries entries = .ok trees) : ∀ e ∈ trees, e.2.Spelling := by
  cases entries with
  | nil =>
    cases spelled
    simp
  | cons e rest =>
    obtain ⟨tree, trees, own, others, rfl⟩ := ofEntries_cons_iff.mp spelled
    exact List.forall_mem_cons.mpr ⟨ofValue_spelling own, ofEntries_spelling others⟩

end

/-- What settling makes of a statement or a body. -/
inductive Settles : Node → Node → Prop where
  | same (n : Node) : Settles n n
  | keyValue (key : String) (value : Node) {tree : Node} (spelled : tree.Spelling) :
      Settles (.keyValue key value) (.keyValue key tree)
  | block {statements settled : List Node} (each : List.Forall₂ Settles statements settled) :
      Settles (.block statements) (.block settled)
  | named (name : String) (label : Option String) {body settled : Node}
      (inner : Settles body settled) :
      Settles (.named name label body) (.named name label settled)

theorem Settles.exists_origin {statements settled : List Node}
    (each : List.Forall₂ Settles statements settled) {n' : Node}
    (member : n' ∈ settled) : ∃ n ∈ statements, n.Settles n' := by
  induction each with
  | nil => cases member
  | cons first _ ih =>
    rcases List.mem_cons.mp member with rfl | later
    · exact ⟨_, List.mem_cons_self, first⟩
    · obtain ⟨n, inside, settles⟩ := ih later
      exact ⟨n, List.mem_cons_of_mem _ inside, settles⟩

/-- What is said of the forms of trees and does not look into values, members, blocks and bodies of
named blocks. -/
structure OfForms (P : Node → Prop) : Prop where
  spelling {tree : Node} (spelled : tree.Spelling) : P tree
  member (key : String) (value : Node) : P (.keyValue key value)
  block (statements : List Node) : P (.block statements)
  named {name : String} {label : Option String} {body : Node} (h : P (.named name label body))
    (body' : Node) :
    P (.named name label body')

theorem Settles.throughout {P : Node → Prop} (forms : OfForms P) {n n' : Node}
    (settles : n.Settles n') :
    n.Throughout P → n'.Throughout P := by
  induction settles using Settles.rec
    (motive_2 := fun statements settled _ =>
      (∀ n ∈ statements, n.Throughout P) → ∀ n ∈ settled, n.Throughout P) with
  | same n => exact id
  | keyValue key value spelled =>
    intro _
    refine throughout_iff.mpr ⟨forms.member key _, ?_⟩
    exact List.forall_mem_singleton.mpr (spelled.throughout forms.spelling)
  | block each ih =>
    intro whole
    exact throughout_iff.mpr ⟨forms.block _, ih (throughout_iff.mp whole).2⟩
  | named name label inner ih =>
    intro whole
    obtain ⟨outer, inside⟩ := throughout_iff.mp whole
    refine throughout_iff.mpr ⟨forms.named outer _, ?_⟩
    exact List.forall_mem_singleton.mpr (ih (inside _ List.mem_cons_self))
  | nil _ n inside => exact absurd inside List.not_mem_nil
  | cons _ _ here later whole n inside =>
    obtain ⟨first, rest⟩ := List.forall_mem_cons.mp whole
    exact List.forall_mem_cons.mpr ⟨here first, later rest⟩ n inside

end Node

namespace Settle

open Node

variable {r : Registry} {vars vars' : Vars}

theorem settled_spelling {key : String} {d : Data} {tree : Node}
    (run : (settled r key d).run vars = .ok (tree, vars')) :
    tree.Spelling := by
  have spelled {d : Data} {vars : Vars}
    (run : StateT.run (liftM (Settle.tree d) : Settling Node) vars = .ok (tree, vars')) :
      tree.Spelling := by
    rw [tree_eq_ofValue] at run
    cases value : ofValue d with
    | error fault =>
      rw [value] at run
      cases run
    | ok spelling =>
      rw [value] at run
      cases run
      exact ofValue_spelling value
  obtain ⟨_, _, _, run⟩ := run_bind_iff.mp run
  cases d with
  | map entries =>
    dsimp only at run
    split at run
    · obtain ⟨_, _, _, run⟩ := run_bind_iff.mp run
      obtain ⟨_, _, _, run⟩ := run_bind_iff.mp run
      exact spelled run
    · exact spelled run
  | _ => exact spelled run

mutual

theorem statement_settles {first node : Node} {vars vars' : Vars}
    (run : (statement r first).run vars = .ok (node, vars')) :
    first.Settles node := by
  cases first with
  | keyValue key value =>
    simp only [statement, run_bind_iff, run_pure_iff] at run
    obtain ⟨d, _, _, tree, _, settles, rfl, -⟩ := run
    exact .keyValue key value (settled_spelling settles)
  | named name label inner =>
    cases inner with
    | block statements =>
      obtain ⟨nodes, inside, rfl⟩ := statement_named_iff.mp run
      exact .named name label (.block (statements_settle inside))
    | _ => cases run
  | _ =>
    cases run
    exact .same _

theorem statements_settle {statements nodes : List Node} {vars vars' : Vars}
    (run : (statementsOf r statements).run vars = .ok (nodes, vars')) :
    List.Forall₂ Settles statements nodes := by
  cases statements with
  | nil =>
    cases run
    exact .nil
  | cons first rest =>
    obtain ⟨node, known, later, own, others, rfl⟩ := statementsOf_cons_iff.mp run
    exact .cons (statement_settles own) (statements_settle others)

end

theorem resourceBody_settles {body settled : Node} (run : resourceBody r body = .ok settled) :
    body.Settles settled := by
  cases body with
  | block statements =>
    obtain ⟨nodes, _, inside, rfl⟩ := resourceBody_block_iff.mp run
    exact .block (statements_settle inside)
  | _ => cases run

end Settle

end Stratus
