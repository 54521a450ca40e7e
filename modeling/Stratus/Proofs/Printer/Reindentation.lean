import Stratus.Proofs.Printer.Indentation
import Stratus.Proofs.Settle.Outline

/-!
Indentation below the top level: at any two levels a tree whose mappings have sources that do not
depend on the level fails twice, or prints the same words twice.
-/
namespace Stratus

namespace Node

/-- A mapping whose source is written without a look at the margin, or any other form. -/
def InlineSource : Node → Prop
  | mapsTo source _ => source.Throughout Inline
  | _ => True

theorem ofForms_inlineSource : OfForms InlineSource where
  spelling {tree} spelled := by cases spelled <;> trivial
  member _ _ := trivial
  block _ := trivial
  named _ _ := trivial

end Node

namespace Printer

open Effect

variable {i j : Int} {r : Registry}

def Below (i j : Int) : Prop := 1 ≤ i ∧ 1 ≤ j

theorem levels_below : Levels Below where
  deeper level := ⟨by have := level.1; omega, by have := level.2; omega⟩
  outermost level := by
    have := level.1
    have := level.2
    omega

theorem within_inline {node : Node} (inline : node.Throughout Node.Inline) (depth : Nat) :
    Paired Below Eq (SameSources Below) (within r depth) (within r depth) node := by
  induction depth generalizing node with
  | zero => exact fun i j _ => .throw _
  | succ depth ih =>
    obtain ⟨here, inside⟩ := Node.throughout_iff.mp inline
    exact step_inline here fun child mem => ih (inside child mem)

theorem hereditary_inlineSource : Hereditary r (Node.Throughout Node.InlineSource) where
  child whole _ mem := (Node.throughout_iff.mp whole).2 _ mem
  settled whole run := (Settle.resourceBody_settles run).throughout Node.ofForms_inlineSource whole

theorem within_below {node : Node} (sources : node.Throughout Node.InlineSource) (depth : Nat) :
    Paired Below Below (SameSources Below) (within r depth) (within r depth) node := by
  induction depth generalizing node with
  | zero => exact fun i j _ => .throw _
  | succ depth ih =>
    have each (n : Node) (h : n.Throughout Node.InlineSource) := ih h
    by_cases mapless : node.Mapless
    · exact step_paired levels_below hereditary_inlineSource each sources mapless
    · obtain ⟨here, inside⟩ := Node.throughout_iff.mp sources
      intro i j level
      cases node with
      | mapsTo source target =>
        exact mapsTo_along (within_inline here depth)
          (ih (inside target (by simp [Node.children]))) level
      | named name label? body =>
        obtain rfl : name = "deployment" := not_not.mp mapless
        refine deployment_along levels_below (fun statements known n mem => ih ?_) level
        exact hereditary_inlineSource.statement (r := r) (inside body List.mem_cons_self) known mem
      | _ => exact absurd trivial mapless

/-- At two levels below the top a tree fails twice with one fault, or prints the same words. -/
theorem visit_words_at_levels (r : Registry) {node : Node}
    (sources : node.Throughout Node.InlineSource)
    (functions : Assoc (List Param × Node)) (mappings : Assoc String) {n m : Int} (hn : 1 ≤ n)
    (hm : 1 ≤ m) :
    (∃ fault s t, Fails (visit r node) ⟨n, functions, mappings⟩ fault s ∧
      Fails (visit r node) ⟨m, functions, mappings⟩ fault t) ∨
    ∃ shown s shown' t, Returns (visit r node) ⟨n, functions, mappings⟩ shown s ∧
      Returns (visit r node) ⟨m, functions, mappings⟩ shown' t ∧
        shown.map Text.words = shown'.map Text.words := by
  have beside : Beside (SameSources Below) n m ⟨n, functions, mappings⟩ ⟨m, functions, mappings⟩ :=
    ⟨rfl, rfl, rfl, .refl _⟩
  rcases within_below sources (maxDepth + node.height) n m ⟨hn, hm⟩ _ _ beside with
    ⟨shown, s, shown', t, here, there, like, -⟩ | ⟨fault, s, t, here, there⟩
  · refine .inr ⟨shown, s, shown', t, here, there, ?_⟩
    cases like with
    | none => rfl
    | some like => exact congrArg some like.words_eq
  · exact .inl ⟨fault, s, t, here, there⟩

/-- A mapping to an object, at levels one and three. -/
theorem deployment_words_at_levels :
    ∃ shown s shown' t,
      Returns (visit [] (.named "deployment" none (.block [
        .mapsTo (.literal (.str "a")) (.object [("b", .literal (.int 1))])]))) ⟨1, [], []⟩ shown s ∧
      Returns (visit [] (.named "deployment" none (.block [
        .mapsTo (.literal (.str "a")) (.object [("b", .literal (.int 1))])]))) ⟨3, [], []⟩ shown' t ∧
      shown.map Text.words = shown'.map Text.words := by
  have target : (Node.object [("b", .literal (.int 1))]).Throughout Node.InlineSource :=
    .around trivial rfl (.leaf trivial rfl)
  have mapping : (Node.mapsTo (.literal (.str "a")) (.object [("b", .literal (.int 1))])).Throughout
      Node.InlineSource :=
    Node.throughout_iff.mpr ⟨.leaf trivial rfl,
      List.forall_mem_cons.mpr ⟨.leaf trivial rfl, List.forall_mem_singleton.mpr target⟩⟩
  have sources : (Node.named "deployment" none (.block [
      .mapsTo (.literal (.str "a")) (.object [("b", .literal (.int 1))])])).Throughout
        Node.InlineSource :=
    .around trivial rfl (.around trivial rfl mapping)
  rcases visit_words_at_levels [] sources [] [] (show (1 : Int) ≤ 1 by decide)
    (show (1 : Int) ≤ 3 by decide) with
    ⟨_, _, _, fails, -⟩ | prints
  · cases fails
  · exact prints

/-- The object is written with a margin, and at level one, not at two, it reads like the other
source. -/
theorem colliding_sources_at_levels :
    ∃ shown s shown' t,
      Returns (visit [] (.named "deployment" none (.block [
        .mapsTo (.object [("a", .literal (.int 1))]) (.literal (.str "p")),
        .mapsTo (.identifier "\x7b\n    a = 1\n  \x7d") (.literal (.str "q"))]))) ⟨1, [], []⟩
          (some shown) s ∧
      Returns (visit [] (.named "deployment" none (.block [
        .mapsTo (.object [("a", .literal (.int 1))]) (.literal (.str "p")),
        .mapsTo (.identifier "\x7b\n    a = 1\n  \x7d") (.literal (.str "q"))]))) ⟨2, [], []⟩
          (some shown') t ∧
      (Text.words shown).count "\"p\"" = 0 ∧ (Text.words shown').count "\"p\"" = 1 :=
  ⟨_, _, _, _, rfl, rfl, by decide +kernel, by decide +kernel⟩

end Printer

end Stratus
