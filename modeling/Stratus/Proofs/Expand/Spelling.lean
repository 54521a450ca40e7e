import Stratus.Proofs.Data.Parts
import Stratus.Proofs.Expand.Mentions
import Stratus.Proofs.Settle.Nested

/-!
Trees that spell values. A value has a tree just if no null is in it, the tree gives the value back,
and the rules of spelling fix the tree.
-/
namespace Stratus

open Outcome (Succeeds)

namespace Data

/-- No null stands at any depth. -/
def NullFree (d : Data) : Prop := ∀ leaf ∈ d.leaves, leaf.2 ≠ .null

theorem nullFree_list_iff {items : List Data} : (list items).NullFree ↔ ∀ d ∈ items, d.NullFree := by
  cases items with
  | nil => simp [NullFree, leaves]
  | cons d rest => exact forall_leaves_list_iff (P := (· ≠ null)) (List.cons_ne_nil _ _)

theorem nullFree_map_iff {entries : Assoc Data} :
    (map entries).NullFree ↔ ∀ e ∈ entries, e.2.NullFree := by
  cases entries with
  | nil => simp [NullFree, leaves]
  | cons e rest => exact forall_leaves_map_iff (P := (· ≠ null)) (List.cons_ne_nil _ _)

end Data

namespace Node

/-- The rules of spelling. -/
structure Embedding (spell : Data → Outcome Node) : Prop where
  null : spell .null = .error (.unsupportedValue "NoneType")
  list : ∀ items, spell (.list items) = .list <$> items.mapM spell
  map : ∀ entries, spell (.map entries) = .object <$> Assoc.mapValuesM spell entries
  scalar : ∀ d : Data, d ≠ .null → d.isList = false → d.isMap = false → spell d = .ok (.literal d)

theorem embedding_ofValue : Embedding ofValue where
  null := rfl
  list items := by rw [ofValue, ofItems_eq]
  map entries := by rw [ofValue, ofEntries_eq]
  scalar d := by cases d <;> simp [ofValue, Data.isList, Data.isMap]

variable {spell spell' : Data → Outcome Node} {d : Data} {node : Node}

namespace Embedding

theorem unique (h : Embedding spell) (h' : Embedding spell') (d : Data) : spell d = spell' d := by
  induction d using Data.induct with
  | list items ih => rw [h.list, h'.list, Outcome.mapM_congr ih]
  | map entries ih =>
    rw [h.map, h'.map, Assoc.mapValuesM, Assoc.mapValuesM,
      Outcome.mapM_congr fun e mem => by rw [ih e mem]]
  | scalar d flat flat' =>
    by_cases null : d = .null
    · rw [null, h.null, h'.null]
    · rw [h.scalar d null flat flat', h'.scalar d null flat flat']

theorem succeeds_iff (h : Embedding spell) (d : Data) : Succeeds (spell d) ↔ d.NullFree := by
  induction d using Data.induct with
  | list items ih =>
    rw [h.list, Outcome.succeeds_map_iff, Outcome.succeeds_mapM_iff, Data.nullFree_list_iff]
    exact forall₂_congr ih
  | map entries ih =>
    rw [h.map, Outcome.succeeds_map_iff, Assoc.mapValuesM, Outcome.succeeds_mapM_iff,
      Data.nullFree_map_iff]
    exact forall₂_congr fun e mem => Outcome.succeeds_map_iff.trans (ih e mem)
  | scalar d flat flat' =>
    by_cases null : d = .null
    · subst null
      simp [h.null, Succeeds, Data.NullFree, Data.leaves]
    · have here : d.leaves = [([], d)] := by
        cases d <;> simp_all [Data.leaves, Data.isList, Data.isMap]
      simp [h.scalar d null flat flat', Succeeds, Data.NullFree, here, null]

theorem toValue_of_ok (h : Embedding spell) (run : spell d = .ok node) : toValue node = .ok d := by
  induction d using Data.induct generalizing node with
  | list items ih =>
    rw [h.list] at run
    obtain ⟨elements, each, rfl⟩ := Outcome.map_eq_ok run
    have paired := (List.forall₂_and_left _ _).mpr
      ⟨fun d mem n (run : spell d = .ok n) => ih d mem run, Outcome.mapM_eq_ok_iff.mp each⟩
    have back : elements.mapM toValue = .ok items :=
      Outcome.mapM_eq_ok_iff.mpr (paired.imp fun d n one => one.1 n one.2).flip
    rw [toValue, toItems_eq, back]
    rfl
  | map entries ih =>
    rw [h.map] at run
    obtain ⟨attributes, each, rfl⟩ := Outcome.map_eq_ok run
    have paired := (List.forall₂_and_left _ _).mpr
      ⟨fun e mem n (run : spell e.2 = .ok n) => ih e mem run, Assoc.mapValuesM_eq_ok_iff.mp each⟩
    have back : Assoc.mapValuesM toValue attributes = .ok entries :=
      Assoc.mapValuesM_eq_ok_iff.mpr (paired.imp fun e e' one => ⟨one.1 _ one.2.1, one.2.2.symm⟩).flip
    rw [toValue, toEntries_eq, back]
    rfl
  | scalar d flat flat' =>
    by_cases null : d = .null
    · rw [null, h.null] at run
      cases run
    · rw [h.scalar d null flat flat'] at run
      cases run
      rfl

end Embedding

/-- A value has a tree just if no null stands in it, and its tree gives it back. Settled values have
the same tree, as with whatever spells values by the rules. -/
theorem toValue_ofValue_iff_nullFree (d : Data) :
    ((∃ node, ofValue d = .ok node) ↔ d.NullFree) ∧
    (∀ node, ofValue d = .ok node → toValue node = .ok d) ∧
      Settle.tree d = ofValue d ∧ Embedding ofValue ∧ ∀ spell, Embedding spell →
        spell d = ofValue d :=
  ⟨embedding_ofValue.succeeds_iff d, fun _ =>
    embedding_ofValue.toValue_of_ok, Settle.tree_eq_ofValue d,
    embedding_ofValue, fun _ h => h.unique embedding_ofValue d⟩

end Node

end Stratus
