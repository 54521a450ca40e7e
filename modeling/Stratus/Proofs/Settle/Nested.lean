import Stratus.Proofs.Parser.Shape
import Stratus.Source.Settle

/-!
Settling the nested values of a resource. Lists have no reading and null has no spelling, so a body
settles just when it has neither; each of its objects adds at most one level.
-/
namespace Stratus

open List hiding keys keys_cons
open Node
open Assoc hiding set

open Outcome

namespace Node

variable {attributes : List (String × Node)} {entries : List (String × Data)}
  {trees : List (String × Node)}
  {depth : Nat}

/-- Lists and objects of literals and identifiers, nested at will; no object names a type. -/
inductive Nested : Node → Prop where
  | literal {d : Data} (scalar : d.hashable = true) : Nested (.literal d)
  | identifier (name : String) : Nested (.identifier name)
  | list {elements : List Node} (each : ∀ element ∈ elements, Nested element) :
      Nested (.list elements)
  | object {attributes : List (String × Node)} (untyped : "type" ∉ Assoc.keys attributes)
      (each : ∀ e ∈ attributes, Nested e.2) : Nested (.object attributes)

/-- Members with nested values, and blocks of such members under a name. -/
inductive Content : Node → Prop where
  | keyValue (key : String) {value : Node} (nested : value.Nested) : Content (.keyValue key value)
  | named (name : String) (label : Option String) {statements : List Node}
      (each : ∀ s ∈ statements, Content s) :
      Content (.named name label (.block statements))

/-- Neither a list nor null. -/
def Convertible : Node → Prop
  | list _ | literal .null => False
  | _ => True

mutual

/-- The number of objects in the values of a tree. -/
def objects : Node → Nat
  | keyValue _ value => objects value
  | block statements => objectsAll statements
  | named _ _ body => objects body
  | list elements => objectsAll elements
  | object attributes => objectsEntries attributes + 1
  | _ => 0

def objectsAll : List Node → Nat
  | [] => 0
  | n :: rest => objects n + objectsAll rest

def objectsEntries : List (String × Node) → Nat
  | [] => 0
  | (_, n) :: rest => objects n + objectsEntries rest

end

/-- The forms of settled trees. -/
inductive Printable : Node → Prop where
  | literal (d : Data) : Printable (.literal d)
  | object {attributes : List (String × Node)} (each : ∀ e ∈ attributes, Printable e.2) :
      Printable (.object attributes)
  | keyValue (key : String) {value : Node} (inner : Printable value) :
      Printable (.keyValue key value)
  | named (name : String) (label : Option String) {statements : List Node}
      (each : ∀ s ∈ statements, Printable s) :
      Printable (.named name label (.block statements))
  | block {statements : List Node} (each : ∀ s ∈ statements, Printable s) :
      Printable (.block statements)

mutual

/-- How often one has to step down in a settled tree; a block under a name is not a step of its own.
-/
def steps : Node → Nat
  | keyValue _ value => steps value + 1
  | block statements => stepsAll statements
  | named _ _ body => steps body
  | object attributes => stepsEntries attributes
  | _ => 0

def stepsAll : List Node → Nat
  | [] => 0
  | n :: rest => max (steps n + 1) (stepsAll rest)

def stepsEntries : List (String × Node) → Nat
  | [] => 0
  | (_, n) :: rest => max (steps n + 1) (stepsEntries rest)

end

theorem stepsAll_le_iff {nodes : List Node} :
    stepsAll nodes ≤ depth ↔ ∀ n ∈ nodes, n.steps < depth := by
  induction nodes with
  | nil => simp [stepsAll]
  | cons n rest ih => rw [stepsAll, max_le_iff, ih, forall_mem_cons, Nat.succ_le_iff]

theorem stepsEntries_le_iff :
    stepsEntries attributes ≤ depth ↔ ∀ e ∈ attributes, e.2.steps < depth := by
  induction attributes with
  | nil => simp [stepsEntries]
  | cons e rest ih => rw [stepsEntries, max_le_iff, ih, forall_mem_cons, Nat.succ_le_iff]

theorem declaredType_eq_none_iff :
    declaredType attributes = .ok none ↔ "type" ∉ Assoc.keys attributes := by
  rw [← get?_eq_none_iff, declaredType]
  constructor
  · intro h
    split at h
    · assumption
    all_goals cases h
  · intro absent
    rw [absent]

/-! ### Spelling -/

theorem ofEntries_cons_iff {key : String} {d : Data} {rest : List (String × Data)} :
    ofEntries ((key, d) :: rest) = .ok trees ↔
      ∃ tree later, ofValue d = .ok tree ∧ ofEntries rest = .ok later ∧
        trees = (key, tree) :: later := by
  rw [ofEntries, bind_eq_ok_iff]
  simp only [bind_eq_ok_iff, pure_eq_ok_iff]
  constructor
  · rintro ⟨tree, spelled, later, others, rfl⟩
    exact ⟨tree, later, spelled, others, rfl⟩
  · rintro ⟨tree, later, spelled, others, rfl⟩
    exact ⟨tree, spelled, later, others, rfl⟩

theorem forall_of_ofEntries {P : Node → Prop}
    (each : ∀ e ∈ entries, ∀ tree, ofValue e.2 = .ok tree → P tree)
    (spelled : ofEntries entries = .ok trees) :
    ∀ e ∈ trees, P e.2 := by
  induction entries generalizing trees with
  | nil =>
    cases spelled
    simp
  | cons e rest ih =>
    obtain ⟨here, later⟩ := forall_mem_cons.mp each
    obtain ⟨tree, trees, own, others, rfl⟩ := ofEntries_cons_iff.mp spelled
    exact forall_mem_cons.mpr ⟨here tree own, ih later others⟩

theorem ofValue_map_iff {tree : Node} :
    ofValue (.map entries) = .ok tree ↔
      ∃ trees, ofEntries entries = .ok trees ∧ tree = .object trees := by
  rw [ofValue, map_eq_ok_iff]
  simp only [eq_comm]

end Node

namespace Data

/-- Scalars, and maps of such values; no map names a type. -/
inductive Composite : Data → Prop where
  | scalar {d : Data} (plain : d.hashable = true) : Composite d
  | map {entries : List (String × Data)} (untyped : "type" ∉ Assoc.keys entries)
      (each : ∀ e ∈ entries, Composite e.2) : Composite (.map entries)

/-- A value is spelled by a tree of no more than so many steps. -/
def SpelledIn (n : Nat) (d : Data) : Prop := ∃ tree, ofValue d = .ok tree ∧ tree.steps ≤ n

theorem SpelledIn.mono {m n : Nat} {d : Data} (h : d.SpelledIn m) (le : m ≤ n) : d.SpelledIn n := by
  obtain ⟨tree, spelled, bound⟩ := h
  exact ⟨tree, spelled, bound.trans le⟩

theorem Composite.printable {d : Data} (h : d.Composite) :
    ∀ tree, ofValue d = .ok tree → tree.Printable := by
  induction h with
  | @scalar d plain =>
    intro tree spelled
    cases d with
    | list items => cases plain
    | map entries => cases plain
    | null => cases spelled
    | _ =>
      cases spelled
      exact .literal _
  | map _ _ ih =>
    intro tree spelled
    obtain ⟨trees, inside, rfl⟩ := ofValue_map_iff.mp spelled
    exact .object (forall_of_ofEntries ih inside)

end Data

namespace Settle

variable {r : Registry} {vars vars' : Vars} {key : String} {d : Data} {node : Node}
  {attributes : List (String × Node)} {entries : List (String × Data)} {n : Nat}

section Runs

variable {α β : Type} {x : Settling α} {f : α → Settling β} {a : α} {b : β}
  {known : Vars} {u : PUnit}

theorem run_bind_iff :
    (x >>= f).run vars = .ok (b, vars') ↔ ∃ a known, x.run vars = .ok
    (a, known) ∧ (f a).run known = .ok (b, vars') := by
  rw [StateT.run_bind, bind_eq_ok_iff, Prod.exists]

theorem run_pure_iff {a' : α} :
    (pure a : Settling α).run vars = .ok (a', vars') ↔ a' = a ∧ vars' = vars := by
  rw [StateT.run_pure, pure_eq_ok_iff, Prod.mk.injEq, eq_comm, @eq_comm _ vars]

theorem run_learn_iff : (learn key d).run vars = .ok (u, vars') ↔ vars' = Assoc.set vars key d := by
  constructor
  · intro run
    cases run
    rfl
  · rintro rfl
    rfl

theorem run_lift_iff {x : Outcome α} :
    (liftM x : Settling α).run vars = .ok (a, vars') ↔ x = .ok a ∧ vars' = vars := by
  cases x with
  | error fault =>
    constructor
    · intro run
      cases run
    · rintro ⟨failed, -⟩
      cases failed
  | ok b =>
    constructor
    · intro run
      cases run
      exact ⟨rfl, rfl⟩
    · rintro ⟨same, rfl⟩
      cases same
      rfl

theorem run_get_iff : (get : Settling Vars).run vars = .ok (known, vars') ↔
    known = vars ∧ vars' = vars :=
  run_pure_iff

theorem run_set_iff : (set known : Settling PUnit).run vars = .ok (u, vars') ↔ vars' = known := by
  constructor
  · intro run
    cases run
    rfl
  · rintro rfl
    rfl

end Runs

theorem value_object (untyped : "type" ∉ Assoc.keys attributes) :
    (value r (.object attributes)).run vars =
      (fun x => (Data.map x.1, x.2)) <$> (members r attributes).run vars := by
  rw [value, declaredType_eq_none_iff.mpr untyped]
  rfl

theorem members_cons_iff {rest : List (String × Node)} (untyped : key ≠ "type") :
    (members r ((key, node) :: rest)).run vars = .ok (entries, vars') ↔
      ∃ d known later, (value r node).run vars = .ok (d, known) ∧
        (members r rest).run (Assoc.set known key d) = .ok
        (later, vars') ∧ entries = (key, d) :: later := by
  rw [members, if_neg (by simpa using untyped)]
  simp only [run_bind_iff, run_learn_iff, run_pure_iff]
  constructor
  · rintro ⟨d, known, read, _, _, rfl, later, _, others, rfl, rfl⟩
    exact ⟨d, known, later, read, others, rfl⟩
  · rintro ⟨d, known, later, read, others, rfl⟩
    exact ⟨d, known, read, ⟨⟩, _, rfl, later, vars', others, rfl, rfl⟩

mutual

/-- Settled values have the trees that spell them. -/
theorem tree_eq_ofValue (d : Data) : tree d = ofValue d := by
  cases d with
  | map entries => rw [tree, ofValue, treeEntries_eq_ofEntries]
  | list items => rw [tree, ofValue, treeItems_eq_ofItems]
  | _ => rfl

theorem treeItems_eq_ofItems (items : List Data) : treeItems items = ofItems items := by
  cases items with
  | nil => rfl
  | cons d rest => rw [treeItems, ofItems, tree_eq_ofValue, treeItems_eq_ofItems]

theorem treeEntries_eq_ofEntries (entries : List (String × Data)) :
    treeEntries entries = ofEntries entries := by
  cases entries with
  | nil => rfl
  | cons e rest => rw [treeEntries, ofEntries, tree_eq_ofValue, treeEntries_eq_ofEntries]

end

theorem settled_run (composite : d.Composite) :
    (settled r key d).run vars = (fun tree => (tree, Assoc.set vars key d)) <$> ofValue d := by
  have lifted (x : Outcome Node) : StateT.run (liftM x : Settling Node) (Assoc.set vars key d) =
      (fun tree => (tree, Assoc.set vars key d)) <$> x := by
    cases x <;> rfl
  rw [← lifted, ← tree_eq_ofValue]
  cases composite with
  | scalar plain =>
    cases d with
    | map entries => cases plain
    | _ => rfl
  | map untyped each =>
    rw [settled]
    dsimp only
    rw [get?_eq_none_iff.mpr untyped]
    rfl

/-! ### What a run has read -/

def Known (vars : Vars) : Prop := ∀ e ∈ vars, e.2.Composite

theorem Known.set (known : Known vars) (key : String) (composite : d.Composite) :
    Known (Assoc.set vars key d) :=
  forall_mem_set known composite key

/-- A tree whose value, once read, is composite, and can be spelled only if the tree is without
lists and null. -/
def Reflects (r : Registry) (node : Node) : Prop :=
  ∀ vars d vars', Known vars → (value r node).run vars = .ok (d, vars') →
    d.Composite ∧ Known vars' ∧ ((∃ tree, ofValue d = .ok tree) → node.Throughout Node.Convertible)

theorem members_reflect (untyped : "type" ∉ Assoc.keys attributes)
    (each : ∀ e ∈ attributes, Reflects r e.2)
    (known : Known vars) (run : (members r attributes).run vars = .ok (entries, vars')) :
    Assoc.keys entries = Assoc.keys attributes ∧ (∀ e ∈ entries, e.2.Composite) ∧ Known vars' ∧
      ((∃ trees, ofEntries entries = .ok trees) → ∀ e ∈ attributes,
        e.2.Throughout Node.Convertible) := by
  induction attributes generalizing vars entries with
  | nil =>
    cases run
    exact ⟨rfl, by simp, known, by simp⟩
  | cons e rest ih =>
    obtain ⟨key, node⟩ := e
    rw [keys_cons, mem_cons, not_or] at untyped
    obtain ⟨here, later⟩ := forall_mem_cons.mp each
    obtain ⟨d, known₁, entries, read, others, rfl⟩ := (members_cons_iff (Ne.symm untyped.1)).mp run
    obtain ⟨composite, known₁, spelled⟩ := here _ _ _ known read
    obtain ⟨keys, composites, known', spelledRest⟩ :=
      ih untyped.2 later (known₁.set key composite) others
    refine ⟨by rw [keys_cons, keys_cons, keys],
      forall_mem_cons.mpr ⟨composite, composites⟩, known', ?_⟩
    rintro ⟨trees, all⟩
    obtain ⟨tree, trees, own, others, -⟩ := ofEntries_cons_iff.mp all
    exact forall_mem_cons.mpr ⟨spelled ⟨tree, own⟩, spelledRest ⟨trees, others⟩⟩

theorem value_reflects (nested : node.Nested) : Reflects r node := by
  induction nested with
  | @literal d scalar =>
    intro vars d' vars' known run
    cases run
    refine ⟨.scalar ?_, known, ?_⟩
    · cases d <;> exact scalar
    · rintro ⟨tree, spelled⟩
      refine throughout_iff.mpr ⟨?_, by simp [children]⟩
      cases d with
      | null => cases spelled
      | _ => trivial
  | identifier name =>
    intro vars d vars' known run
    cases run
    refine ⟨?_, known, fun _ => throughout_iff.mpr ⟨trivial, by simp [children]⟩⟩
    unfold Assoc.getD
    cases found : get? vars name with
    | none => exact .scalar rfl
    | some d => exact known _ (mem_of_get? found)
  | list each ih =>
    intro vars d vars' known run
    cases run
  | object untyped each ih =>
    intro vars d vars' known run
    rw [value_object untyped] at run
    obtain ⟨⟨entries, known'⟩, inside, whole⟩ := map_eq_ok run
    cases whole
    obtain ⟨keys, composites, known', spelled⟩ := members_reflect untyped ih known inside
    refine ⟨.map (keys ▸ untyped) composites, known', ?_⟩
    rintro ⟨tree, all⟩
    obtain ⟨trees, all, -⟩ := ofValue_map_iff.mp all
    refine throughout_iff.mpr ⟨trivial, fun child inner => ?_⟩
    obtain ⟨e, mem, rfl⟩ := mem_map.mp inner
    exact spelled ⟨trees, all⟩ e mem

/-! ### Trees without lists and null -/

def Shallow (n : Nat) (vars : Vars) : Prop := ∀ e ∈ vars, e.2.SpelledIn n

theorem Shallow.set (shallow : Shallow n vars) (key : String) (spelled : d.SpelledIn n) :
    Shallow n (Assoc.set vars key d) :=
  forall_mem_set shallow spelled key

theorem Shallow.mono {m : Nat} (shallow : Shallow m vars) (le : m ≤ n) : Shallow n vars :=
  fun e mem => (shallow e mem).mono le

/-- A tree has a value, and the value a spelling, deeper than the known ones by the objects of the
tree at most. -/
def Converts (r : Registry) (node : Node) : Prop :=
  ∀ n vars, Shallow n vars → ∃ d vars', (value r node).run vars = .ok (d, vars') ∧
    d.SpelledIn (n + node.objects) ∧ Shallow (n + node.objects) vars'

theorem members_convert (untyped : "type" ∉ Assoc.keys attributes)
    (each : ∀ e ∈ attributes, Converts r e.2)
    (shallow : Shallow n vars) :
    ∃ entries vars' trees, (members r attributes).run vars = .ok (entries, vars') ∧
      ofEntries entries = .ok trees ∧ stepsEntries trees ≤ n + objectsEntries attributes + 1 ∧
      Shallow (n + objectsEntries attributes) vars' := by
  induction attributes generalizing n vars with
  | nil =>
    exact ⟨[], vars, [], rfl, rfl, by simp [stepsEntries], by simpa [objectsEntries] using shallow⟩
  | cons e rest ih =>
    obtain ⟨key, node⟩ := e
    rw [keys_cons, mem_cons, not_or] at untyped
    obtain ⟨here, later⟩ := forall_mem_cons.mp each
    obtain ⟨d, known, read, ⟨tree, spelled, bound⟩, shallow⟩ := here n vars shallow
    have next : Shallow (n + node.objects) (Assoc.set known key d) :=
      shallow.set key ⟨tree, spelled, bound⟩
    obtain ⟨entries, vars', trees, others, spelledRest, boundRest, shallow'⟩ :=
      ih untyped.2 later next
    refine ⟨(key, d) :: entries, vars', (key, tree) :: trees, ?_, ?_, ?_, ?_⟩
    · exact (members_cons_iff (Ne.symm untyped.1)).mpr ⟨d, known, entries, read, others, rfl⟩
    · exact ofEntries_cons_iff.mpr ⟨tree, trees, spelled, spelledRest, rfl⟩
    · dsimp only at bound
      rw [stepsEntries, objectsEntries]
      omega
    · rw [objectsEntries, ← Nat.add_assoc]
      exact shallow'

theorem value_converts (nested : node.Nested) (convertible : node.Throughout Node.Convertible) :
    Converts r node := by
  induction nested with
  | @literal d scalar =>
    intro n vars shallow
    refine ⟨_, vars, rfl, ?_, shallow⟩
    cases d with
    | list items => cases scalar
    | map entries => cases scalar
    | null => exact (throughout_iff.mp convertible).1.elim
    | _ => exact ⟨_, rfl, by simp [steps]⟩
  | identifier name =>
    intro n vars shallow
    refine ⟨_, vars, rfl, ?_, shallow⟩
    unfold Assoc.getD
    cases found : get? vars name with
    | none => exact ⟨_, rfl, by simp [steps]⟩
    | some d => exact shallow _ (mem_of_get? found)
  | list each ih => exact (throughout_iff.mp convertible).1.elim
  | @object attributes untyped each ih =>
    intro n vars shallow
    have inner : ∀ e ∈ attributes, Converts r e.2 := fun e mem =>
      ih e mem ((throughout_iff.mp convertible).2 e.2 (mem_map_of_mem mem))
    obtain ⟨entries, vars', trees, run, spelled, bound, shallow'⟩ :=
      members_convert untyped inner shallow
    refine ⟨.map entries, vars', ?_,
      ⟨.object trees, ofValue_map_iff.mpr ⟨trees, spelled, rfl⟩, ?_⟩, ?_⟩
    · rw [value_object untyped, run]
      rfl
    · rw [steps, objects, ← Nat.add_assoc]
      exact bound
    · rw [objects, ← Nat.add_assoc]
      exact shallow'.mono (Nat.le_succ _)

/-! ### Statements -/

def statement (r : Registry) : Node → Settling Node
  | .keyValue key node => do return .keyValue key (← settled r key (← value r node))
  | .named name label inner => do return .named name label (← body r inner)
  | node => return node

theorem statementsOf_cons (first : Node) (rest : List Node) :
    statementsOf r (first :: rest) = do return (← statement r first) :: (← statementsOf r rest) := by
  cases first <;> simp [statementsOf, statement]

theorem statementsOf_cons_iff {first : Node} {rest nodes : List Node} :
    (statementsOf r (first :: rest)).run vars = .ok (nodes, vars') ↔
      ∃ node known later, (statement r first).run vars = .ok (node, known) ∧
        (statementsOf r rest).run known = .ok (later, vars') ∧ nodes = node :: later := by
  simp only [statementsOf_cons, run_bind_iff, run_pure_iff]
  constructor
  · rintro ⟨node, known, here, later, _, others, rfl, rfl⟩
    exact ⟨node, known, later, here, others, rfl⟩
  · rintro ⟨node, known, later, here, others, rfl⟩
    exact ⟨node, known, here, later, vars', others, rfl, rfl⟩

theorem statement_keyValue_iff {settled : Node} (nested : node.Nested) (known : Known vars) :
    (statement r (.keyValue key node)).run vars = .ok (settled, vars') ↔
      ∃ d vars₁ tree, (value r node).run vars = .ok (d, vars₁) ∧ ofValue d = .ok tree ∧
        settled = .keyValue key tree ∧ vars' = Assoc.set vars₁ key d := by
  simp only [statement, run_bind_iff, run_pure_iff]
  constructor
  · rintro ⟨d, vars₁, read, tree, _, settles, rfl, rfl⟩
    rw [settled_run (value_reflects nested _ _ _ known read).1] at settles
    obtain ⟨tree, spelled, same⟩ := map_eq_ok settles
    cases same
    exact ⟨d, vars₁, tree, read, spelled, rfl, rfl⟩
  · rintro ⟨d, vars₁, tree, read, spelled, rfl, rfl⟩
    refine ⟨d, vars₁, read, tree, _, ?_, rfl, rfl⟩
    rw [settled_run (value_reflects nested _ _ _ known read).1, spelled]
    rfl

theorem statement_named_iff {name : String} {label : Option String} {statements : List Node}
    {settled : Node} :
    (statement r (.named name label (.block statements))).run vars = .ok (settled, vars') ↔
      ∃ nodes, (statementsOf r statements).run vars = .ok (nodes, vars') ∧
        settled = .named name label (.block nodes) := by
  simp only [statement, body, run_bind_iff, run_pure_iff]
  constructor
  · rintro ⟨_, _, ⟨nodes, _, inside, rfl, rfl⟩, rfl, rfl⟩
    exact ⟨nodes, inside, rfl⟩
  · rintro ⟨nodes, inside, rfl⟩
    exact ⟨_, vars', ⟨nodes, vars', inside, rfl, rfl⟩, rfl, rfl⟩

/-- A statement that settles is without lists and null. -/
def Admits (r : Registry) (first : Node) : Prop :=
  ∀ vars node vars', Known vars → (statement r first).run vars = .ok (node, vars') →
    node.Printable ∧ Known vars' ∧ first.Throughout Node.Convertible

theorem statements_admit {statements nodes : List Node} (each : ∀ s ∈ statements, Admits r s)
    (known : Known vars) (run : (statementsOf r statements).run vars = .ok (nodes, vars')) :
    (∀ s ∈ nodes, s.Printable) ∧ Known vars' ∧ ∀ s ∈ statements, s.Throughout Node.Convertible := by
  induction statements generalizing vars nodes with
  | nil =>
    cases run
    exact ⟨by simp, known, by simp⟩
  | cons first rest ih =>
    obtain ⟨here, later⟩ := forall_mem_cons.mp each
    obtain ⟨node, vars₁, nodes, own, others, rfl⟩ := statementsOf_cons_iff.mp run
    obtain ⟨printable, known₁, convertible⟩ := here _ _ _ known own
    obtain ⟨printables, known', convertibles⟩ := ih later known₁ others
    exact ⟨forall_mem_cons.mpr ⟨printable, printables⟩, known',
      forall_mem_cons.mpr ⟨convertible, convertibles⟩⟩

theorem statement_admits (content : node.Content) : Admits r node := by
  induction content with
  | keyValue key nested =>
    intro vars settled vars' known run
    obtain ⟨d, vars₁, tree, read, spelled, rfl, rfl⟩ := (statement_keyValue_iff nested known).mp run
    obtain ⟨composite, known₁, convertible⟩ := value_reflects nested _ _ _ known read
    refine ⟨.keyValue key (composite.printable tree spelled), known₁.set key composite, ?_⟩
    exact throughout_iff.mpr ⟨trivial, by simpa [children] using convertible ⟨tree, spelled⟩⟩
  | @named name label statements each ih =>
    intro vars settled vars' known run
    obtain ⟨nodes, inside, rfl⟩ := statement_named_iff.mp run
    obtain ⟨printables, known', convertibles⟩ := statements_admit ih known inside
    have block : (block statements).Throughout Node.Convertible :=
      throughout_iff.mpr ⟨trivial, convertibles⟩
    exact ⟨.named name label printables, known',
      throughout_iff.mpr ⟨trivial, by simpa [children] using block⟩⟩

/-- A statement settles to one that is deeper than it and the known values by its objects at most.
-/
def Deepens (r : Registry) (first : Node) : Prop :=
  ∀ n vars, Known vars → Shallow n vars → ∃ node vars',
  (statement r first).run vars = .ok (node, vars') ∧
    node.steps ≤ first.height + n + first.objects ∧ Shallow (n + first.objects) vars'

theorem statements_deepen {statements : List Node} (admitted : ∀ s ∈ statements, Admits r s)
    (each : ∀ s ∈ statements, Deepens r s) (known : Known vars) (shallow : Shallow n vars) :
    ∃ nodes vars', (statementsOf r statements).run vars = .ok (nodes, vars') ∧
      stepsAll nodes ≤ heightAll statements + 1 + n + objectsAll statements ∧
      Shallow (n + objectsAll statements) vars' := by
  induction statements generalizing n vars with
  | nil => exact ⟨[], vars, rfl, by simp [stepsAll], by simpa [objectsAll] using shallow⟩
  | cons first rest ih =>
    obtain ⟨admits, admitRest⟩ := forall_mem_cons.mp admitted
    obtain ⟨here, later⟩ := forall_mem_cons.mp each
    obtain ⟨node, vars₁, own, bound, shallow₁⟩ := here n vars known shallow
    have known₁ := (admits _ _ _ known own).2.1
    obtain ⟨nodes, vars', others, boundRest, shallow'⟩ := ih admitRest later known₁ shallow₁
    refine ⟨node :: nodes, vars',
      statementsOf_cons_iff.mpr ⟨node, vars₁, nodes, own, others, rfl⟩, ?_, ?_⟩
    · rw [stepsAll, heightAll, objectsAll]
      omega
    · rw [objectsAll, ← Nat.add_assoc]
      exact shallow'

theorem statement_deepens (content : node.Content)
    (convertible : node.Throughout Node.Convertible) : Deepens r node := by
  induction content with
  | keyValue key nested =>
    intro n vars known shallow
    have inner := (throughout_iff.mp convertible).2 _ (mem_singleton_self _)
    obtain ⟨d, vars₁, read, ⟨tree, spelled, bound⟩, shallow₁⟩ :=
      value_converts nested inner n vars shallow
    refine ⟨.keyValue key tree, Assoc.set vars₁ key d, ?_, ?_,
      shallow₁.set key ⟨tree, spelled, bound⟩⟩
    · exact (statement_keyValue_iff nested known).mpr ⟨d, vars₁, tree, read, spelled, rfl, rfl⟩
    · rw [steps, height, objects]
      omega
  | @named name label statements each ih =>
    intro n vars known shallow
    have block := (throughout_iff.mp convertible).2 _ (mem_singleton_self _)
    have inner := (throughout_iff.mp block).2
    obtain ⟨nodes, vars', run, bound, shallow'⟩ :=
      statements_deepen (fun s mem => statement_admits (each s mem))
      (fun s mem => ih s mem (inner s mem)) known shallow
    refine ⟨.named name label (.block nodes), vars', statement_named_iff.mpr ⟨nodes, run, rfl⟩,
      ?_, shallow'⟩
    simp only [steps, height, objects]
    omega

section Bodies

variable {statements : List Node} (content : ∀ s ∈ statements, s.Content)

theorem resourceBody_block_iff {settled : Node} : resourceBody r (.block statements) = .ok settled ↔
      ∃ nodes vars, (statementsOf r statements).run [] = .ok (nodes, vars) ∧
        settled = .block nodes := by
  simp only [resourceBody, body, bind_eq_ok_iff, pure_eq_ok_iff, Prod.exists, run_bind_iff,
    run_pure_iff]
  constructor
  · rintro ⟨_, _, ⟨nodes, vars, inside, rfl, rfl⟩, rfl⟩
    exact ⟨nodes, _, inside, rfl⟩
  · rintro ⟨nodes, vars, inside, rfl⟩
    exact ⟨_, vars, ⟨nodes, vars, inside, rfl, rfl⟩, rfl⟩

include content

theorem convertible_of_resourceBody {settled : Node}
    (run : resourceBody r (.block statements) = .ok settled) :
    settled.Printable ∧ (block statements).Throughout Node.Convertible := by
  obtain ⟨nodes, vars, inside, rfl⟩ := resourceBody_block_iff.mp run
  obtain ⟨printables, -, convertibles⟩ :=
    statements_admit (fun s mem => statement_admits (content s mem))
    (fun e mem => by cases mem) inside
  exact ⟨.block printables, throughout_iff.mpr ⟨trivial, convertibles⟩⟩

theorem exists_resourceBody (convertible : (block statements).Throughout Node.Convertible) :
    ∃ settled, resourceBody r (.block statements) = .ok settled ∧
      settled.steps ≤ (block statements).height + (block statements).objects := by
  have inner := (throughout_iff.mp convertible).2
  have known : Known [] := fun e mem => by cases mem
  have shallow : Shallow 0 [] := fun e mem => by cases mem
  obtain ⟨nodes, vars, run, bound, -⟩ :=
    statements_deepen (r := r) (fun s mem => statement_admits (content s mem))
    (fun s mem => statement_deepens (content s mem) (inner s mem)) known shallow
  refine ⟨.block nodes, resourceBody_block_iff.mpr ⟨nodes, vars, run, rfl⟩, ?_⟩
  simp only [steps, height, objects]
  omega

end Bodies

end Settle
end Stratus
