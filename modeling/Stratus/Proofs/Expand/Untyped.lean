import Stratus.Proofs.Expand.NormalForm
import Stratus.Proofs.Parser.Shape

/-!
Trees without types. Where no block and no object of a parsed tree says of what type it is,
expansion gives back the tree itself as soon as it may go as deep as the tree is nested.
-/
namespace Stratus

open Assoc hiding set
open Node

variable {statements : List Node}

namespace Node

mutual

/-- The steps down that expansion takes in a tree. The value of a pair in a block stands as deep as
the pair. -/
def nesting : Node → Nat
  | block statements => nestingStatements statements
  | keyValue _ value => nesting value + 1
  | list elements => nestingAll elements
  | object attributes => nestingEntries attributes
  | named _ _ body => nesting body + 1
  | _ => 0

def nestingStatements : List Node → Nat
  | [] => 0
  | keyValue _ value :: rest => max (nesting value + 1) (nestingStatements rest)
  | n :: rest => max (nesting n + 1) (nestingStatements rest)

def nestingAll : List Node → Nat
  | [] => 0
  | n :: rest => max (nesting n + 1) (nestingAll rest)

def nestingEntries : List (String × Node) → Nat
  | [] => 0
  | (_, n) :: rest => max (nesting n + 1) (nestingEntries rest)

end

/-- The tree with which expansion goes on at a statement. -/
def entered : Node → Node
  | keyValue _ value => value
  | n => n

section Nesting

variable {depth : Nat}

theorem nestingAll_lt_iff {elements : List Node} :
    nestingAll elements < depth + 1 ↔ ∀ n ∈ elements, n.nesting < depth := by
  induction elements with
  | nil => simp [nestingAll]
  | cons n rest ih =>
    rw [nestingAll, max_lt_iff, ih, Nat.add_lt_add_iff_right, List.forall_mem_cons]

theorem nestingEntries_lt_iff {attributes : List (String × Node)} :
    nestingEntries attributes < depth + 1 ↔ ∀ e ∈ attributes, e.2.nesting < depth := by
  induction attributes with
  | nil => simp [nestingEntries]
  | cons e rest ih =>
    rw [nestingEntries, max_lt_iff, ih, Nat.add_lt_add_iff_right, List.forall_mem_cons]

theorem nestingStatements_lt_iff :
    nestingStatements statements < depth + 1 ↔ ∀ s ∈ statements, s.entered.nesting < depth := by
  induction statements with
  | nil => simp [nestingStatements]
  | cons s rest ih =>
    have split : nestingStatements (s :: rest) =
        max (s.entered.nesting + 1) (nestingStatements rest) := by
      cases s <;> simp [nestingStatements, entered]
    rw [split, max_lt_iff, ih, Nat.add_lt_add_iff_right, List.forall_mem_cons]

end Nesting

def SaysNoType : Node → Prop
  | block statements => ∀ value, keyValue "type" value ∉ statements
  | object attributes => "type" ∉ Assoc.keys attributes
  | _ => True

/-- Without blocks or objects that say of what type they are. -/
def Untyped (n : Node) : Prop := n.Throughout SaysNoType

end Node

namespace Outcome

variable {α : Type} {P : α → Prop}

theorem mapM_eq_ok_iff_self {f : α → Outcome α} {xs ys : List α}
    (h : ∀ x ∈ xs, ∀ y, f x = .ok y ↔ y = x ∧ P x) :
    xs.mapM f = .ok ys ↔ ys = xs ∧ ∀ x ∈ xs, P x := by
  rw [mapM_eq_ok_iff]
  induction xs generalizing ys with
  | nil => simp
  | cons x xs ih =>
    rw [List.forall_mem_cons] at h
    rw [List.forall₂_cons_left_iff, List.forall_mem_cons]
    constructor
    · rintro ⟨y, ys', first, rest, rfl⟩
      obtain ⟨rfl, hx⟩ := (h.1 y).mp first
      obtain ⟨rfl, hxs⟩ := (ih h.2).mp rest
      exact ⟨rfl, hx, hxs⟩
    · rintro ⟨rfl, hx, hxs⟩
      exact ⟨x, xs, (h.1 x).mpr ⟨rfl, hx⟩, (ih h.2).mpr ⟨rfl, hxs⟩, rfl⟩

theorem map_eq_ok_iff_self {β : Type} {x : Outcome α} {f : α → β} {a : α} {b : β} {c : Prop}
    (h : ∀ y, x = .ok y ↔ y = a ∧ c) : f <$> x = .ok b ↔ b = f a ∧ c := by
  simp only [map_eq_ok_iff, h]
  constructor
  · rintro ⟨_, ⟨rfl, hc⟩, rfl⟩
    exact ⟨rfl, hc⟩
  · rintro ⟨rfl, hc⟩
    exact ⟨a, ⟨rfl, hc⟩, rfl⟩

end Outcome

namespace Expand

variable {r : Registry} {expand : Node → Outcome Node} {depth : Nat}

/-- An expansion that may go down a number of steps gives back a tree, if the tree is not nested
deeper. -/
def Fixes (expand : Node → Outcome Node) (depth : Nat) (n : Node) : Prop :=
  ∀ n', expand n = .ok n' ↔ n' = n ∧ n.nesting < depth

theorem attributes_fixes {m m' : Assoc Node} (untyped : "type" ∉ Assoc.keys m)
    (h : ∀ e ∈ m, Fixes expand depth e.2) :
    attributes r expand m = .ok m' ↔ m' = m ∧ ∀ e ∈ m, e.2.nesting < depth := by
  have free : registeredType r m = .ok none := by
    rw [registeredType, declaredType, get?_eq_none_iff.mpr untyped]
    rfl
  have each : Assoc.mapValuesM expand m = .ok m' ↔ m' = m ∧ ∀ e ∈ m, e.2.nesting < depth :=
    Outcome.mapM_eq_ok_iff_self fun e mem _ => Outcome.map_eq_ok_iff_self (h e mem)
  rw [attributes_eq_ok_iff, free, each]
  simp

theorem statement_fixes {s s' : Node} (h : Fixes expand depth s.entered) :
    statement expand s = .ok s' ↔ s' = s ∧ s.entered.nesting < depth := by
  cases s with
  | keyValue key value => exact Outcome.map_eq_ok_iff_self h
  | _ => exact h s'

/-- Pairs of which none gives a type give none when they are read as writes. -/
theorem not_contains_of_untyped {pairs : List (String × Node)}
    (untyped : ∀ value, .keyValue "type" value ∉ statements)
    (found : pairs? statements = some pairs) :
    Assoc.contains (Assoc.ofPairs pairs) "type" = false := by
  rw [Bool.eq_false_iff, Ne, contains_iff]
  intro given
  obtain ⟨⟨key, value⟩, mem, rfl⟩ := List.mem_map.mp given
  rw [pairs?_eq_some_iff, ofPairs, Node.block.injEq] at found
  exact untyped value (found ▸ List.mem_map_of_mem (mem_of_mem_ofPairs mem))

theorem block_fixes {statements : List Node} {n : Node}
    (untyped : ∀ value, .keyValue "type" value ∉ statements)
    (h : ∀ s ∈ statements, Fixes expand depth s.entered) :
    block r expand statements = .ok n ↔
      n = .block statements ∧ ∀ s ∈ statements, s.entered.nesting < depth := by
  have each {expanded : List Node} : statements.mapM (statement expand) = .ok expanded ↔
      expanded = statements ∧ ∀ s ∈ statements, s.entered.nesting < depth :=
    Outcome.mapM_eq_ok_iff_self fun s mem _ => statement_fixes (h s mem)
  rw [block_eq_ok_iff]
  constructor
  · rintro ⟨expanded, run, ⟨pairs, m, found, typed, -⟩ | ⟨-, rfl⟩⟩
    · obtain ⟨rfl, -⟩ := each.mp run
      rw [not_contains_of_untyped untyped found] at typed
      cases typed
    · obtain ⟨rfl, deep⟩ := each.mp run
      exact ⟨rfl, deep⟩
  · rintro ⟨rfl, deep⟩
    exact ⟨statements, each.mpr ⟨rfl, deep⟩,
      .inr ⟨fun _ found => not_contains_of_untyped untyped found, rfl⟩⟩

/-- No object stands in a block, so that none is taken out of it. -/
theorem namedBody_fixes {statements : List Node} {body : Node}
    (regular : (Node.block statements).Regular)
    (h : Fixes expand depth (.block statements)) : namedBody expand (.block statements) = .ok body ↔
      body = .block statements ∧ (Node.block statements).nesting < depth := by
  have noObject (attributes : List (String × Node)) : statements ≠ [.object attributes] := by
    rintro rfl
    cases regular _ List.mem_cons_self
  rw [namedBody_eq_ok_iff]
  constructor
  · rintro ⟨expanded, run, ⟨attributes, _, rfl, -⟩ | ⟨-, rfl⟩⟩
    · exact (noObject attributes (Node.block.inj ((h _).mp run).1).symm).elim
    · exact (h _).mp run
  · rintro ⟨rfl, deep⟩
    exact ⟨statements, (h _).mpr ⟨rfl, deep⟩, .inr ⟨noObject, rfl⟩⟩

/-- One case for each form that expansion looks into; every step down leaves one step less. -/
theorem within_fixes (r : Registry) (depth : Nat) {n : Node} (shaped : n.Shaped)
    (untyped : n.Untyped) :
    Fixes (within r depth) depth n := by
  induction depth generalizing n with
  | zero => simp [Fixes, within]
  | succ depth ih =>
    have inner {n child : Node} (shaped : n.Shaped) (untyped : n.Untyped) (mem : child ∈ n.children) :
        child.Shaped ∧ child.Untyped := ⟨shaped.child mem, (throughout_iff.mp untyped).2 child mem⟩
    have below (child : Node) (mem : child ∈ n.children) : Fixes (within r depth) depth child :=
      have h := inner shaped untyped mem
      ih h.1 h.2
    have regular := (throughout_iff.mp shaped).1
    have free := (throughout_iff.mp untyped).1
    intro n'
    rw [within]
    cases n with
    | object attributes =>
      rw [step, ofPairs_of_nodup regular, nesting, nestingEntries_lt_iff]
      refine Outcome.map_eq_ok_iff_self fun m => ?_
      exact attributes_fixes free fun e mem => below e.2 (List.mem_map_of_mem mem)
    | list elements =>
      rw [step, nesting, nestingAll_lt_iff]
      exact Outcome.map_eq_ok_iff_self fun ns => Outcome.mapM_eq_ok_iff_self below
    | block statements =>
      rw [step, nesting, nestingStatements_lt_iff]
      refine block_fixes free fun s mem => ?_
      cases s with
      | keyValue key value =>
        -- Expansion skips the pair, so its value is two levels down and needs both to be shaped.
        have pair := inner shaped untyped mem
        have h := inner pair.1 pair.2 List.mem_cons_self
        exact ih h.1 h.2
      | _ => exact below _ mem
    | named name label body =>
      have body_ := inner shaped untyped List.mem_cons_self
      rw [step, nesting, Nat.add_lt_add_iff_right]
      refine Outcome.map_eq_ok_iff_self fun body' => ?_
      -- The parser gives a named block no other body than a block.
      cases body with
      | block statements =>
        exact namedBody_fixes (throughout_iff.mp body_.1).1 (ih body_.1 body_.2)
      | _ => cases regular
    | keyValue key value =>
      rw [step, nesting, Nat.add_lt_add_iff_right]
      exact Outcome.map_eq_ok_iff_self (below value List.mem_cons_self)
    | _ => simp [step, nesting, eq_comm]

end Expand

/-- Expansion of a program in which no block and no object says of what type it is returns the
program itself, if it may go as deep as the program is nested. -/
theorem Node.expand_untyped {depth : Nat} {s s' : Parser.State} {node : Node}
    (run : (Parser.program (Parser.grammar depth)).run s = .ok (node, s')) (untyped : node.Untyped)
    (r : Registry) :
    (node.nesting < Expand.maxDepth → node.expand r = .ok node) ∧
      ∀ steps expanded, Expand.within r steps node = .ok expanded ↔
        expanded = node ∧ node.nesting < steps := by
  have shaped : node.Shaped := Parser.program_yields depth s node s' run
  have fixes (steps : Nat) : Expand.Fixes (Expand.within r steps) steps node :=
    Expand.within_fixes r steps shaped untyped
  exact ⟨fun shallow => (fixes Expand.maxDepth node).mpr ⟨rfl, shallow⟩, fixes⟩

/-- A named block with an object and a list in it, under the name of a registered type. -/
theorem Node.expand_untyped_sizes :
    let tokens : List Token := [⟨.identifier, "Size", 1, 1⟩, ⟨.leftBrace, "\x7b", 1, 6⟩,
      ⟨.identifier, "disk", 1, 8⟩,
      ⟨.equals, "=", 1, 13⟩, ⟨.leftBrace, "\x7b", 1, 15⟩, ⟨.identifier, "name", 1, 16⟩,
        ⟨.equals, "=", 1, 21⟩,
      ⟨.string, "fast", 1, 23⟩, ⟨.rightBrace, "\x7d", 1, 29⟩, ⟨.identifier, "cores", 1, 31⟩,
        ⟨.equals, "=", 1, 37⟩,
      ⟨.leftBracket, "[", 1, 39⟩, ⟨.number, "1", 1, 40⟩, ⟨.rightBracket, "]", 1, 41⟩,
        ⟨.rightBrace, "\x7d", 1, 43⟩,
      ⟨.endOfFile, "", 1, 44⟩]
    let node : Node := .block [.named "Size" none (.block [
      .keyValue "disk" (.object [("name", .literal (.str "fast"))]),
        .keyValue "cores" (.list [.literal (.int 1)])])]
    let r : Registry := [("Size", ⟨"Size", [], none⟩)]
    Prod.fst <$> (Parser.program (Parser.grammar (Parser.depthFor tokens))).run
      { tokens := tokens.toArray } = .ok node ∧
      node.Untyped ∧ node.nesting < Expand.maxDepth ∧ node.expand r = .ok node := by
  intro tokens node r
  have read : Prod.fst <$> (Parser.program (Parser.grammar (Parser.depthFor tokens))).run
      { tokens := tokens.toArray } = .ok node := by cbv
  obtain ⟨⟨_, s'⟩, run, rfl⟩ := Outcome.map_eq_ok read
  have leaf (d : Data) : (literal d).Untyped := throughout_iff.mpr ⟨trivial, by simp [children]⟩
  have around {n : Node} (own : n.SaysNoType) (inner : ∀ child ∈ n.children, child.Untyped) :
      n.Untyped :=
    throughout_iff.mpr ⟨own, inner⟩
  have disk : (object [("name", .literal (.str "fast"))]).Untyped :=
    around (by simp [Node.SaysNoType, Assoc.keys]) (by simpa [children] using leaf _)
  have cores : (list [.literal (.int 1)]).Untyped := around trivial (by simpa [children] using leaf _)
  have pair (key : String) {value : Node} (h : value.Untyped) : (keyValue key value).Untyped :=
    around trivial (by simpa [children] using h)
  have body := around (n := .block [.keyValue "disk" _, .keyValue "cores" _])
    (by simp [Node.SaysNoType])
    (by simpa [children] using ⟨pair "disk" disk, pair "cores" cores⟩)
  have untyped : node.Untyped := around (by simp [node, Node.SaysNoType]) (by
    simpa [node, children] using
      around (n := .named "Size" none _) trivial (by simpa [children] using body))
  have shallow : node.nesting < Expand.maxDepth := by decide
  exact ⟨read, untyped, shallow, (expand_untyped run untyped r).1 shallow⟩

end Stratus
