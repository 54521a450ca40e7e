import Stratus.Proofs.Typing.Defaults
import Stratus.Source.Expand

/-!
The normal form of expansion. Expansion goes on with trees that it has built itself, so the argument
follows its depth and not the tree.
-/
namespace Stratus

open Assoc hiding set
open Node

open Outcome

variable {name : String}

namespace Node

/-- The trees that expansion reaches inside a tree, and the tree itself. -/
inductive Part : Node → Node → Prop where
  | self (n : Node) : Part n n
  | statement {p s : Node} {statements : List Node} :
      s ∈ statements → Part p s → Part p (block statements)
  | value {p value : Node} {key : String} : Part p value → Part p (keyValue key value)
  | body {p body : Node} {name : String} {label : Option String} : Part p body →
      Part p (named name label body)
  | member {p n : Node} {key : String} {attributes : List (String × Node)} :
      (key, n) ∈ attributes → Part p n → Part p (object attributes)
  | element {p n : Node} {elements : List Node} : n ∈ elements → Part p n → Part p (list elements)

/-- A property holds of a tree wherever expansion reaches. -/
def Everywhere (P : Node → Prop) (n : Node) : Prop := ∀ part : Node, part.Part n → P part

def typeName? : Node → Option String
  | identifier name | literal (.str name) => some name
  | _ => none

/-- An object, or a block of nothing but pairs, that says it is of a type. -/
def InstanceOf (name : String) : Node → Prop
  | object attributes => ∃ type, ("type", type) ∈ attributes ∧ type.typeName? = some name
  | block statements =>
    (∀ s ∈ statements, s.isKeyValue = true) ∧
      ∃ type, keyValue "type" type ∈ statements ∧ type.typeName? = some name
  | _ => False

def Instance (r : Registry) (n : Node) : Prop := ∃ name, n.InstanceOf name ∧ contains r name = true

/-- Without instances of registered types. -/
def Plain (r : Registry) (n : Node) : Prop := n.Everywhere fun part => ¬ part.Instance r

section Everywhere

variable {P : Node → Prop}

@[simp] theorem everywhere_identifier_iff : (identifier name).Everywhere P ↔ P (identifier name) := by
  constructor
  · exact fun h => h _ (.self _)
  · rintro whole part ⟨⟩
    exact whole

@[simp] theorem everywhere_literal_iff {d : Data} : (literal d).Everywhere P ↔ P (literal d) := by
  constructor
  · exact fun h => h _ (.self _)
  · rintro whole part ⟨⟩
    exact whole

@[simp] theorem everywhere_keyValue_iff {key : String} {value : Node} :
    (keyValue key value).Everywhere P ↔ P (keyValue key value) ∧ value.Everywhere P := by
  constructor
  · exact fun h => ⟨h _ (.self _), fun part inside => h part (.value inside)⟩
  · rintro ⟨whole, inner⟩ part inside
    cases inside with
    | self => exact whole
    | value inside => exact inner part inside

@[simp] theorem everywhere_named_iff {label : Option String} {body : Node} :
    (named name label body).Everywhere P ↔ P (named name label body) ∧ body.Everywhere P := by
  constructor
  · exact fun h => ⟨h _ (.self _), fun part inside => h part (.body inside)⟩
  · rintro ⟨whole, inner⟩ part inside
    cases inside with
    | self => exact whole
    | body inside => exact inner part inside

@[simp] theorem everywhere_list_iff {elements : List Node} :
    (list elements).Everywhere P ↔ P (list elements) ∧ ∀ n ∈ elements, n.Everywhere P := by
  constructor
  · exact fun h => ⟨h _ (.self _), fun n member part inside => h part (.element member inside)⟩
  · rintro ⟨whole, inner⟩ part inside
    cases inside with
    | self => exact whole
    | element member inside => exact inner _ member part inside

@[simp] theorem everywhere_object_iff {attributes : List (String × Node)} :
    (object attributes).Everywhere P ↔
      P (object attributes) ∧ ∀ key n, (key, n) ∈ attributes → n.Everywhere P := by
  constructor
  · exact fun h => ⟨h _ (.self _), fun key n member part inside => h part (.member member inside)⟩
  · rintro ⟨whole, inner⟩ part inside
    cases inside with
    | self => exact whole
    | member member inside => exact inner _ _ member part inside

@[simp] theorem everywhere_block_iff {statements : List Node} :
    (block statements).Everywhere P ↔ P (block statements) ∧ ∀ s ∈ statements, s.Everywhere P := by
  constructor
  · exact fun h => ⟨h _ (.self _), fun s member part inside => h part (.statement member inside)⟩
  · rintro ⟨whole, inner⟩ part inside
    cases inside with
    | self => exact whole
    | statement member inside => exact inner _ member part inside

end Everywhere

theorem ofEntries_eq (entries : List (String × Data)) :
    ofEntries entries = mapValuesM ofValue entries := by
  induction entries with
  | nil => rfl
  | cons e rest ih => rw [ofEntries, ih, mapValuesM_cons]

end Node

namespace Expand

variable {r : Registry} {expand : Node → Outcome Node} {body body' : Node} {type : Node} {s' : Node}

/-- What one depth of expansion establishes for the next. -/
structure Settles (r : Registry) (expand : Node → Outcome Node) : Prop where
  fixed : ∀ {n n'}, expand n = .ok n' → expand n' = .ok n'
  plain : ∀ {n n'}, expand n = .ok n' → n'.Plain r
  keyValue : ∀ {n n'}, expand n = .ok n' → n'.isKeyValue = n.isKeyValue
  atom : ∀ {n n'}, n.isAtom = true ∨ n'.isAtom = true → expand n = .ok n' → n' = n
  unwrapped : ∀ {attributes members}, expand (.object attributes) = .ok (.object members) →
    expand (ofPairs members) = .ok (ofPairs members)

/-! ### Members of an object -/

variable {m m' : Assoc Node} {statements : List Node} {s n : Node}

theorem registeredType_congr (h : get? m "type" = get? m' "type") :
    registeredType r m = registeredType r m' := by
  unfold registeredType declaredType
  rw [h]

theorem registeredType_eq_some_iff :
    registeredType r m = .ok (some name) ↔ ∃ type, get? m "type" = some type ∧
      type.typeName? = some name ∧ contains r name = true := by
  have asked (other : String) : (if contains r other then some other else none) = some name ↔
      other = name ∧ contains r name = true := by
    split
    · next known => exact ⟨fun h =>
        ⟨Option.some.inj h, Option.some.inj h ▸ known⟩, fun h => h.1 ▸ rfl⟩
    · next unknown => exact ⟨nofun, fun h => absurd (h.1 ▸ h.2) unknown⟩
  unfold registeredType declaredType
  cases get? m "type" with
  | none => simp [bind, Except.bind, pure, Except.pure]
  | some type =>
    cases type with
    | identifier other => simp [typeName?, Data.asKey?, bind, Except.bind, pure, Except.pure, asked]
    | literal d =>
      cases d with
      | str other => simp [typeName?, Data.asKey?, bind, Except.bind, pure, Except.pure, asked]
      | _ => simp [typeName?, Data.asKey?, Data.hashable, bind, Except.bind, pure, Except.pure]
    | _ => simp [typeName?, bind, Except.bind]

theorem isAtom_of_registeredType {o : Option String}
    (h : registeredType r m = .ok o) (found : get? m "type" = some type) : type.isAtom = true := by
  unfold registeredType declaredType at h
  rw [found] at h
  cases type with
  | identifier | literal => rfl
  | _ => cases h

theorem attributes_eq_ok_iff : attributes r expand m = .ok m' ↔
      (∃ name, registeredType r m = .ok (some name) ∧ fieldsOf r expand name m = .ok m') ∨
      registeredType r m = .ok none ∧ mapValuesM expand m = .ok m' := by
  rw [attributes, bind_eq_ok_iff]
  constructor
  · rintro ⟨none | name, found, run⟩
    · exact .inr ⟨found, run⟩
    · exact .inl ⟨name, found, run⟩
  · rintro (⟨name, found, run⟩ | ⟨found, run⟩)
    · exact ⟨some name, found, run⟩
    · exact ⟨none, found, run⟩

theorem fieldsOf_eq_ok_iff : fieldsOf r expand name m = .ok m' ↔ ∃ values completed nodes,
      mapValuesM (fun n => expand n >>= toValue) (m.filter (·.1 != "type")) = .ok values ∧
      r.complete (.str name) (.map values) (some fun e known => e.evaluate .fields known) =
        .ok completed ∧
      ofEntries (erase completed "type") = .ok nodes ∧ mapValuesM expand nodes = .ok m' := by
  simp only [fieldsOf, bind_eq_ok_iff]
  tauto

structure Finished (r : Registry) (expand : Node → Outcome Node) (m : Assoc Node) : Prop where
  nodup : (keys m).Nodup
  untyped : registeredType r m = .ok none
  fixed : ∀ key n, (key, n) ∈ m → expand n = .ok n
  plain : ∀ key n, (key, n) ∈ m → n.Plain r

namespace Finished

variable {m : Assoc Node}

theorem attributes (h : Finished r expand m) : attributes r expand m = .ok m :=
  attributes_eq_ok_iff.mpr (.inr ⟨h.untyped, mapValuesM_self h.fixed⟩)

theorem not_contains (h : Finished r expand m) (member : ("type", type) ∈ m)
    (spelled : type.typeName? = some name) : ¬ contains r name = true := by
  intro known
  have typed := registeredType_eq_some_iff.mpr ⟨type, get?_of_mem h.nodup member, spelled, known⟩
  rw [h.untyped] at typed
  cases typed

theorem object (h : Finished r expand m) : (object m).Plain r := by
  refine everywhere_object_iff.mpr ⟨?_, h.plain⟩
  rintro ⟨name, ⟨type, member, spelled⟩, known⟩
  exact h.not_contains member spelled known

end Finished

theorem attributes_finished (settles : Settles r expand) (nodup : (keys m).Nodup)
    (run : attributes r expand m = .ok m') : Finished r expand m' := by
  have finished {nodes : Assoc Node} (each : mapValuesM expand nodes = .ok m')
      (nodup : (keys nodes).Nodup) (untyped : registeredType r m' = .ok none) :
        Finished r expand m' := by
    have source (key : String) (n : Node) (member : (key, n) ∈ m') : ∃ n₀, expand n₀ = .ok n := by
      obtain ⟨n₀, _, one⟩ := exists_of_mem_mapValuesM each member
      exact ⟨n₀, one⟩
    exact {
      nodup := keys_mapValuesM each ▸ nodup
      untyped
      fixed := fun key n member => settles.fixed (source key n member).choose_spec
      plain := fun key n member => settles.plain (source key n member).choose_spec }
  rcases attributes_eq_ok_iff.mp run with ⟨name, _, fields⟩ | ⟨untyped, each⟩
  · obtain ⟨_, completed, nodes, _, complete, ofEntries, each⟩ := fieldsOf_eq_ok_iff.mp fields
    have distinct := Registry.nodup_keys_complete complete
    have kept : keys nodes = keys (erase completed "type") :=
      keys_mapValuesM (ofEntries_eq _ ▸ ofEntries)
    refine finished each (kept ▸ nodup_keys_erase distinct "type") ?_
    have erased : "type" ∉ keys m' := by
      rw [keys_mapValuesM each, kept]
      exact not_mem_keys_erase distinct "type"
    have none : get? m' "type" = get? [] "type" := get?_eq_none_iff.mpr erased
    exact registeredType_congr none
  · refine finished each nodup ?_
    rw [← untyped]
    refine registeredType_congr ?_
    -- the type is an atom, which expansion does not change
    have pair := get?_mapValuesM each "type"
    generalize get? m' "type" = found' at pair
    cases found : get? m "type" with
    | none =>
      rw [found] at pair
      cases pair
      rfl
    | some type =>
      rw [found] at pair
      cases pair with
      | some one => rw [settles.atom (.inl (isAtom_of_registeredType untyped found)) one]

/-! ### Statements of a block -/

theorem pairs?_eq_some_iff {pairs : List (String × Node)} :
    pairs? statements = some pairs ↔ Node.block statements = ofPairs pairs := by
  induction statements generalizing pairs with
  | nil => cases pairs <;> simp [pairs?, ofPairs]
  | cons s rest ih =>
    cases pairs with
    | nil => cases s <;> simp [pairs?, ofPairs]
    | cons e pairs =>
      obtain ⟨key, value⟩ := e
      cases s with
      | keyValue key' value' =>
        have later : pairs? rest = some pairs ↔ rest = pairs.map fun e => .keyValue e.1 e.2 :=
          ih.trans (by rw [ofPairs, Node.block.injEq])
        simp [pairs?, ofPairs, later, and_comm]
      | _ => simp [pairs?, ofPairs]

theorem Finished.block (h : Finished r expand m) :
    block r expand (m.map fun e => .keyValue e.1 e.2) = .ok (ofPairs m) := by
  have statements : (m.map fun e => keyValue e.1 e.2).mapM (statement expand) =
      .ok (m.map fun e => keyValue e.1 e.2) := by
    refine mapM_self fun s member => ?_
    obtain ⟨e, inside, rfl⟩ := List.mem_map.mp member
    rw [statement, h.fixed e.1 e.2 inside]
    rfl
  have pairs : pairs? (m.map fun e => keyValue e.1 e.2) = some m := pairs?_eq_some_iff.mpr rfl
  rw [Expand.block, statements]
  simp only [bind, Except.bind, pairs, ofPairs_of_nodup h.nodup, h.attributes]
  split <;> rfl

theorem Finished.ofPairs (h : Finished r expand m) : (ofPairs m).Plain r := by
  have pair {s : Node} (member : s ∈ m.map fun e => keyValue e.1 e.2) :
      ∃ key value, (key, value) ∈ m ∧ s = .keyValue key value := by
    obtain ⟨e, inside, rfl⟩ := List.mem_map.mp member
    exact ⟨e.1, e.2, inside, rfl⟩
  refine everywhere_block_iff.mpr ⟨?_, fun s member => ?_⟩
  · rintro ⟨name, ⟨_, type, member, spelled⟩, known⟩
    obtain ⟨key, value, inside, same⟩ := pair member
    cases same
    exact h.not_contains inside spelled known
  · obtain ⟨key, value, inside, rfl⟩ := pair member
    exact everywhere_keyValue_iff.mpr ⟨fun h => h.choose_spec.1, h.plain key value inside⟩

theorem statement_of_not_keyValue (h : s.isKeyValue = false) : statement expand s = expand s := by
  cases s with
  | keyValue => cases h
  | _ => rfl

theorem statement_eq_ok_iff : statement expand s = .ok s' ↔
      (∃ key value value', s = .keyValue key value ∧ expand value = .ok value' ∧
        .keyValue key value' = s') ∨
      s.isKeyValue = false ∧ expand s = .ok s' := by
  cases form : s.isKeyValue with
  | true =>
    cases s with
    | keyValue key value =>
      rw [statement, map_eq_ok_iff]
      simp
    | _ => cases form
  | false =>
    rw [statement_of_not_keyValue form]
    constructor
    · exact fun run => .inr ⟨rfl, run⟩
    · rintro (⟨_, _, _, rfl, _⟩ | ⟨_, run⟩)
      · cases form
      · exact run

theorem statement_settles (settles : Settles r expand) (run : statement expand s = .ok s') :
    statement expand s' = .ok s' ∧ s'.Plain r := by
  rcases statement_eq_ok_iff.mp run with ⟨key, value, value', rfl, inner, rfl⟩ | ⟨form, inner⟩
  · exact ⟨map_eq_ok_iff.mpr ⟨value', settles.fixed inner, rfl⟩,
      everywhere_keyValue_iff.mpr ⟨fun h => h.choose_spec.1, settles.plain inner⟩⟩
  · exact ⟨statement_eq_ok_iff.mpr (.inr ⟨(settles.keyValue inner).trans form, settles.fixed inner⟩),
      settles.plain inner⟩

theorem pairs?_isSome (h : ∀ s ∈ statements, s.isKeyValue = true) :
    ∃ pairs, pairs? statements = some pairs := by
  induction statements with
  | nil => exact ⟨[], rfl⟩
  | cons s rest ih =>
    obtain ⟨pairs, found⟩ := ih fun s member => h s (List.mem_cons_of_mem _ member)
    have form := h s List.mem_cons_self
    cases s with
    | keyValue key value => exact ⟨(key, value) :: pairs, by simp [pairs?, found]⟩
    | _ => cases form

/-- A block is rewritten as its finished members, or keeps its expanded statements. -/
theorem block_eq_ok_iff :
    block r expand statements = .ok n ↔
      ∃ expanded, statements.mapM (statement expand) = .ok expanded ∧
      ((∃ pairs m, pairs? expanded = some pairs ∧ contains (Assoc.ofPairs pairs) "type" = true ∧
          attributes r expand (Assoc.ofPairs pairs) = .ok m ∧ ofPairs m = n) ∨
        (∀ pairs, pairs? expanded = some pairs → contains (Assoc.ofPairs pairs) "type" = false) ∧
          .block expanded = n) := by
  rw [block, bind_eq_ok_iff]
  refine exists_congr fun expanded => and_congr_right fun _ => ?_
  cases pairs? expanded with
  | none => simp [pure, Except.pure]
  | some pairs =>
    cases typed : contains (Assoc.ofPairs pairs) "type" with
    | true => simp [bind_eq_ok_iff, pure, Except.pure, typed]
    | false => simp [pure, Except.pure, typed]

theorem block_settles (settles : Settles r expand) (run : block r expand statements = .ok n) :
    ∃ final, n = .block final ∧ block r expand final = .ok n ∧ n.Plain r := by
  obtain ⟨expanded, each, ⟨pairs, m, _, _, members, rfl⟩ | ⟨untyped, rfl⟩⟩ := block_eq_ok_iff.mp run
  · have finished := attributes_finished settles (nodup_keys_ofPairs pairs) members
    exact ⟨_, rfl, finished.block, finished.ofPairs⟩
  · have settled (s' : Node) (member : s' ∈ expanded) : statement expand s' = .ok s' ∧
        s'.Plain r := by
      obtain ⟨s, _, one⟩ := exists_of_mem_mapM each member
      exact statement_settles settles one
    refine ⟨expanded, rfl, block_eq_ok_iff.mpr ⟨expanded, ?_, .inr ⟨untyped, rfl⟩⟩, ?_⟩
    · exact mapM_self fun s member => (settled s member).1
    · refine everywhere_block_iff.mpr ⟨?_, fun s member => (settled s member).2⟩
      rintro ⟨_, ⟨keyed, type, member, _⟩, _⟩
      obtain ⟨pairs, found⟩ := pairs?_isSome keyed
      have other := untyped pairs found
      rw [pairs?_eq_some_iff, ofPairs, Node.block.injEq] at found
      obtain ⟨⟨key, value⟩, inside, same⟩ := List.mem_map.mp (found ▸ member)
      cases same
      have typed : contains (Assoc.ofPairs pairs) "type" = true :=
        contains_update_iff.mpr (.inr (contains_iff.mpr (mem_keys inside)))
      rw [other] at typed
      cases typed

/-- The body of a named block is rewritten as the members of its only object, or just expanded. -/
theorem namedBody_eq_ok_iff :
    namedBody expand body = .ok body' ↔ ∃ statements, expand body = .ok (.block statements) ∧
      ((∃ attributes members, statements = [.object attributes] ∧
          expand (.object attributes) = .ok (.object members) ∧ ofPairs members = body') ∨
        (∀ attributes, statements ≠ [.object attributes]) ∧ .block statements = body') := by
  rw [namedBody, bind_eq_ok_iff]
  constructor
  · rintro ⟨expanded, first, run⟩
    obtain ⟨statements, found, run⟩ := bind_eq_ok run
    cases expanded with
    | block statements' =>
      cases found
      refine ⟨statements, first, ?_⟩
      by_cases single : ∃ attributes, statements = [.object attributes]
      · obtain ⟨attributes, rfl⟩ := single
        obtain ⟨node, second, run⟩ := bind_eq_ok run
        cases node with
        | object members =>
          cases run
          exact .inl ⟨attributes, members, rfl, second, rfl⟩
        | _ => cases run
      · have other : ∀ attributes, statements ≠ [.object attributes] := fun a same => single ⟨a, same⟩
        simp only [pure, Except.pure, Except.ok.injEq] at run
        exact .inr ⟨other, run⟩
    | _ => cases found
  · rintro ⟨statements, first, ⟨attributes, members, rfl, second, rfl⟩ | ⟨other, rfl⟩⟩
    · exact ⟨_, first, by simp [Node.statements, bind, Except.bind, second, pure, Except.pure]⟩
    · refine ⟨_, first, ?_⟩
      simp only [Node.statements, bind, Except.bind]
      rfl

/-! ### Depths -/

theorem namedBody_settles (settles : Settles r expand)
    (run : namedBody expand body = .ok body') :
    namedBody expand body' = .ok body' ∧ body'.Plain r := by
  obtain ⟨statements, first, ⟨attributes, members, rfl, second, rfl⟩ | ⟨other, rfl⟩⟩ :=
    namedBody_eq_ok_iff.mp run
  · have unwrapped := settles.unwrapped second
    refine ⟨namedBody_eq_ok_iff.mpr ⟨_, unwrapped, .inr ⟨?_, rfl⟩⟩, settles.plain unwrapped⟩
    intro attributes same
    cases members with
    | nil => cases same
    | cons e rest => cases same
  · exact ⟨namedBody_eq_ok_iff.mpr ⟨statements, settles.fixed first, .inr ⟨other, rfl⟩⟩,
      settles.plain first⟩

/-- One case for each form that expansion looks into. -/
theorem step_fixed (settles : Settles r expand) {n' : Node} (run : step r expand n = .ok n') :
    step r expand n' = .ok n' ∧ n'.Plain r := by
  cases n with
  | object members =>
    obtain ⟨m, inner, rfl⟩ := map_eq_ok run
    have finished := attributes_finished settles (nodup_keys_ofPairs members) inner
    refine ⟨?_, finished.object⟩
    rw [step, ofPairs_of_nodup finished.nodup, finished.attributes]
    rfl
  | list elements =>
    obtain ⟨expanded, each, rfl⟩ := map_eq_ok run
    have source (n : Node) (member : n ∈ expanded) : ∃ n₀, expand n₀ = .ok n := by
      obtain ⟨n₀, _, one⟩ := exists_of_mem_mapM each member
      exact ⟨n₀, one⟩
    have again : expanded.mapM expand = .ok expanded :=
      mapM_self fun n member => settles.fixed (source n member).choose_spec
    exact ⟨map_eq_ok_iff.mpr ⟨expanded, again, rfl⟩,
      everywhere_list_iff.mpr ⟨fun h => h.choose_spec.1,
        fun n member => settles.plain (source n member).choose_spec⟩⟩
  | block statements =>
    obtain ⟨final, rfl, again, plain⟩ := block_settles settles run
    exact ⟨again, plain⟩
  | named name label body =>
    obtain ⟨body', inner, rfl⟩ := map_eq_ok run
    obtain ⟨again, plain⟩ := namedBody_settles settles inner
    exact ⟨map_eq_ok_iff.mpr ⟨body', again, rfl⟩,
      everywhere_named_iff.mpr ⟨fun h => h.choose_spec.1, plain⟩⟩
  | keyValue key value =>
    obtain ⟨value', inner, rfl⟩ := map_eq_ok run
    exact ⟨map_eq_ok_iff.mpr ⟨value', settles.fixed inner, rfl⟩,
      everywhere_keyValue_iff.mpr ⟨fun h => h.choose_spec.1, settles.plain inner⟩⟩
  | _ =>
    cases run
    refine ⟨rfl, ?_⟩
    intro part inside
    cases inside
    exact fun h => h.choose_spec.1

theorem step_settles (settles : Settles r expand) : Settles r (step r expand) where
  fixed run := (step_fixed settles run).1
  plain run := (step_fixed settles run).2
  keyValue := by
    intro n n' run
    cases n with
    | block statements =>
      obtain ⟨final, rfl, _⟩ := block_settles settles run
      rfl
    | object | list | named | keyValue =>
      obtain ⟨_, _, rfl⟩ := map_eq_ok run
      rfl
    | _ =>
      cases run
      rfl
  atom := by
    intro n n' atom run
    cases n with
    | object | list | named | keyValue =>
      obtain ⟨_, _, rfl⟩ := map_eq_ok run
      rcases atom with atom | atom <;> cases atom
    | block statements =>
      obtain ⟨final, rfl, _⟩ := block_settles settles run
      rcases atom with atom | atom <;> cases atom
    | _ =>
      cases run
      rfl
  unwrapped := by
    intro attributes members run
    obtain ⟨m, run, same⟩ := map_eq_ok run
    cases same
    exact (attributes_finished settles (nodup_keys_ofPairs attributes) run).block

theorem within_settles (r : Registry) (depth : Nat) : Settles r (within r depth) := by
  induction depth with
  | zero => exact ⟨nofun, nofun, nofun, nofun, nofun⟩
  | succ depth ih => exact step_settles ih

end Expand

/-- A tree that expansion returns holds no instance of a registered type, and expanding it again
changes nothing. -/
theorem Node.expand_normal {r : Registry} {n n' : Node} (run : n.expand r = .ok n') :
    (∀ part : Node, part.Part n' → ¬ part.Instance r) ∧ n'.expand r = .ok n' :=
  have settles := Expand.within_settles r Expand.maxDepth
  ⟨settles.plain run, settles.fixed run⟩

/-- A default that holds an instance of another type, in a block with its type given twice. -/
theorem Node.expand_normal_nested : let any : Constraint := { admits := .primitive { name := "any" } }
    let size : TypeDef := ⟨"Size",
      [("cores", { constraint := any, initial := .value (.int 2) })], none⟩
    let inner : Node := .object [("type", .identifier "Size"), ("disk", .identifier "fast")]
    let host : TypeDef := ⟨"Host",
      [("size", { constraint := any, initial := .computed inner })], none⟩
    let r : Registry := [("Size", size), ("Host", host)]
    let n : Node := .named "web" none (.block [.keyValue "type" (.literal (.str "x")),
      .keyValue "port" (.literal (.int 80)), .keyValue "type" (.identifier "Host")])
    let n' : Node := .named "web" none (.block [.keyValue "port" (.literal (.int 80)),
      .keyValue "size" (.object [("disk", .literal (.str "fast")), ("cores", .literal (.int 2))])])
    n.expand r = .ok n' ∧ (∀ part : Node, part.Part n' → ¬ part.Instance r) ∧
      n'.expand r = .ok n' := by
  intro any size inner host r n n'
  have run : n.expand r = .ok n' := by cbv
  exact ⟨run, expand_normal run⟩

end Stratus
