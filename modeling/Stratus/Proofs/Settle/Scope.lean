import Stratus.Proofs.Settle.Nested

/-!
The scope of variables in values. A typed object keeps its members to itself; those of any other
object become variables of the caller.
-/
namespace Stratus

open List hiding keys keys_cons
open Assoc hiding set

namespace Node

/-- An object that names its type. -/
def IsTyped : Node → Prop
  | object attributes => "type" ∈ keys attributes
  | _ => False

/-- An object with these attributes is reached, and neither it nor any object on the way names a
type. -/
inductive Opens : Node → List (String × Node) → Prop where
  | here {attributes : List (String × Node)} (untyped : "type" ∉ keys attributes) :
      Opens (.object attributes) attributes
  | inside {attributes inner : List (String × Node)} {e : String × Node}
      (untyped : "type" ∉ keys attributes)
      (member : e ∈ attributes) (opens : Opens e.2 inner) : Opens (.object attributes) inner

mutual

/-- The attributes of the objects that a tree opens, each behind those inside it. -/
def exposed : Node → List (String × Node)
  | object attributes => if "type" ∈ keys attributes then [] else exposedAll attributes
  | _ => []

def exposedAll : List (String × Node) → List (String × Node)
  | [] => []
  | (key, node) :: rest => exposed node ++ (key, node) :: exposedAll rest

end

variable {attributes : List (String × Node)}

theorem exposed_of_untyped (untyped : "type" ∉ keys attributes) :
    (object attributes).exposed = exposedAll attributes := by
  rw [exposed, if_neg untyped]

theorem mem_exposedAll {e e' : String × Node} (member : e ∈ attributes)
    (h : e' = e ∨ e' ∈ e.2.exposed) : e' ∈ exposedAll attributes := by
  induction attributes with
  | nil => cases member
  | cons first rest ih =>
    rw [exposedAll, mem_append, mem_cons]
    rcases mem_cons.mp member with rfl | later
    · rcases h with rfl | inside
      · exact .inr (.inl rfl)
      · exact .inl inside
    · exact .inr (.inr (ih later))

theorem Opens.mem_exposed {node : Node} (h : node.Opens attributes)
    {e : String × Node} (member : e ∈ attributes) : e ∈ node.exposed := by
  induction h with
  | here untyped =>
    rw [exposed_of_untyped untyped]
    exact mem_exposedAll member (.inl rfl)
  | inside untyped inner _ ih =>
    rw [exposed_of_untyped untyped]
    exact mem_exposedAll inner (.inr (ih member))

mutual

theorem opens_of_mem_exposed {e : String × Node} (node : Node) (h : e ∈ node.exposed) :
    ∃ attributes, node.Opens attributes ∧ e ∈ attributes := by
  cases node with
  | object attributes =>
    rw [exposed] at h
    split at h
    · cases h
    · next untyped =>
        rcases of_mem_exposedAll attributes h with own | ⟨e', member, inner, opens, inside⟩
        · exact ⟨attributes, .here untyped, own⟩
        · exact ⟨inner, .inside untyped member opens, inside⟩
  | _ => cases h

theorem of_mem_exposedAll {e : String × Node} (attributes : List (String × Node))
    (h : e ∈ exposedAll attributes) :
    e ∈ attributes ∨ ∃ e' ∈ attributes, ∃ inner, e'.2.Opens inner ∧ e ∈ inner := by
  cases attributes with
  | nil => cases h
  | cons first rest =>
    obtain ⟨key, node⟩ := first
    rw [exposedAll, mem_append, mem_cons] at h
    rcases h with inside | rfl | later
    · obtain ⟨inner, opens, member⟩ := opens_of_mem_exposed node inside
      exact .inr ⟨_, mem_cons_self, inner, opens, member⟩
    · exact .inl mem_cons_self
    · rcases of_mem_exposedAll rest later with own | ⟨e', member, found⟩
      · exact .inl (mem_cons_of_mem _ own)
      · exact .inr ⟨e', mem_cons_of_mem _ member, found⟩

end

end Node

namespace Settle

variable {r : Registry} {vars vars' : Vars} {node : Node} {d : Data}

structure Conversion where
  key : String
  node : Node
  value : Data

namespace Conversion

def member (c : Conversion) : String × Node := (c.key, c.node)

def entry (c : Conversion) : String × Data := (c.key, c.value)

end Conversion

def written (vars : Vars) (done : List Conversion) : Vars := update vars (done.map Conversion.entry)

@[simp] theorem written_nil (vars : Vars) : written vars [] = vars := rfl

theorem written_append (vars : Vars) (first last : List Conversion) :
    written vars (first ++ last) = written (written vars first) last := by
  rw [written, map_append, update, foldl_append]
  rfl

theorem written_concat (vars : Vars) (done : List Conversion) (c : Conversion) :
    written vars (done ++ [c]) = Assoc.set (written vars done) c.key c.value :=
      written_append vars done [c]

theorem keys_entries (done : List Conversion) :
    keys (done.map Conversion.entry) = done.map Conversion.key := by
  simp [keys, Conversion.entry, Function.comp_def]

theorem get?_written_of_notMem {done : List Conversion} {name : String}
    (absent : name ∉ done.map Conversion.key) :
    get? (written vars done) name = get? vars name :=
  get?_update_of_notMem vars (by rwa [keys_entries])

theorem get?_written_last (before : List Conversion) (c : Conversion) {after : List Conversion}
    (last : c.key ∉ after.map Conversion.key) :
    get? (written vars (before ++ c :: after)) c.key = some c.value := by
  have split : before ++ c :: after = before ++ [c] ++ after := by simp
  rw [split, written_append, get?_written_of_notMem last, written_concat, get?_set, if_pos rfl]

theorem exists_last {done : List Conversion} {name : String} (h : name ∈ done.map Conversion.key) :
    ∃ before c after, done = before ++ c :: after ∧ c.key = name ∧
      name ∉ after.map Conversion.key := by
  induction done with
  | nil => cases h
  | cons c rest ih =>
    by_cases later : name ∈ rest.map Conversion.key
    · obtain ⟨before, c', after, rfl, same, last⟩ := ih later
      exact ⟨c :: before, c', after, rfl, same, last⟩
    · have here : c.key = name := by
        rcases mem_cons.mp h with same | later'
        · exact same.symm
        · exact absurd later' later
      exact ⟨[], c, rest, rfl, here, later⟩

/-- The conversions of these attributes in order. Each begins with what earlier ones have written;
those inside the attribute come between these and its own. -/
structure Conversions (r : Registry) (vars : Vars) (attributes : List (String × Node))
    (done : List Conversion) :
    Prop where
  members : done.map Conversion.member = attributes
  each : ∀ before c after, done = before ++ c :: after → ∃ earlier inner, before = earlier ++ inner ∧
    inner.map Conversion.member = c.node.exposed ∧
      (value r c.node).run (written vars earlier) = .ok (c.value, written vars before)

namespace Conversions

variable {attributes others : List (String × Node)} {done later : List Conversion}

theorem nil (r : Registry) (vars : Vars) : Conversions r vars [] [] := ⟨rfl, by simp⟩

theorem keys_eq (h : Conversions r vars attributes done) :
    done.map Conversion.key = keys attributes := by
  rw [← h.members, keys, map_map]
  rfl

theorem append (h : Conversions r vars attributes done)
    (h' : Conversions r (written vars done) others later) :
    Conversions r vars (attributes ++ others) (done ++ later) := by
  refine ⟨by rw [map_append, h.members, h'.members], fun before c after split => ?_⟩
  rcases append_eq_append_iff.mp split with ⟨mid, rfl, rest⟩ | ⟨mid, rfl, rest⟩
  · obtain ⟨earlier, inner, rfl, inside, run⟩ := h'.each mid c after rest
    exact ⟨done ++ earlier, inner, (append_assoc ..).symm,
      inside, by simpa only [written_append] using run⟩
  · cases mid with
    | nil =>
      obtain ⟨earlier, inner, first, inside, run⟩ := h'.each [] c after rest.symm
      obtain ⟨rfl, rfl⟩ := append_eq_nil_iff.mp first.symm
      exact ⟨before, [], by simp, inside, by simpa using run⟩
    | cons c' mid =>
      obtain ⟨rfl, -⟩ := cons.inj rest
      exact h.each before c mid rfl

theorem concat {key : String} (h : Conversions r vars node.exposed done)
    (run : (value r node).run vars = .ok (d, written vars done)) :
    Conversions r vars (node.exposed ++ [(key, node)]) (done ++ [⟨key, node, d⟩]) := by
  refine ⟨by rw [map_append, h.members]; rfl, fun before c after split => ?_⟩
  rcases eq_nil_or_concat after with rfl | ⟨after, last, rfl⟩
  · obtain ⟨rfl, same⟩ := append_inj' split rfl
    cases same
    exact ⟨[], done, rfl, h.members, run⟩
  · rw [concat_eq_append, ← cons_append, ← append_assoc] at split
    obtain ⟨rfl, -⟩ := append_inj' split rfl
    exact h.each before c after rfl

end Conversions

/-- A typed object leaves the variables as they were. -/
theorem vars_of_typed {attributes : List (String × Node)} (typed : "type" ∈ keys attributes)
    (run : (value r (.object attributes)).run vars = .ok (d, vars')) : vars' = vars := by
  rw [value] at run
  obtain ⟨declared, _, lifted, run⟩ := run_bind_iff.mp run
  obtain ⟨found, rfl⟩ := run_lift_iff.mp lifted
  cases declared with
  | none => exact absurd typed (Node.declaredType_eq_none_iff.mp found)
  | some type =>
    simp only [run_bind_iff, run_get_iff, run_set_iff, run_pure_iff, run_lift_iff] at run
    obtain ⟨outer, _, ⟨rfl, rfl⟩, values, _, _, _, _, rfl, entries, _, ⟨_, rfl⟩, _, rfl⟩ := run
    rfl

mutual

theorem conversions_of_value (node : Node) {vars vars' : Vars} {d : Data}
    (run : (value r node).run vars = .ok (d, vars')) :
    ∃ done, Conversions r vars node.exposed done ∧ vars' = written vars done := by
  cases node with
  | object attributes =>
    by_cases typed : "type" ∈ keys attributes
    · rw [Node.exposed, if_pos typed]
      exact ⟨[], .nil r vars, vars_of_typed typed run⟩
    · rw [Node.exposed_of_untyped typed]
      rw [value_object typed] at run
      obtain ⟨⟨entries, known⟩, inside, whole⟩ := Outcome.map_eq_ok run
      cases whole
      exact conversions_of_members attributes typed inside
  | literal x =>
    cases run
    exact ⟨[], .nil r vars, rfl⟩
  | identifier name =>
    cases run
    exact ⟨[], .nil r vars, rfl⟩
  | expression left operator right =>
    rw [value] at run
    simp only [run_bind_iff, run_get_iff, run_lift_iff] at run
    obtain ⟨_, _, ⟨rfl, rfl⟩, -, rfl⟩ := run
    exact ⟨[], .nil r _, rfl⟩
  | _ => cases run

theorem conversions_of_members (attributes : List (String × Node)) {vars vars' : Vars}
    {entries : List (String × Data)}
    (untyped : "type" ∉ keys attributes)
    (run : (members r attributes).run vars = .ok (entries, vars')) :
    ∃ done, Conversions r vars (Node.exposedAll attributes) done ∧ vars' = written vars done := by
  cases attributes with
  | nil =>
    cases run
    exact ⟨[], .nil r vars, rfl⟩
  | cons e rest =>
    obtain ⟨key, node⟩ := e
    rw [keys_cons, mem_cons, not_or] at untyped
    obtain ⟨d, known, entries, own, others, rfl⟩ := (members_cons_iff (Ne.symm untyped.1)).mp run
    obtain ⟨inner, first, rfl⟩ := conversions_of_value node own
    rw [← written_concat vars inner ⟨key, node, d⟩] at others
    obtain ⟨later, second, rfl⟩ := conversions_of_members rest untyped.2 others
    refine ⟨inner ++ [⟨key, node, d⟩] ++ later, ?_, (written_append ..).symm⟩
    rw [Node.exposedAll, append_cons]
    exact (first.concat own).append second

end

/-- A typed object changes no variable of its caller. Any other tree changes only names of
attributes of the objects that it opens, and every such name stands for the conversion that came
last. -/
theorem variables_of_value (run : (value r node).run vars = .ok (d, vars')) :
    (node.IsTyped → vars' = vars) ∧
    (¬ node.IsTyped →
      (∀ name, Assoc.get? vars' name ≠ Assoc.get? vars name →
        ∃ attributes, node.Opens attributes ∧ name ∈ Assoc.keys attributes) ∧
      ∃ done, Conversions r vars node.exposed done ∧ vars' = written vars done ∧
        ∀ attributes, node.Opens attributes → ∀ name ∈ Assoc.keys attributes,
          ∃ before c after, done = before ++ c :: after ∧ c.key = name ∧
            name ∉ after.map Conversion.key ∧
            Assoc.get? vars' name = some c.value) := by
  obtain ⟨done, conversions, rfl⟩ := conversions_of_value node run
  constructor
  · intro typed
    cases node with
    | object attributes => exact vars_of_typed typed run
    | _ => cases typed
  · intro _
    refine ⟨fun name changed => ?_, done, conversions, rfl, fun attributes opens name member => ?_⟩
    · have present : name ∈ Assoc.keys node.exposed := by
        rw [← conversions.keys_eq]
        by_contra absent
        exact changed (get?_written_of_notMem absent)
      obtain ⟨e, exposed, rfl⟩ := mem_map.mp present
      obtain ⟨attributes, opens, own⟩ := Node.opens_of_mem_exposed node exposed
      exact ⟨attributes, opens, mem_map_of_mem own⟩
    · obtain ⟨e, own, rfl⟩ := mem_map.mp member
      have present : e.1 ∈ done.map Conversion.key := by
        rw [conversions.keys_eq]
        exact mem_map_of_mem (opens.mem_exposed own)
      obtain ⟨before, c, after, rfl, same, last⟩ := exists_last present
      refine ⟨before, c, after, rfl, same, last, ?_⟩
      rw [← same] at last ⊢
      exact get?_written_last before c last

/-- The member `a` of an object inside wins over the one before it, and that of a typed object
counts for nothing. -/
theorem variables_of_nested_value :
    let r : Registry := [("T", { name := "T", fields := [] })]
    let node : Node := .object [("a", .literal (.int 1)), ("b", .object [("a", .literal (.int 2))]),
      ("t", .object [("type", .identifier "T"), ("a", .literal (.int 3))]), ("c", .identifier "a")]
    let vars : Vars := [("a", .int 0), ("k", .int 9)]
    ∃ d vars', (value r node).run vars = .ok (d, vars') ∧ ¬ node.IsTyped ∧
      (∃ done, Conversions r vars node.exposed done ∧ vars' = written vars done) ∧
      Assoc.get? vars' "a" = some (.int 2) ∧ Assoc.get? vars' "c" = some (.int 2) := by
  intro r node vars
  have run : (value r node).run vars = .ok (.map [("a", .int 1), ("b", .map [("a", .int 2)]),
      ("t", .map [("a", .int 3)]), ("c", .int 2)],
      [("a", .int 2), ("k", .int 9), ("b", .map [("a", .int 2)]),
      ("t", .map [("a", .int 3)]), ("c", .int 2)]) := rfl
  have untyped : ¬ node.IsTyped := by
    dsimp only [node, Node.IsTyped]
    decide
  obtain ⟨-, done, conversions, same, -⟩ := (variables_of_value run).2 untyped
  exact ⟨_, _, run, untyped, ⟨done, conversions, same⟩, rfl, rfl⟩

end Settle

end Stratus
