import Stratus.Proofs.Expand.NormalForm

/-!
The types that the defaults of a type mention. An instance completed from values that mention no
type mentions those of its own defaults only.
-/
namespace Stratus

open Assoc hiding set

open Outcome

variable {d : Data} {key : String}

/-- The parts of an expression whose values can stand in its value. -/
inductive Node.Inside : Node → Node → Prop where
  | self (n : Node) : Inside n n
  | left {p left : Node} {operator : Option Token} {right : Option Node} :
      Inside p left → Inside p (expression left operator right)
  | right {p left right : Node} {operator : Option Token} :
      Inside p right → Inside p (expression left operator (some right))
  | yes {p condition yes no : Node} : Inside p yes → Inside p (ternary condition yes no)
  | no {p condition yes no : Node} : Inside p no → Inside p (ternary condition yes no)
  | member {p n : Node} {key : String} {attributes : List (String × Node)} :
      (key, n) ∈ attributes → Inside p n → Inside p (object attributes)
  | element {p n : Node} {elements : List Node} : n ∈ elements → Inside p n → Inside p (list elements)

/-- The expressions that give a field its value. -/
def Field.expressions (f : Field) : List Node :=
  (match f.initial with
    | .computed node => [node]
    | _ => []) ++ f.calculated.toList

namespace Registry

/-- An expression of one of the fields of a type holds an object whose type is given so. -/
def Gives (r : Registry) (t : String) (type : Node) : Prop :=
  ∃ fields key field e attributes, r.allFields t = .ok fields ∧ (key, field) ∈ fields ∧
    e ∈ field.expressions ∧ (Node.object attributes).Inside e ∧ ("type", type) ∈ attributes

def Mentions (r : Registry) (t u : String) : Prop := ∃ type, r.Gives t type ∧ type.typeName? = some u

/-- A name that some default gives as a type without quotes, where a variable could hide it. -/
def Unquoted (r : Registry) (u : String) : Prop := ∃ t, r.Gives t (.identifier u)

end Registry

/-- A registered type that a map inside a value gives is one of a set, and no key inside hides a
type. -/
inductive Data.Only (r : Registry) (S : String → Prop) : Data → Prop where
  | atom {d : Data} (h : d.hashable = true) : Only r S d
  | list {items : List Data} (h : ∀ d ∈ items, Only r S d) : Only r S (.list items)
  | map {entries : List (String × Data)} (keys : ∀ key ∈ Assoc.keys entries, ¬ r.Unquoted key)
      (types : ∀ name, ("type", .str name) ∈ entries → Assoc.contains r name = true → S name)
      (inner : ∀ key d, (key, d) ∈ entries → Only r S d) : Only r S (.map entries)

namespace Node

/-- A type whose value is plain to see. -/
def SpelledOut : Node → Prop
  | identifier _ => True
  | literal (.str s) => '$' ∉ s.toList
  | literal _ => True
  | _ => False

/-- A tree whose own keys hide no type, and whose value is no list or map unless written as one. -/
def Clear (r : Registry) : Node → Prop
  | literal d => d.hashable = true
  | keyValue key _ => ¬ r.Unquoted key
  | object attributes => ∀ key ∈ Assoc.keys attributes, ¬ r.Unquoted key
  | _ => True

/-- The registered types of the instances in a clear tree are of a set. -/
def Only (r : Registry) (S : String → Prop) (n : Node) : Prop :=
  n.Everywhere fun part => part.Clear r ∧ ∀ name, part.InstanceOf name →
    Assoc.contains r name = true → S name

end Node

/-- Defaults spell out their types, and neither they nor the names of fields hide a type. -/
structure Registry.Explicit (r : Registry) : Prop where
  types : ∀ {t type}, r.Gives t type → type.SpelledOut
  keys : ∀ {t fields}, r.allFields t = .ok fields → ∀ key ∈ Assoc.keys fields, ¬ r.Unquoted key
  values : ∀ {t fields key field d}, r.allFields t = .ok fields → (key, field) ∈ fields →
    field.initial = .value d → d.Only r fun _ => False
  expressions : ∀ {t fields key field e}, r.allFields t = .ok fields → (key, field) ∈ fields →
    e ∈ field.expressions → ∀ part : Node, part.Inside e → part.Clear r

theorem Data.Only.mono {r : Registry} {S S' : String → Prop} (h : d.Only r S)
    (le : ∀ name, S name → S' name) : d.Only r S' := by
  induction h with
  | atom h => exact .atom h
  | list _ ih => exact .list ih
  | map keys types _ ih =>
    exact .map keys (fun name member known => le name (types name member known)) ih

namespace Node

variable {r : Registry} {S : String → Prop} {n : Node}

theorem only_of_plain (clear : n.Everywhere (Clear r)) (plain : n.Plain r) : n.Only r S :=
  fun part inside => ⟨clear part inside, fun name is known =>
    absurd ⟨name, is, known⟩ (plain part inside)⟩

theorem Only.clear (h : n.Only r S) : n.Everywhere (Clear r) := fun part inside => (h part inside).1

theorem sizeOf_lt_object {attributes : List (String × Node)}
    (h : (key, n) ∈ attributes) : sizeOf n < sizeOf (object attributes) := by
  have entry := List.sizeOf_lt_of_mem h
  simp only [Prod.mk.sizeOf_spec, object.sizeOf_spec] at entry ⊢
  omega

theorem ofItems_eq (items : List Data) : ofItems items = items.mapM ofValue := by
  induction items with
  | nil => rfl
  | cons d rest ih => rw [ofItems, ih, List.mapM_cons]

theorem toItems_eq (elements : List Node) : toItems elements = elements.mapM toValue := by
  induction elements with
  | nil => rfl
  | cons n rest ih => rw [toItems, ih, List.mapM_cons]

theorem toEntries_eq (attributes : List (String × Node)) :
    toEntries attributes = Assoc.mapValuesM toValue attributes := by
  induction attributes with
  | nil => rfl
  | cons e rest ih => rw [toEntries, ih, mapValuesM_cons]

theorem typeName?_ofValue (run : ofValue d = .ok n) : n.typeName? = d.str? := by
  cases d with
  | null => cases run
  | list | map =>
    obtain ⟨_, _, rfl⟩ := map_eq_ok run
    rfl
  | _ =>
    cases run
    rfl

theorem typeName?_toValue (run : n.toValue = .ok d) : n.typeName? = d.str? := by
  cases n with
  | literal value =>
    cases run
    cases d <;> rfl
  | identifier name =>
    cases run
    rfl
  | list | object =>
    obtain ⟨_, _, rfl⟩ := map_eq_ok run
    rfl
  | _ => cases run

theorem ofValue_only (h : d.Only r S) (run : ofValue d = .ok n) : n.Only r S := by
  induction h generalizing n with
  | @atom d hashable =>
    have leaf : (literal d).Only r S := everywhere_literal_iff.mpr ⟨hashable, nofun⟩
    cases d with
    | null => cases run
    | list | map => cases hashable
    | _ =>
      cases run
      exact leaf
  | list _ ih =>
    obtain ⟨elements, each, rfl⟩ := map_eq_ok run
    rw [ofItems_eq] at each
    refine everywhere_list_iff.mpr ⟨⟨trivial, nofun⟩, fun n member => ?_⟩
    obtain ⟨d, source, one⟩ := exists_of_mem_mapM each member
    exact ih d source one
  | map keys types _ ih =>
    obtain ⟨attributes, each, rfl⟩ := map_eq_ok run
    rw [ofEntries_eq] at each
    have keys : ∀ key ∈ Assoc.keys attributes, ¬ r.Unquoted key :=
      keys_mapValuesM each ▸ keys
    refine everywhere_object_iff.mpr ⟨⟨keys, ?_⟩, fun key n member => ?_⟩
    · rintro name ⟨type, member, spelled⟩ known
      obtain ⟨d, source, one⟩ := exists_of_mem_mapValuesM each member
      rw [typeName?_ofValue one] at spelled
      cases d with
      | str text =>
        cases spelled
        exact types name source known
      | _ => cases spelled
    · obtain ⟨d, source, one⟩ := exists_of_mem_mapValuesM each member
      exact ih key d source one

theorem toValue_only {n : Node} {d : Data} (h : n.Only r S) (run : n.toValue = .ok d) :
    d.Only r S := by
  cases n with
  | literal value =>
    cases run
    exact .atom (h _ (.self _)).1
  | identifier name =>
    cases run
    exact .atom rfl
  | list elements =>
    obtain ⟨items, each, rfl⟩ := map_eq_ok run
    rw [toItems_eq] at each
    refine .list fun d member => ?_
    obtain ⟨n, source, one⟩ := exists_of_mem_mapM each member
    exact toValue_only ((everywhere_list_iff.mp h).2 n source) one
  | object attributes =>
    obtain ⟨entries, each, rfl⟩ := map_eq_ok run
    rw [toEntries_eq] at each
    obtain ⟨⟨keys, types⟩, inner⟩ := everywhere_object_iff.mp h
    refine .map (keys_mapValuesM each ▸ keys) (fun name member known => ?_) fun key d member => ?_
    · obtain ⟨type, source, one⟩ := exists_of_mem_mapValuesM each member
      exact types name ⟨type, source, typeName?_toValue one⟩ known
    · obtain ⟨n, source, one⟩ := exists_of_mem_mapValuesM each member
      have smaller := sizeOf_lt_object source
      exact toValue_only (inner key n source) one
  | _ => cases run
termination_by sizeOf n

end Node

/-! ### Text -/

theorem Text.interpolate_of_no_reference (value : String → String) {s : String} (h : '$' ∉ s.toList) :
    Text.interpolate value s = s := by
  have go (fuel : Nat) (done cs : List Char) (enough : cs.length ≤ fuel) (h : '$' ∉ cs) :
      Text.interpolateFrom value fuel done cs = cs.reverse ++ done := by
    induction fuel generalizing done cs with
    | zero =>
      cases cs with
      | nil => rfl
      | cons c rest => cases enough
    | succ fuel ih =>
      cases cs with
      | nil => simp [Text.interpolateFrom]
      | cons c rest =>
        obtain ⟨other, h⟩ := not_or.mp (List.mem_cons.not.mp h)
        rw [Text.interpolateFrom, ih (c :: done) rest (Nat.le_of_succ_le_succ enough) h]
        · simp
        · intro rest' same
          exact absurd same.symm other
  rw [Text.interpolate, go _ _ _ (Nat.le_of_eq String.length_toList) h]
  simp

section Evaluation

variable {r : Registry} {S : String → Prop} {known : Assoc Data}

theorem Node.evaluateAll_eq (setting : Setting) (vars : Assoc Data) (ns : List Node) :
    evaluateAll setting vars ns = ns.mapM (evaluate setting vars) := by
  induction ns with
  | nil => rfl
  | cons n rest ih => rw [evaluateAll, ih, List.mapM_cons]

theorem Node.evaluateEntries_eq (setting : Setting) (vars : Assoc Data) (m : List (String × Node)) :
    evaluateEntries setting vars m = Assoc.mapValuesM (evaluate setting vars) m := by
  induction m with
  | nil => rfl
  | cons e rest ih => rw [evaluateEntries, ih, mapValuesM_cons]

def Registry.Known (r : Registry) (S : String → Prop) (known : Assoc Data) : Prop :=
  ∀ key d, (key, d) ∈ known → ¬ r.Unquoted key ∧ d.Only r S

theorem Data.Only.items {items : List Data} (h : (Data.list items).Only r S) :
    ∀ d ∈ items, d.Only r S := by
  cases h with
  | atom h => cases h
  | list h => exact h

theorem Data.arithmetic?_hashable {exact : Int → Int → Int} {rounded : Binary64 → Binary64 → Binary64}
    {a b d : Data} (run : arithmetic? exact rounded a b = some (.ok d)) : d.hashable = true := by
  unfold arithmetic? at run
  split at run
  · cases run
    rfl
  · obtain ⟨x, _, run⟩ := Option.bind_eq_some_iff.mp run
    obtain ⟨y, _, run⟩ := Option.bind_eq_some_iff.mp run
    obtain ⟨_, _, run⟩ := bind_eq_ok (Option.some.inj run)
    obtain ⟨_, _, run⟩ := bind_eq_ok run
    cases run
    rfl

theorem Data.add_only {a b d : Data} (ha : a.Only r S) (hb : b.Only r S) (run : a.add b = .ok d) :
    d.Only r S := by
  unfold Data.add at run
  split at run
  · cases run
    exact .atom rfl
  · cases run
    refine .list fun d member => ?_
    rcases List.mem_append.mp member with first | second
    · exact ha.items d first
    · exact hb.items d second
  · split at run
    · next result found => exact .atom (Data.arithmetic?_hashable (found.trans (congrArg some run)))
    · split at run <;> cases run

theorem Node.operate_only {operator : Option String} {a b d : Data} (ha : a.Only r S)
    (hb : b.Only r S) (run : operate .fields operator a b = .ok d) : d.Only r S := by
  have compared {x : Outcome Bool} (run : Data.bool <$> x = .ok d) : d.Only r S := by
    obtain ⟨_, _, rfl⟩ := map_eq_ok run
    exact .atom rfl
  unfold operate at run
  split at run
  · exact Data.add_only ha hb run
  · cases run; exact .atom rfl
  · cases run; exact .atom rfl
  · exact compared run
  · exact compared run
  · exact compared run
  · exact compared run
  · cases run
    split
    · exact hb
    · exact ha
  · cases run
    split
    · exact ha
    · exact hb
  · next heq => cases heq
  · next heq => cases heq
  · cases run; exact .atom rfl
  · cases run

/-- An expression whose types are spelled out, not hidden, and of a set where they are registered.
-/
structure Node.Mentioning (r : Registry) (S : String → Prop) (e : Node) : Prop where
  clear : ∀ part : Node, part.Inside e → part.Clear r
  spelledOut : ∀ attributes type, (object attributes).Inside e → ("type", type) ∈ attributes →
    type.SpelledOut
  unquoted : ∀ attributes u, (object attributes).Inside e → ("type", identifier u) ∈ attributes →
    r.Unquoted u
  types : ∀ attributes type name, (object attributes).Inside e → ("type", type) ∈ attributes →
    type.typeName? = some name → Assoc.contains r name = true → S name

theorem Node.Mentioning.sub {e e' : Node} (h : e.Mentioning r S)
    (inside : ∀ part : Node, part.Inside e' → part.Inside e) : e'.Mentioning r S where
  clear part p := h.clear part (inside part p)
  spelledOut attributes type p := h.spelledOut attributes type (inside _ p)
  unquoted attributes u p := h.unquoted attributes u (inside _ p)
  types attributes type name p := h.types attributes type name (inside _ p)

theorem Node.literalValue_hashable (vars : Assoc Data) (d : Data) :
    (literalValue .fields vars d).hashable = d.hashable := by
  cases d <;> rfl

theorem Node.SpelledOut.evaluate {type : Node} {name : String} (h : type.SpelledOut)
    (unquoted : ∀ u, type = identifier u → r.Unquoted u) (hk : r.Known S known)
    (run : type.evaluate .fields known = .ok (.str name)) : type.typeName? = some name := by
  cases type with
  | identifier u =>
    have free : get? known u = none := by
      refine Option.eq_none_iff_forall_ne_some.mpr fun d found => ?_
      exact (hk u d (mem_of_get? found)).1 (unquoted u rfl)
    rw [Node.evaluate, Assoc.getD, free] at run
    cases run
    rfl
  | literal d =>
    cases d with
    | str s =>
      rw [Node.evaluate, literalValue, Text.interpolate_of_no_reference _ h] at run
      cases run
      rfl
    | _ => cases run
  | _ => cases h

/-- The value of an expression mentions the types of the expression and of its variables. -/
theorem Node.evaluate_only {e : Node} {d : Data} (hk : r.Known S known) (he : e.Mentioning r S)
    (run : e.evaluate .fields known = .ok d) : d.Only r S := by
  cases e with
  | literal value =>
    cases run
    exact .atom ((literalValue_hashable known value).trans (he.clear _ (.self _)))
  | identifier name =>
    cases run
    unfold Assoc.getD
    cases found : get? known name with
    | none => exact .atom rfl
    | some value => exact (hk name value (mem_of_get? found)).2
  | expression left operator right =>
    rw [Node.evaluate] at run
    obtain ⟨a, first, run⟩ := bind_eq_ok run
    obtain ⟨b, second, run⟩ := bind_eq_ok run
    refine operate_only (evaluate_only hk (he.sub fun _ => .left) first) ?_ run
    cases right with
    | none =>
      cases second
      exact .atom rfl
    | some right => exact evaluate_only hk (he.sub fun _ => .right) second
  | ternary condition yes no =>
    rw [Node.evaluate] at run
    obtain ⟨a, _, run⟩ := bind_eq_ok run
    split at run
    · exact evaluate_only hk (he.sub fun _ => .yes) run
    · exact evaluate_only hk (he.sub fun _ => .no) run
  | list elements =>
    obtain ⟨items, each, rfl⟩ := map_eq_ok run
    rw [evaluateAll_eq] at each
    refine .list fun d member => ?_
    obtain ⟨n, source, one⟩ := exists_of_mem_mapM each member
    exact evaluate_only hk (he.sub fun _ => .element source) one
  | object attributes =>
    obtain ⟨entries, each, rfl⟩ := map_eq_ok run
    rw [evaluateEntries_eq] at each
    have keys : ∀ key ∈ Assoc.keys attributes, ¬ r.Unquoted key := he.clear _ (.self _)
    refine .map (keys_mapValuesM each ▸ keys) ?_ ?_
    · intro name member registered
      obtain ⟨type, source, one⟩ := exists_of_mem_mapValuesM each member
      have unquoted (u : String) (h : type = identifier u) :=
        he.unquoted attributes u (.self _) (h ▸ source)
      have named := (he.spelledOut attributes type (.self _) source).evaluate unquoted hk one
      exact he.types attributes type name (.self _) source named registered
    · intro key d member
      obtain ⟨n, source, one⟩ := exists_of_mem_mapValuesM each member
      have smaller := sizeOf_lt_object source
      exact evaluate_only hk (he.sub fun _ => .member source) one
  | access owner name =>
    rw [Node.evaluate] at run
    obtain ⟨a, _, run⟩ := bind_eq_ok run
    cases run
    exact .atom rfl
  | _ => cases run
termination_by sizeOf e

end Evaluation

namespace Registry

variable {r : Registry} {S : String → Prop} {t : String} {fields : Assoc Field} {known : Assoc Data}
  {field : Field}

theorem Known.set (h : r.Known S known)
    (free : ¬ r.Unquoted key) (only : d.Only r S) : r.Known S (Assoc.set known key d) := by
  intro key' d' member
  rcases mem_of_mem_set member with old | written
  · exact h key' d' old
  · cases written
    exact ⟨free, only⟩

theorem Explicit.mentioning (h : r.Explicit)
    {e : Node} (found : r.allFields t = .ok fields) (member : (key, field) ∈ fields)
    (own : e ∈ field.expressions) : e.Mentioning r (r.Mentions t) where
  clear := h.expressions found member own
  spelledOut attributes _ inside typed :=
    h.types ⟨fields, key, field, e, attributes, found, member, own, inside, typed⟩
  unquoted attributes _ inside typed :=
    ⟨t, fields, key, field, e, attributes, found, member, own, inside, typed⟩
  types attributes type _ inside typed spelled _ :=
    ⟨type, ⟨fields, key, field, e, attributes, found, member, own, inside, typed⟩, spelled⟩

/-- A value written to a field of a type mentions what the type mentions. -/
theorem Explicit.writes (h : r.Explicit) (found : r.allFields t = .ok fields)
    (member : (key, field) ∈ fields) (hk : r.Known (r.Mentions t) known)
    (write : Writes (fun e known => e.evaluate .fields known) known field d) :
    d.Only r (r.Mentions t) := by
  cases write with
  | initial run =>
    unfold initialValue at run
    split at run
    · cases run
    · cases run
    · next value given =>
        cases run
        exact (h.values found member given).mono nofun
    · next node computed =>
        obtain ⟨_, one, same⟩ := map_eq_ok run
        cases same
        have own : node ∈ field.expressions := by simp [Field.expressions, computed]
        exact Node.evaluate_only hk (h.mentioning found member own) one
  | @calculated node calculated run =>
    have own : node ∈ field.expressions := by simp [Field.expressions, calculated]
    exact Node.evaluate_only hk (h.mentioning found member own) run

/-- The completed fields of a type mention what the type mentions, if the given values do. -/
theorem complete_known (h : r.Explicit) {values completed : Assoc Data}
    (given : r.Known (r.Mentions t) values)
    (run : r.complete (.str t) (.map values) (some fun e known => e.evaluate .fields known) =
      .ok completed) :
    r.Known (r.Mentions t) completed := by
  refine complete_invariant (fun key d member => given key d (mem_of_mem_ofPairs member)) ?_ run
  intro fields found key field member known d hk write
  exact hk.set (h.keys found key (mem_keys member)) (h.writes found member hk write)

end Registry

end Stratus
