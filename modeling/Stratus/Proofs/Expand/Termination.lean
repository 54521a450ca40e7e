import Stratus.Proofs.Expand.Shallow
import Stratus.Source.Parser

/-!
Termination of expansion. It ends where no chain of types, each mentioned in the defaults of the one
before, is endless. A type whose default is an instance of itself is expanded without end.
-/
namespace Stratus.Expand

open Assoc hiding set
open Node
open List hiding keys
open Outcome

variable {m : Assoc Node} {statements expanded : List Node} {name : String}

section Runs

variable {α β : Type} {f : Nat → Outcome α}

/-- From some depth on, a run has one outcome, and that is not that the depth is too small. -/
def Finishes (f : Nat → Outcome α) : Prop :=
  ∃ depth outcome, outcome ≠ .error .tooDeep ∧ ∀ d ≥ depth, f d = outcome

/-- From some depth on, a run returns a result. -/
def Returns (f : Nat → Outcome α) (a : α) : Prop := ∃ depth, ∀ d ≥ depth, f d = .ok a

namespace Finishes

theorem const {x : Outcome α} (h : x.Shallow) : Finishes fun _ => x :=
  ⟨0, x, fun failed => h _ failed rfl, fun _ _ => rfl⟩

theorem bind {g : Nat → α → Outcome β} (hf : Finishes f)
    (hg : ∀ a, Returns f a → Finishes fun d => g d a) : Finishes fun d => f d >>= g d := by
  obtain ⟨depth, outcome, shallow, same⟩ := hf
  cases outcome with
  | error fault =>
    refine ⟨depth, .error fault, fun h => shallow ?_, fun d le => ?_⟩
    · cases h
      rfl
    · dsimp only
      rw [same d le]
      rfl
  | ok a =>
    obtain ⟨depth', outcome, shallow', same'⟩ := hg a ⟨depth, same⟩
    refine ⟨max depth depth', outcome, shallow', fun d le => ?_⟩
    dsimp only
    rw [same d (le_trans (le_max_left _ _) le)]
    exact same' d (le_trans (le_max_right _ _) le)

theorem map (hf : Finishes f) (h : α → β) : Finishes fun d => h <$> f d := by
  have : (fun d => h <$> f d) = fun d => f d >>= fun a => .ok (h a) := by
    funext d
    cases f d <;> rfl
  rw [this]
  exact hf.bind fun a _ => const (.ok (h a))

theorem mapM {f : Nat → α → Outcome β} {xs : List α} (h : ∀ x ∈ xs, Finishes fun d => f d x) :
    Finishes fun d => xs.mapM (f d) := by
  induction xs with
  | nil => exact const (.ok [])
  | cons x rest ih =>
    simp only [mapM_cons]
    refine (h x mem_cons_self).bind fun y _ => ?_
    exact (ih fun x mem => h x (mem_cons_of_mem _ mem)).bind fun ys _ => const (.ok _)

theorem mapValuesM {f : Nat → α → Outcome β} {m : Assoc α}
    (h : ∀ key a, (key, a) ∈ m → Finishes fun d => f d a) : Finishes fun d => mapValuesM (f d) m :=
  mapM fun e mem => (h e.1 e.2 mem).map (e.1, ·)

theorem of_succ (h : Finishes fun d => f (d + 1)) : Finishes f := by
  obtain ⟨depth, outcome, shallow, same⟩ := h
  refine ⟨depth + 1, outcome, shallow, fun d le => ?_⟩
  obtain ⟨d, rfl⟩ := Nat.exists_eq_add_of_le' (le_trans (Nat.le_add_left 1 depth) le)
  exact same d (Nat.le_of_succ_le_succ le)

end Finishes

theorem Returns.at {a : α} (h : Returns f a) : ∃ d, f d = .ok a :=
  ⟨h.choose, h.choose_spec _ le_rfl⟩

theorem Returns.finishes {a : α} (h : Returns f a) : Finishes f :=
  ⟨h.choose, .ok a, nofun, h.choose_spec⟩

end Runs

section Keys

variable {r : Registry} {expand : Node → Outcome Node}

def Members (r : Registry) (m : Assoc Node) : Prop :=
  ∀ key n, (key, n) ∈ m → ¬ r.Unquoted key ∧ n.Everywhere (Node.Clear r)

theorem everywhere_object : (object m).Everywhere (Node.Clear r) ↔ Members r m := by
  rw [everywhere_object_iff]
  constructor
  · exact fun ⟨keys, inner⟩ key n mem => ⟨keys key (mem_keys mem), inner key n mem⟩
  · refine fun members => ⟨fun key named => ?_, fun key n mem => (members key n mem).2⟩
    obtain ⟨e, mem, rfl⟩ := mem_map.mp named
    exact (members e.1 e.2 mem).1

theorem everywhere_ofPairs : (ofPairs m).Everywhere (Node.Clear r) ↔ Members r m := by
  rw [ofPairs, everywhere_block_iff]
  constructor
  · rintro ⟨_, inner⟩ key n mem
    exact everywhere_keyValue_iff.mp (inner _ (mem_map_of_mem mem))
  · refine fun members => ⟨trivial, fun s mem => ?_⟩
    obtain ⟨e, source, rfl⟩ := mem_map.mp mem
    exact everywhere_keyValue_iff.mpr (members e.1 e.2 source)

theorem Members.ofPairs (h : Members r m) : Members r (Assoc.ofPairs m) :=
  fun key n mem => h key n (mem_of_mem_ofPairs mem)

def Clears (r : Registry) (expand : Node → Outcome Node) : Prop :=
  ∀ {n n'}, n.Everywhere (Node.Clear r) → expand n = .ok n' → n'.Everywhere (Node.Clear r)

/-- The fields of an instance of a clear object mention what its type mentions. -/
theorem completed_only (explicit : r.Explicit) (settles : Settles r expand) (clears : Clears r expand)
    {m nodes : Assoc Node} {values completed : Assoc Data} (members : Members r m)
    (given : mapValuesM (fun n => expand n >>= toValue) (m.filter (·.1 != "type")) = .ok values)
    (complete : r.complete (.str name) (.map values)
      (some fun e known => e.evaluate .fields known) = .ok completed)
    (spelled : ofEntries (erase completed "type") = .ok nodes) :
    ∀ key n, (key, n) ∈ nodes → ¬ r.Unquoted key ∧ n.Only r (r.Mentions name) := by
  have known : r.Known (r.Mentions name) values := by
    intro key d mem
    obtain ⟨n, source, run⟩ := exists_of_mem_mapValuesM given mem
    obtain ⟨n', first, second⟩ := bind_eq_ok run
    obtain ⟨free, clear⟩ := members key n (mem_of_mem_filter source)
    exact ⟨free, toValue_only (only_of_plain (clears clear first) (settles.plain first)) second⟩
  have all := Registry.complete_known explicit known complete
  intro key n mem
  obtain ⟨d, source, run⟩ := exists_of_mem_mapValuesM (ofEntries_eq _ ▸ spelled) mem
  obtain ⟨free, only⟩ := all key d ((erase_sublist completed "type").subset source)
  exact ⟨free, ofValue_only only run⟩

theorem attributes_clears (explicit : r.Explicit) (settles : Settles r expand)
    (clears : Clears r expand)
    {m m' : Assoc Node} (members : Members r m)
    (run : attributes r expand m = .ok m') : Members r m' := by
  have each {nodes : Assoc Node} (members : Members r nodes)
    (run : mapValuesM expand nodes = .ok m') :
      Members r m' := by
    intro key n' mem
    obtain ⟨n, source, one⟩ := exists_of_mem_mapValuesM run mem
    obtain ⟨free, clear⟩ := members key n source
    exact ⟨free, clears clear one⟩
  rcases attributes_eq_ok_iff.mp run with ⟨name, _, fields⟩ | ⟨_, run⟩
  · obtain ⟨values, completed, nodes, given, complete, spelled, run⟩ := fieldsOf_eq_ok_iff.mp fields
    have only := completed_only explicit settles clears members given complete spelled
    exact each (fun key n mem => ⟨(only key n mem).1, (only key n mem).2.clear⟩) run
  · exact each members run

theorem statements_clears (clears : Clears r expand)
    (clear : (Node.block statements).Everywhere (Node.Clear r))
    (each : statements.mapM (statement expand) = .ok expanded) :
    (Node.block expanded).Everywhere (Node.Clear r) := by
  refine everywhere_block_iff.mpr ⟨trivial, fun s' mem => ?_⟩
  obtain ⟨s, source, one⟩ := exists_of_mem_mapM each mem
  have clear := (everywhere_block_iff.mp clear).2 s source
  rcases statement_eq_ok_iff.mp one with ⟨key, value, value', rfl, inner, rfl⟩ | ⟨_, inner⟩
  · obtain ⟨free, clear⟩ := everywhere_keyValue_iff.mp clear
    exact everywhere_keyValue_iff.mpr ⟨free, clears clear inner⟩
  · exact clears clear inner

theorem step_clears (explicit : r.Explicit) (settles : Settles r expand) (clears : Clears r expand) :
    Clears r (step r expand) := by
  intro n n' clear run
  cases n with
  | object members =>
    obtain ⟨m, inner, rfl⟩ := map_eq_ok run
    exact everywhere_object.mpr
      (attributes_clears explicit settles clears (everywhere_object.mp clear).ofPairs inner)
  | list elements =>
    obtain ⟨expanded, each, rfl⟩ := map_eq_ok run
    refine everywhere_list_iff.mpr ⟨trivial, fun n mem => ?_⟩
    obtain ⟨n₀, source, one⟩ := exists_of_mem_mapM each mem
    exact clears ((everywhere_list_iff.mp clear).2 n₀ source) one
  | block statements =>
    obtain ⟨expanded, each, final⟩ := block_eq_ok_iff.mp run
    have clear := statements_clears clears clear each
    rcases final with ⟨pairs, m, found, _, inner, rfl⟩ | ⟨_, rfl⟩
    · rw [pairs?_eq_some_iff.mp found, everywhere_ofPairs] at clear
      exact everywhere_ofPairs.mpr (attributes_clears explicit settles clears clear.ofPairs inner)
    · exact clear
  | named name label body =>
    obtain ⟨body', inner, rfl⟩ := map_eq_ok run
    refine everywhere_named_iff.mpr ⟨trivial, ?_⟩
    obtain ⟨statements, first, final⟩ := namedBody_eq_ok_iff.mp inner
    have clear := clears (everywhere_named_iff.mp clear).2 first
    rcases final with ⟨attributes, members, rfl, second, rfl⟩ | ⟨_, rfl⟩
    · have object := (everywhere_block_iff.mp clear).2 _ (mem_singleton.mpr rfl)
      exact everywhere_ofPairs.mpr (everywhere_object.mp (clears object second))
    · exact clear
  | keyValue key value =>
    obtain ⟨value', inner, rfl⟩ := map_eq_ok run
    obtain ⟨free, clear⟩ := everywhere_keyValue_iff.mp clear
    exact everywhere_keyValue_iff.mpr ⟨free, clears clear inner⟩
  | _ =>
    cases run
    exact clear

theorem within_clears (explicit : r.Explicit) (depth : Nat) : Clears r (within r depth) := by
  induction depth with
  | zero => exact nofun
  | succ depth ih => exact step_clears explicit (within_settles r depth) ih

end Keys

section Instances

variable {r : Registry} {S : String → Prop} {body : Node}

/-- Every clear tree whose instances are of a set of types is expanded in the end. -/
def Ends (r : Registry) (S : String → Prop) : Prop := ∀ n :
    Node, n.Only r S → Finishes fun d => within r d n

theorem fieldsOf_finishes (explicit : r.Explicit) (rooted : r.Rooted name)
    (below : Ends r (r.Mentions name)) (members : Members r m)
    (each : ∀ key n, (key, n) ∈ m → Finishes fun d => within r d n) :
    Finishes fun d => fieldsOf r (within r d) name m := by
  unfold fieldsOf
  refine Finishes.bind ?_ fun values given => ?_
  · refine .mapValuesM fun key n source => ?_
    exact (each key n (mem_of_mem_filter source)).bind fun n' _ => .const (toValue_shallow n')
  refine (Finishes.const (Registry.complete_shallow rooted values)).bind fun completed complete => ?_
  refine (Finishes.const (ofEntries_shallow _)).bind fun nodes spelled => ?_
  refine .mapValuesM fun key n mem => below n ?_
  obtain ⟨d, given⟩ := given.at
  obtain ⟨_, complete⟩ := complete.at
  obtain ⟨_, spelled⟩ := spelled.at
  exact (completed_only explicit (within_settles r d)
    (within_clears explicit d) members given complete
    spelled key n mem).2

theorem isAtom_of_typeName? {n : Node} {name : String} (h : n.typeName? = some name) :
    n.isAtom = true := by
  cases n with
  | identifier | literal => rfl
  | _ => cases h

/-- A block that is expanded as an instance was one before its statements were expanded. -/
theorem instanceOf_block {expand : Node → Outcome Node} (settles : Settles r expand)
    {pairs : List (String × Node)}
    (each : statements.mapM (statement expand) = .ok expanded) (found : pairs? expanded = some pairs)
    (typed : registeredType r (Assoc.ofPairs pairs) = .ok (some name)) :
    (Node.block statements).InstanceOf name := by
  obtain ⟨type, given, spelled, _⟩ := registeredType_eq_some_iff.mp typed
  rw [pairs?_eq_some_iff, ofPairs, Node.block.injEq] at found
  have inside : keyValue "type" type ∈ expanded :=
    found ▸ mem_map_of_mem (mem_of_mem_ofPairs (mem_of_get? given))
  refine ⟨fun s mem => ?_, type, ?_, spelled⟩
  · obtain ⟨s', member', one⟩ := exists_mem_of_mapM each mem
    rcases statement_eq_ok_iff.mp one with ⟨_, _, _, rfl, _, _⟩ | ⟨_, inner⟩
    · rfl
    · obtain ⟨e, _, rfl⟩ := mem_map.mp (found ▸ member')
      exact (settles.keyValue inner).symm
  · obtain ⟨s, source, one⟩ := exists_of_mem_mapM each inside
    rcases statement_eq_ok_iff.mp one with ⟨key, value, value', rfl, inner, same⟩ | ⟨form, inner⟩
    · cases same
      rwa [settles.atom (.inr (isAtom_of_typeName? spelled)) inner]
    · rw [← settles.keyValue inner] at form
      cases form

/-- What the statements of a block return is returned as it is from then on. -/
theorem returns_of_statements
    (h : Returns (fun d => statements.mapM (statement (within r d))) expanded) {key : String}
    {value : Node}
    (mem : .keyValue key value ∈ expanded) : Returns (fun d => within r d value) value := by
  obtain ⟨depth, returned⟩ := h
  refine ⟨depth, fun d le => ?_⟩
  obtain ⟨s, _, one⟩ := exists_of_mem_mapM (returned d le) mem
  obtain ⟨_, again, same⟩ := map_eq_ok (statement_settles (within_settles r d) one).1
  cases same
  exact again

theorem returns_of_single {attributes : List (String × Node)}
    (h : Returns (fun d => within r d body) (.block [.object attributes])) :
    Returns (fun d => within r d (.object attributes)) (.object attributes) := by
  obtain ⟨depth, returned⟩ := h
  refine ⟨depth, fun d le => ?_⟩
  have again := (within_settles r (d + 1)).fixed (returned (d + 1) (Nat.le_succ_of_le le))
  obtain ⟨expanded, each, ⟨_, m, _, _, _, same⟩ | ⟨_, same⟩⟩ := block_eq_ok_iff.mp again
  · cases m <;> cases same
  · cases same
    obtain ⟨_, mem, one⟩ := exists_mem_of_mapM each mem_cons_self
    rwa [mem_singleton.mp mem] at one

theorem statements_shallow (n : Node) : n.statements.Shallow := by
  unfold Node.statements
  split
  · exact .ok _
  · exact .error nofun

theorem namedBody_finishes (h : Finishes fun d => within r d body) :
    Finishes fun d => namedBody (within r d) body := by
  refine h.bind fun body' returned => ?_
  refine (Finishes.const (statements_shallow body')).bind fun statements found => ?_
  obtain ⟨_, found⟩ := found.at
  cases body' with
  | block statements' =>
    cases found
    split
    · refine (returns_of_single returned).finishes.bind fun node _ => ?_
      split
      · exact .const (.ok _)
      · exact .const (.error (by simp))
    · exact .const (.ok _)
  | _ => cases found

section Below

variable (explicit : r.Explicit) (acyclic : r.Acyclic)
  (below : ∀ name, S name → contains r name = true → Ends r (r.Mentions name))

include explicit acyclic below

theorem attributes_finishes (members : Members r m)
    (each : ∀ key n, (key, n) ∈ m → Finishes fun d => within r d n)
    (allowed : ∀ name, registeredType r m = .ok (some name) → S name) :
    Finishes fun d => attributes r (within r d) m := by
  refine (Finishes.const (registeredType_shallow r m)).bind fun found returned => ?_
  cases found with
  | none => exact .mapValuesM each
  | some name =>
    obtain ⟨_, typed⟩ := returned.at
    obtain ⟨_, _, _, known⟩ := registeredType_eq_some_iff.mp typed
    exact fieldsOf_finishes explicit (acyclic name known)
      (below name (allowed name typed) known) members each

theorem block_finishes {statements : List Node} (only : (Node.block statements).Only r S)
    (each : ∀ s ∈ statements, Finishes fun d => statement (within r d) s) :
    Finishes fun d => block r (within r d) statements := by
  refine (Finishes.mapM each).bind fun expanded returned => ?_
  obtain ⟨d, run⟩ := returned.at
  cases found : pairs? expanded with
  | none => exact .const (.ok _)
  | some pairs =>
    dsimp only
    split
    · have clear := statements_clears (within_clears explicit d) only.clear run
      rw [pairs?_eq_some_iff.mp found, everywhere_ofPairs] at clear
      have again (key : String) (n : Node) (mem : (key, n) ∈ Assoc.ofPairs pairs) :
          Finishes fun d => within r d n := by
        rw [pairs?_eq_some_iff, ofPairs, Node.block.injEq] at found
        have inside : keyValue key n ∈ expanded :=
          found ▸ mem_map_of_mem (mem_of_mem_ofPairs mem)
        exact (returns_of_statements returned inside).finishes
      refine (attributes_finishes explicit acyclic below clear.ofPairs again
        fun name typed => ?_).bind
        fun m _ => .const (.ok _)
      obtain ⟨_, _, _, known⟩ := registeredType_eq_some_iff.mp typed
      exact (only _ (.self _)).2 name (instanceOf_block (within_settles r d) run found typed) known
    · exact .const (.ok _)

/-- Expansion ends for instances of a set of types if it does for what each of the types mentions.
-/
theorem ends_of_below (n : Node) (only : n.Only r S) : Finishes fun d => within r d n := by
  refine .of_succ ?_
  cases n with
  | object attributes =>
    have inner := (everywhere_object_iff.mp only).2
    refine Finishes.map ?_ object
    refine attributes_finishes explicit acyclic below (everywhere_object.mp only.clear).ofPairs
      (fun key n mem => ?_) fun name found => ?_
    · have source := mem_of_mem_ofPairs mem
      have smaller := sizeOf_lt_object source
      exact ends_of_below n (inner key n source)
    · obtain ⟨type, typed, spelled, known⟩ := registeredType_eq_some_iff.mp found
      have source := mem_of_mem_ofPairs (mem_of_get? typed)
      exact (only _ (.self _)).2 name ⟨type, source, spelled⟩ known
  | list elements =>
    refine Finishes.map (.mapM fun n mem => ?_) list
    exact ends_of_below n ((everywhere_list_iff.mp only).2 n mem)
  | block statements =>
    refine block_finishes explicit acyclic below only fun s mem => ?_
    have inner := (everywhere_block_iff.mp only).2 s mem
    cases form : s.isKeyValue with
    | false =>
      simp only [statement_of_not_keyValue form]
      exact ends_of_below s inner
    | true =>
      cases s with
      | keyValue key value =>
        -- the value of a pair is expanded without a step for the pair
        have smaller : sizeOf value < sizeOf (Node.block statements) := by
          have := sizeOf_lt_of_mem mem
          simp only [keyValue.sizeOf_spec, Node.block.sizeOf_spec] at this ⊢
          omega
        exact (ends_of_below value (everywhere_keyValue_iff.mp inner).2).map (keyValue key)
      | _ => cases form
  | named name label body =>
    have body := ends_of_below body (everywhere_named_iff.mp only).2
    exact (namedBody_finishes body).map (named name label)
  | keyValue key value =>
    exact (ends_of_below value (everywhere_keyValue_iff.mp only).2).map (keyValue key)
  | _ => exact .const (.ok _)
termination_by sizeOf n

end Below

/-- Expansion ends, with one outcome for all depths from some depth on, if inheritance has no cycle,
every chain of types that mention each other in their defaults ends, and no key hides a type. -/
theorem within_finishes (acyclic : r.Acyclic) (explicit : r.Explicit)
    (founded : WellFounded fun u t => r.Mentions t u) {n : Node}
    (clear : n.Everywhere (Node.Clear r)) :
    ∃ depth outcome, outcome ≠ .error .tooDeep ∧ ∀ d ≥ depth, within r d n = outcome := by
  have mentioned (name : String) : Ends r (r.Mentions name) :=
    founded.induction name fun name ih =>
      ends_of_below explicit acyclic fun u mentions _ => ih u mentions
  have only : n.Only r fun _ => True := fun part inside => ⟨clear part inside, fun _ _ _ => trivial⟩
  exact ends_of_below explicit acyclic (fun name _ _ => mentioned name) n only

/-- A type whose default is an instance of another type. -/
theorem within_finishes_nested : let any : Constraint := { admits := .primitive { name := "any" } }
    let size : TypeDef := ⟨"Size",
      [("cores", { constraint := any, initial := .value (.int 2) })], none⟩
    let inner : Node := .object [("type", .identifier "Size"), ("disk", .identifier "fast")]
    let host : TypeDef := ⟨"Host",
      [("size", { constraint := any, initial := .computed inner })], none⟩
    let r : Registry := [("Size", size), ("Host", host)]
    let n : Node := .named "web" none (.block [.keyValue "type" (.identifier "Host"),
      .keyValue "Host" (.literal (.int 80))])
    r.Acyclic ∧ r.Explicit ∧ (WellFounded fun u t => r.Mentions t u) ∧ n.Everywhere (Node.Clear r) ∧
      ∃ depth outcome, outcome ≠ .error .tooDeep ∧ ∀ d ≥ depth, within r d n = outcome := by
  intro any size inner host r n
  have registered {name : String} (known : contains r name = true) : name = "Size" ∨
      name = "Host" := by
    simpa [r, keys] using contains_iff.mp known
  have acyclic : r.Acyclic := by
    intro name known
    rcases registered known with rfl | rfl <;> exact .root rfl rfl
  have fieldsOf {t : String} {fields : Assoc Field} (found : r.allFields t = .ok fields) :
      t = "Size" ∧ fields = size.fields ∨ t = "Host" ∧ fields = host.fields := by
    have known : contains r t = true := by
      cases Registry.allFields_ok_iff.mp ⟨fields, found⟩ with
      | root found _ => exact contains_of_get? found
      | derived found _ _ => exact contains_of_get? found
    rcases registered known with rfl | rfl <;> cases found
    · exact .inl ⟨rfl, rfl⟩
    · exact .inr ⟨rfl, rfl⟩
  have parts {part : Node} (inside : part.Inside inner) :
      part = inner ∨ part = .identifier "Size" ∨ part = .identifier "fast" := by
    unfold inner at inside
    cases inside with
    | self => exact .inl rfl
    | member source inside =>
      simp only [mem_cons, Prod.mk.injEq, not_mem_nil, or_false] at source
      rcases source with ⟨_, rfl⟩ | ⟨_, rfl⟩ <;> cases inside
      · exact .inr (.inl rfl)
      · exact .inr (.inr rfl)
  have gives {t : String} {type : Node} (h : r.Gives t type) : t = "Host" ∧
      type = .identifier "Size" := by
    obtain ⟨fields, key, field, e, attributes, found, mem, own, inside, typed⟩ := h
    rcases fieldsOf found with ⟨_, rfl⟩ | ⟨rfl, rfl⟩ <;> cases mem_singleton.mp mem
    · cases own
    · cases mem_singleton.mp own
      rcases parts inside with same | same | same
      · unfold inner at same
        cases same
        cases get?_of_mem (by simp [keys]) typed
        exact ⟨rfl, rfl⟩
      · cases same
      · cases same
  have free {key : String} (other : key ≠ "Size") : ¬ r.Unquoted key := by
    rintro ⟨t, given⟩
    exact other (identifier.inj (gives given).2)
  have explicit : r.Explicit := by
    constructor
    · intro t type given
      rw [(gives given).2]
      trivial
    · intro t fields found key mem
      rcases fieldsOf found with ⟨_, rfl⟩ | ⟨_, rfl⟩ <;> cases mem_singleton.mp mem <;>
        exact free (by decide)
    · intro t fields key field d found mem given
      rcases fieldsOf found with ⟨_, rfl⟩ | ⟨_, rfl⟩ <;> cases mem_singleton.mp mem <;> cases given
      exact .atom rfl
    · intro t fields key field e found mem own part inside
      rcases fieldsOf found with ⟨_, rfl⟩ | ⟨_, rfl⟩ <;> cases mem_singleton.mp mem
      · cases own
      · cases mem_singleton.mp own
        rcases parts inside with rfl | rfl | rfl
        · simp [inner, Node.Clear, keys, free]
        · trivial
        · trivial
  have founded : WellFounded fun u t => r.Mentions t u := by
    refine Subrelation.wf (fun {u t} mentions => ?_)
      (measure fun name => if name = "Host" then 1 else 0).wf
    obtain ⟨type, given, spelled⟩ := mentions
    obtain ⟨rfl, rfl⟩ := gives given
    cases spelled
    exact Nat.one_pos
  have clear : n.Everywhere (Node.Clear r) := by simp [n, Node.Clear, free, Data.hashable]
  exact ⟨acyclic, explicit, founded, clear, within_finishes acyclic explicit founded clear⟩

end Instances

/-- A type whose default is an instance of the type itself is expanded without end. -/
theorem within_endless : let type : TypeRef := { name := "any" }
    let self : Node := .object [("type", .identifier "A")]
    let field : Field := { constraint := { admits := .declared type }, initial := .computed self }
    let r : Registry := [("A", { name := "A", fields := [("x", field)] })]
    let program : Node := .block [.typeDef false "A" [("x", type, some self)] none,
      .named "y" none (.block [.keyValue "type" (.identifier "A")])]
    (fun read : Node × Parser.State => (read.1, read.2.registry)) <$>
        Parser.parse "type A \x7b\n  x: any = \x7b type = A \x7d\n\x7d\ny \x7b\n  type = A\n\x7d\n" =
          .ok (program, r) ∧
      r.Acyclic ∧ ∀ depth, within r depth program = .error .tooDeep := by
  intro type self field r program
  have attributes_eq (expand : Node → Outcome Node) (n : Node) (named : n.typeName? = some "A") :
      attributes r expand [("type", n)] =
        mapValuesM expand [("x", .object [("type", .literal (.str "A"))])] := by
    have typed : registeredType r [("type", n)] = .ok (some "A") :=
      registeredType_eq_some_iff.mpr ⟨n, rfl, named, rfl⟩
    rw [attributes, typed]
    rfl
  have instance_endless (depth : Nat) :
      within r depth (.object [("type", .literal (.str "A"))]) = .error .tooDeep := by
    induction depth with
    | zero => rfl
    | succ depth ih =>
      change object <$> attributes r (within r depth) [("type", .literal (.str "A"))] = _
      rw [attributes_eq _ _ rfl, mapValuesM_cons, ih]
      rfl
  have body_endless (depth : Nat) :
      within r depth (.block [.keyValue "type" (.identifier "A")]) = .error .tooDeep := by
    rcases depth with _ | _ | depth
    · rfl
    · rfl
    · change (do return ofPairs (←
        attributes r (within r (depth + 1)) [("type", .identifier "A")])) = _
      rw [attributes_eq _ _ rfl, mapValuesM_cons, instance_endless]
      rfl
  have named_endless (depth : Nat) :
      within r depth (.named "y" none (.block [.keyValue "type" (.identifier "A")])) =
        .error .tooDeep := by
    cases depth with
    | zero => rfl
    | succ depth =>
      change named "y" none <$> namedBody (within r depth) _ = _
      rw [namedBody, body_endless]
      rfl
  refine ⟨by cbv, ?_, ?_⟩
  · intro name known
    obtain rfl : name = "A" := mem_singleton.mp (contains_iff.mp known)
    exact .root rfl rfl
  · intro depth
    rcases depth with _ | _ | depth
    · rfl
    · rfl
    · change block r (within r (depth + 1)) _ = _
      rw [block, mapM_cons, mapM_cons, statement_of_not_keyValue rfl, statement_of_not_keyValue rfl,
        named_endless]
      rfl

end Stratus.Expand
