import Stratus.Proofs.Typing.Completion
import Stratus.Typing.Catalogue

/-!
Instances of the types of the catalogue. The check takes `map` and `list` for texts, so a completed
instance with given fields of their kinds has one problem for each field declared to be a map or a
list.
-/
namespace Stratus

open List hiding contains keys
open Assoc hiding set

/-- A value of a declared kind, be it a primitive one, a map or a list. -/
def Data.isOfKind (d : Data) (kind : String) : Bool :=
  if kind = "map" then d.isMap
  else if kind = "list" then d.isList
  else (Primitive.ofName? kind).any fun primitive => primitive.includes d

/-- The one name in the declaration of a field, if it has no more to say. -/
def Field.kind? (field : Field) : Option String :=
  match field.constraint with
  | ⟨.declared ⟨name, false, []⟩, false⟩ => some name
  | _ => none

theorem Field.constraint_of_kind? {field : Field} {kind : String} (h : field.kind? = some kind) :
    field.constraint = { admits := .declared { name := kind } } := by
  unfold kind? at h
  split at h
  · next same =>
      cases h
      exact same
  · cases h

namespace Catalogue

def kinds : List String := ["string", "number", "bool", "map", "list"]

/-- The kinds that are not primitive. -/
def compound : List String := ["map", "list"]

/-- A field of one of the kinds, without calculation, whose initial value is of its kind. -/
structure Regular (field : Field) (kind : String) : Prop where
  kind? : field.kind? = some kind
  known : kind ∈ kinds
  plain : field.calculated = none
  initial : field.initial = .absent ∨ ∃ d, field.initial = .value d ∧ d.isOfKind kind = true

def isRegular (field : Field) : Bool :=
  field.calculated.isNone && field.kind?.any fun kind => kinds.contains kind &&
    match field.initial with
    | .absent => true
    | .value d => d.isOfKind kind
    | .computed _ => false

theorem regular_of_isRegular {field : Field} (h : isRegular field = true) :
    ∃ kind, Regular field kind := by
  rw [isRegular, Bool.and_eq_true, Option.isNone_iff_eq_none, Option.any_eq_true] at h
  obtain ⟨plain, kind, named, h⟩ := h
  rw [Bool.and_eq_true, contains_iff_mem] at h
  refine ⟨kind, named, h.1, plain, ?_⟩
  cases initial : field.initial with
  | absent => exact .inl rfl
  | value d => exact .inr ⟨d, rfl, by simpa [initial] using h.2⟩
  | computed node => simp [initial] at h

end Catalogue

namespace Registry

open Catalogue

variable {r : Registry} {kind : String} {d : Data} {fields : Assoc Field}
  {values completed : Assoc Data}
  {evaluate : Evaluator}

def OfKinds (fields : Assoc Field) (values : Assoc Data) : Prop :=
  ∀ e ∈ fields, (get? values e.1).all (fun d => e.2.kind?.all d.isOfKind) = true

/-- Values that give every field without an initial value. -/
def Supplies (fields : Assoc Field) (values : Assoc Data) : Prop :=
  ∀ e ∈ fields, e.2.initial.isAbsent = true → e.1 ∈ keys values

/-- Values with all fields, each of its kind. -/
def Filled (fields : Assoc Field) (values : Assoc Data) : Prop :=
  ∀ e ∈ fields, ∃ d kind, get? values e.1 = some d ∧ Regular e.2 kind ∧ d.isOfKind kind = true

instance : Decidable (OfKinds fields values) :=
  inferInstanceAs (Decidable (∀ e ∈ fields,
    (get? values e.1).all (fun d => e.2.kind?.all d.isOfKind) = true))

instance : Decidable (Supplies fields values) :=
  inferInstanceAs (Decidable (∀ e ∈ fields, e.2.initial.isAbsent = true → e.1 ∈ keys values))

/-! ### The check of fields of their kinds -/

theorem fits_primitive {primitive : Primitive} (named : Primitive.ofName? kind = some primitive) :
    r.fits d kind = .ok (primitive.includes d) := by
  cases d <;> simp [fits, fitsNamed, named]

/-- A name that is known neither as a primitive kind nor as a type stands for the text that spells
it. -/
theorem fits_unknown (named : Primitive.ofName? kind = none) (unknown : contains r kind = false)
    (other : d ≠ .str kind) : r.fits d kind = .ok false := by
  cases d with
  | str text =>
    have apart : text ≠ kind := fun same => other (congrArg Data.str same)
    simp [fits, fitsNamed, named, unknown, apart]
  | _ => simp [fits, fitsNamed, named, unknown]

theorem problem?_of_fits {fit : Bool} (proper : d.isNull = false)
    (answer : r.fits d kind = .ok fit) :
    Constraint.problem? { admits := .declared { name := kind } } (r.candidate d) =
      .ok (if fit then none else some ("Value does not match type: " ++ kind)) := by
  rw [Constraint.problem?, candidate, if_neg (by simp [proper])]
  simp only [isEmpty_nil, if_true, answer]
  cases fit <;> rfl

theorem isNull_of_isOfKind (known : kind ∈ kinds) (ofKind : d.isOfKind kind = true) :
    d.isNull = false := by
  cases d with
  | null =>
    simp only [kinds, mem_cons, not_mem_nil, or_false] at known
    rcases known with rfl | rfl | rfl | rfl | rfl <;> cases ofKind
  | _ => rfl

/-- A value of its kind has no problem under a primitive kind; under another it always has one. -/
theorem problem?_of_kind (free : ∀ kind ∈ compound, contains r kind = false) (known : kind ∈ kinds)
    (ofKind : d.isOfKind kind = true) :
    Constraint.problem? { admits := .declared { name := kind } } (r.candidate d) =
      .ok (if kind ∈ compound then some ("Value does not match type: " ++ kind) else none) := by
  have proper := isNull_of_isOfKind known ofKind
  by_cases odd : kind ∈ compound
  · have unknown := free kind odd
    have named : Primitive.ofName? kind = none ∧ d ≠ .str kind := by
      simp only [compound, mem_cons, not_mem_nil, or_false] at odd
      rcases odd with rfl | rfl <;> exact ⟨rfl, fun same => by rw [same] at ofKind; cases ofKind⟩
    rw [problem?_of_fits proper (fits_unknown named.1 unknown named.2), if_pos odd]
    rfl
  · have primitive : (Primitive.ofName? kind).any
        (fun primitive => primitive.includes d) = true := by
      simp only [compound, mem_cons, not_mem_nil, or_false, not_or] at odd
      rwa [Data.isOfKind, if_neg odd.1, if_neg odd.2] at ofKind
    rw [Option.any_eq_true] at primitive
    obtain ⟨primitive, named, includes⟩ := primitive
    rw [problem?_of_fits proper (fits_primitive named), if_neg odd, includes]
    rfl

/-- What the check says of a field of a compound kind, whatever its value. -/
def mismatch? (e : String × Field) : Option String :=
  (e.2.kind?.filter compound.contains).map fun kind =>
    s!"Field {e.1}: Value does not match type: {kind}"

theorem fieldProblems_of_kinds (free : ∀ kind ∈ compound, contains r kind = false)
    (filled : Filled fields completed) :
    fieldProblems (.map completed) (r.candidates completed) fields =
      .ok (fields.filterMap mismatch?) := by
  induction fields with
  | nil => rfl
  | cons e rest ih =>
    obtain ⟨here, later⟩ := forall_mem_cons.mp filled
    obtain ⟨d, kind, found, regular, ofKind⟩ := here
    obtain ⟨name, field⟩ := e
    rw [fieldProblems_present found, Field.constraint_of_kind? regular.kind?,
      problem?_of_kind free regular.known ofKind, ih later]
    have named : field.kind? = some kind := regular.kind?
    by_cases odd : kind ∈ compound
    · have text : mismatch? (name, field) =
          some s!"Field {name}: Value does not match type: {kind}" := by
        simp [mismatch?, named, odd]
      rw [filterMap_cons_some text, if_pos odd]
      simp only [toString, String.append_assoc]
      rfl
    · have fine : mismatch? (name, field) = none := by simp [mismatch?, named, odd]
      rw [filterMap_cons_none fine, if_neg odd]
      rfl

/-! ### Completing instances of regular fields -/

theorem fillInitial_ok (evaluate : Evaluator) (regular : ∀ e ∈ fields, ∃ kind, Regular e.2 kind)
    (known : Assoc Data) :
    ∃ filled, fillInitial evaluate fields known = .ok filled := by
  induction fields generalizing known with
  | nil => exact ⟨known, rfl⟩
  | cons e rest ih =>
    obtain ⟨⟨kind, here⟩, later⟩ := forall_mem_cons.mp regular
    obtain ⟨name, field⟩ := e
    rw [fillInitial]
    split
    · exact ih later known
    · obtain absent | ⟨d, own, -⟩ := here.initial
      · rw [absent]
        exact ih later known
      · rw [own]
        cases d <;> exact ih later _

theorem fillCalculated_eq_self (plain : ∀ e ∈ fields, e.2.calculated = none) (known : Assoc Data) :
    fillCalculated evaluate fields known = .ok known := by
  induction fields with
  | nil => rfl
  | cons e rest ih =>
    obtain ⟨here, later⟩ := forall_mem_cons.mp plain
    obtain ⟨name, field⟩ := e
    rw [fillCalculated, here]
    exact ih later

theorem filled_of_initialises (regular : ∀ e ∈ fields, ∃ kind, Regular e.2 kind)
    (ofKinds : OfKinds fields values)
    (supplies : Supplies fields values) (initial : Initialises evaluate fields values completed) :
    Filled fields completed := by
  intro e mem
  obtain ⟨kind, here⟩ := regular e mem
  by_cases given : e.1 ∈ keys values
  · obtain ⟨d, found⟩ := Option.isSome_iff_exists.mp (contains_iff.mpr given)
    have ofKind := ofKinds e mem
    rw [found, here.kind?] at ofKind
    exact ⟨d, kind, (initial.kept e.1 given).trans found, here, ofKind⟩
  · obtain absent | ⟨d, own, ofKind⟩ := here.initial
    · exact absurd (supplies e mem (by rw [absent]; rfl)) given
    · obtain ⟨before, after, split⟩ := append_of_mem mem
      have filled := initial.missing before e.1 e.2 after split given
      have proper : d ≠ .null := fun null => given (supplies e mem (by rw [own, null]; rfl))
      have value : initialValue evaluate (.value d)
        (update values (select completed (keys before))) =
          .ok (some d) := by
        cases d <;> first | rfl | exact absurd rfl proper
      rw [own, value] at filled
      exact ⟨d, kind, (Except.ok.inj filled).symm, here, ofKind⟩

theorem complete_of_kinds (evaluate : Evaluator) {name : String}
    (found : r.allFields name = .ok fields)
    (distinct : (keys fields).Nodup) (single : (keys values).Nodup)
    (regular : ∀ e ∈ fields, ∃ kind, Regular e.2 kind) (ofKinds : OfKinds fields values)
    (supplies : Supplies fields values) :
    ∃ completed, r.complete (.str name) (.map values) (some evaluate) = .ok completed ∧
      Filled fields completed := by
  have registered := (allFields_ok_iff.mp ⟨fields, found⟩).registered_name
  obtain ⟨completed, run⟩ := fillInitial_ok evaluate regular values
  have plain : ∀ e ∈ fields, e.2.calculated = none :=
    fun e mem => (regular e mem).elim fun _ here => here.plain
  refine ⟨completed, ?_, filled_of_initialises regular ofKinds supplies
    (initialises_of_run distinct run)⟩
  rw [complete_eq, if_pos registered, found, ofPairs_of_nodup single]
  change fillInitial evaluate fields values >>= fillCalculated evaluate fields = _
  rw [run]
  exact fillCalculated_eq_self plain completed

/-! ### Registering the catalogue -/

/-- Types in an order in which each comes after its base. -/
def isGrounded : List String → List TypeDef → Bool
  | _, [] => true
  | known, t :: rest => t.parent?.all known.contains && isGrounded (t.name :: known) rest

theorem foldlM_register {types : List TypeDef} {known : List String}
    (grounded : isGrounded known types = true)
    (registered : ∀ name ∈ known, contains r name = true) :
    types.foldlM register r = .ok (update r (types.map fun t => (t.name, t))) := by
  induction types generalizing r known with
  | nil => rfl
  | cons t rest ih =>
    rw [isGrounded, Bool.and_eq_true, Option.all_eq_true] at grounded
    have step : r.register t = .ok (Assoc.set r t.name t) :=
      register_eq_ok_iff.mpr
        ⟨fun base parent => registered base (contains_iff_mem.mp (grounded.1 base parent)), rfl⟩
    rw [foldlM_cons, step]
    refine ih grounded.2 fun name mem => contains_set_iff.mpr ?_
    rcases mem_cons.mp mem with rfl | earlier
    · exact .inl rfl
    · exact .inr (registered name earlier)

theorem get?_update_types {types : List TypeDef} {t : TypeDef}
    (distinct : (types.map TypeDef.name).Nodup)
    (listed : t ∈ types) : get? (update r (types.map fun t => (t.name, t))) t.name = some t := by
  have nodup : (keys (types.map fun t => (t.name, t))).Nodup := by
    simpa [keys, Function.comp_def] using distinct
  rw [get?_update r nodup, get?_of_mem nodup (mem_map_of_mem listed)]
  rfl

end Registry

namespace Catalogue

def base? (t : TypeDef) : Option TypeDef := t.parent?.bind fun name => types.find? (·.name == name)

def fieldsOf (t : TypeDef) : Assoc Field :=
  (base? t).elim t.fields fun base => update base.fields t.fields

/-- The types without a field of a compound kind. -/
def nameable : List String := ["AwsNameable", "GcpNameable", "AzureNameable"]

theorem nodup_names : (types.map TypeDef.name).Nodup := by decide +kernel

theorem names_not_compound : ∀ kind ∈ compound, kind ∉ types.map TypeDef.name := by decide +kernel

theorem types_grounded : Registry.isGrounded [] types = true := by decide +kernel

/-- What holds of each type by itself: the fields have different names and are regular, no type is
derived from a derived one, and three types have no field of a compound kind. -/
theorem types_checked : ∀ t ∈ types, (keys t.fields).Nodup ∧ (∀ e ∈ t.fields, isRegular e.2 = true) ∧
    (t.parent?.isNone = true ∨ (base? t).any (fun base => base.parent?.isNone) = true) ∧
    (fieldsOf t).all (fun e => (e.2.kind?.filter compound.contains).isNone) =
    nameable.contains t.name := by
  decide +kernel

theorem nodup_keys_fields {t : TypeDef} (listed : t ∈ types) : (keys t.fields).Nodup :=
  (types_checked t listed).1

theorem fields_regular {t : TypeDef} (listed : t ∈ types) :
    ∀ e ∈ t.fields, ∃ kind, Regular e.2 kind :=
  fun e mem => regular_of_isRegular ((types_checked t listed).2.1 e mem)

theorem parent_cases {t : TypeDef} (listed : t ∈ types) :
    (t.parent? = none ∧ fieldsOf t = t.fields) ∨
      ∃ base ∈ types, t.parent? = some base.name ∧ base.parent? = none ∧
        fieldsOf t = update base.fields t.fields := by
  rcases (types_checked t listed).2.2.1 with noParent | derived
  · rw [Option.isNone_iff_eq_none] at noParent
    exact .inl ⟨noParent, by rw [fieldsOf, base?, noParent]; rfl⟩
  · rw [Option.any_eq_true] at derived
    obtain ⟨base, found, rooted⟩ := derived
    obtain ⟨name, parent, located⟩ := Option.bind_eq_some_iff.mp found
    have named : base.name = name := by simpa using find?_some located
    refine .inr ⟨base, mem_of_find?_eq_some located, ?_, Option.isNone_iff_eq_none.mp rooted, ?_⟩
    · rw [parent, named]
    · rw [fieldsOf, found]
      rfl

theorem regular_fieldsOf {t : TypeDef} (listed : t ∈ types) :
    ∀ e ∈ fieldsOf t, ∃ kind, Regular e.2 kind := by
  intro e mem
  obtain ⟨-, own⟩ | ⟨base, listedBase, -, -, merged⟩ := parent_cases listed
  · exact fields_regular listed e (own ▸ mem)
  · rcases mem_of_mem_update (merged ▸ mem) with inherited | own
    · exact fields_regular listedBase e inherited
    · exact fields_regular listed e own

theorem nodup_keys_fieldsOf {t : TypeDef} (listed : t ∈ types) : (keys (fieldsOf t)).Nodup := by
  obtain ⟨-, own⟩ | ⟨base, listedBase, -, -, merged⟩ := parent_cases listed
  · exact own ▸ nodup_keys_fields listed
  · exact merged ▸ nodup_keys_update (nodup_keys_fields listedBase) t.fields

end Catalogue

namespace Registry

open Catalogue

variable {r : Registry} {t : TypeDef}

def catalogued (r : Registry) : Registry := update r (types.map fun t => (t.name, t))

theorem withCatalogue_eq (r : Registry) : r.withCatalogue = .ok r.catalogued :=
  foldlM_register types_grounded fun _ mem => by cases mem

theorem get?_catalogued (listed : t ∈ types) : get? r.catalogued t.name = some t :=
  get?_update_types nodup_names listed

theorem contains_catalogued_compound (free : ∀ kind ∈ compound, contains r kind = false) :
    ∀ kind ∈ compound, contains r.catalogued kind = false := by
  intro kind odd
  have new : kind ∉ keys (types.map fun t => (t.name, t)) := by
    simpa [keys] using names_not_compound kind odd
  rw [contains, catalogued, get?_update_of_notMem r new]
  exact free kind odd

theorem allFields_catalogued (listed : t ∈ types) :
    r.catalogued.allFields t.name = .ok (fieldsOf t) := by
  have found := get?_catalogued (r := r) listed
  obtain ⟨noParent, own⟩ | ⟨base, listedBase, parent, rooted, merged⟩ := parent_cases listed
  · rw [allFields, fieldsWithin_root found _ noParent, own]
  · have above := get?_catalogued (r := r) listedBase
    -- The base needs a step of its own: a registry that holds it is not empty.
    obtain ⟨fuel, enough⟩ : ∃ fuel, r.catalogued.length = fuel + 1 :=
      Nat.exists_eq_add_one.mpr (length_pos_of_mem (mem_of_get? above))
    rw [allFields, fieldsWithin_derived found _ parent, enough,
      fieldsWithin_root above _ rooted, merged]
    rfl

/-- Values that give the fields of a catalogued type without initial values, and of their kinds what
they give, are completed; the check of the completed instance lists just the fields declared to be
maps or lists. -/
theorem problems_of_catalogued (free : ∀ kind ∈ compound, Assoc.contains r kind = false) :
    ∃ loaded, r.withCatalogue = .ok loaded ∧ ∀ t ∈ types,
      loaded.allFields t.name = .ok (fieldsOf t) ∧
      ∀ evaluate values, (Assoc.keys values).Nodup → OfKinds (fieldsOf t) values →
        Supplies (fieldsOf t) values →
        ∃ completed, loaded.complete (.str t.name) (.map values) (some evaluate) = .ok completed ∧
          loaded.problems t.name (.map completed) = .ok ((fieldsOf t).filterMap mismatch?) ∧
          (loaded.problems t.name (.map completed) = .ok [] ↔ t.name ∈ nameable) := by
  refine ⟨r.catalogued, withCatalogue_eq r, fun t listed => ?_⟩
  have found := allFields_catalogued (r := r) listed
  refine ⟨found, fun evaluate values single ofKinds supplies => ?_⟩
  obtain ⟨completed, run, filled⟩ :=
    complete_of_kinds evaluate found (nodup_keys_fieldsOf listed) single
    (regular_fieldsOf listed) ofKinds supplies
  have listing : r.catalogued.problems t.name (.map completed) =
      .ok ((fieldsOf t).filterMap mismatch?) := by
    rw [problems, instanceProblems, if_pos (Assoc.contains_of_get? (get?_catalogued listed)), found]
    exact fieldProblems_of_kinds (contains_catalogued_compound free) filled
  refine ⟨completed, run, listing, ?_⟩
  rw [listing, Except.ok.injEq, filterMap_eq_nil_iff, ← contains_iff_mem,
    ← (types_checked t listed).2.2.2, all_eq_true]
  simp only [mismatch?, Option.map_eq_none_iff, Option.isNone_iff_eq_none]

theorem problems_of_catalogued_group :
    ∃ loaded completed, Registry.withCatalogue [] = .ok loaded ∧
      loaded.complete (.str "AwsSecurityGroup") (.map [("name", .str "web"), ("vpc_id", .str "v")])
        (some fun _ _ => .ok .null) = .ok completed ∧
      loaded.problems "AwsSecurityGroup" (.map completed) = .ok
        ["Field tags: Value does not match type: map",
          "Field ingress: Value does not match type: list",
          "Field egress: Value does not match type: list"] := by
  have listed : aws.get ⟨4, by decide⟩ ∈ types := mem_append_left _ (mem_append_left _ (get_mem _ _))
  obtain ⟨loaded, load, each⟩ := problems_of_catalogued (r := []) fun _ _ => rfl
  obtain ⟨completed, run, listing, -⟩ := (each _ listed).2 (fun _ _ => .ok .null)
    [("name", .str "web"), ("vpc_id", .str "v")] (by decide) (by decide +kernel) (by decide +kernel)
  exact ⟨loaded, completed, load, run, listing⟩

/-- The initial value of the tags is a map, and the check refuses it. -/
theorem initial_tags_refused :
    ∃ loaded, Registry.withCatalogue [] = .ok loaded ∧
      loaded.complete (.str "AwsTaggable") (.map []) (some fun _ _ => .ok .null) =
        .ok [("tags", .map [("ManagedBy", .str "Terraform")])] ∧
      loaded.problems "AwsTaggable" (.map [("tags", .map [("ManagedBy", .str "Terraform")])]) =
        .ok ["Field tags: Value does not match type: map"] :=
  ⟨catalogued [], withCatalogue_eq [], by rfl, by rfl⟩

end Registry
end Stratus
