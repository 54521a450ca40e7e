import Stratus.Proofs.Typing.Inheritance
import Stratus.Typing.Check

/-!
What it is to be an instance of a type, said by rules. Where every value that is examined is a map,
the check finds no problem just when the value conforms.
-/
namespace Stratus

open Assoc hiding set
open Primitive

/-- An outcome is a result, which is of a kind just when something holds. -/
def Outcome.Tells {α : Type} (x : Outcome α) (kind : α → Prop) (c : Prop) : Prop :=
  ∃ a, x = .ok a ∧ (kind a ↔ c)

def Field.Optional (field : Field) : Prop :=
  field.initial.isAbsent = false ∨ field.calculated.isSome = true

def Primitive.names : List String := ["string", "number", "bool", "any"]

namespace Registry

mutual

/-- A map conforms to a type when it leaves out only optional fields and has permitted values for
the rest. -/
inductive Conforms (r : Registry) : String → Data → Prop
  | intro {type : String} {entries : Assoc Data} {fields : Assoc Field} : r.allFields type =
      .ok fields →
      (∀ name field, (name, field) ∈ fields → get? entries name = none → field.Optional) →
      (∀ name field d, (name, field) ∈ fields → get? entries name = some d →
        Permits r field.constraint d) →
      Conforms r type (.map entries)

inductive Permits (r : Registry) : Constraint → Data → Prop
  | null {k : Constraint} : k.nullable = true → Permits r k .null
  | listed {k : Constraint} {values : List Data} {d value : Data} : d.isNull = false →
      k.admits = .oneOf values → value ∈ values → d.same value = true → Permits r k d
  | member {k : Constraint} {type member : TypeRef} {d : Data} : d.isNull = false →
      k.admits = .declared type → member ∈ type.members → Matches r member.name d → Permits r k d
  | declared {k : Constraint} {type : TypeRef} {d : Data} : d.isNull = false →
      k.admits = .declared type → type.members = [] → Matches r type.name d → Permits r k d

/-- A value matches a type name; a name of no type is matched by the text that spells it. -/
inductive Matches (r : Registry) : String → Data → Prop
  | string (s : String) : Matches r "string" (.str s)
  | int (n : Int) : Matches r "number" (.int n)
  | float (x : Binary64) : Matches r "number" (.float x)
  | truth (b : Bool) : Matches r "number" (.bool b)
  | bool (b : Bool) : Matches r "bool" (.bool b)
  | any (d : Data) : Matches r "any" d
  | registered {name : String} {d : Data} : name ∉ names → contains r name = true →
      Conforms r name d → Matches r name d
  | spelled {name : String} : name ∉ names → contains r name = false →
      Matches r name (.str name)

end

/-- A type that a value is tried against: that of the constraint, or one of its members when the
value matches none before it. -/
inductive Tries (r : Registry) (k : Constraint) (d : Data) : String → Prop
  | declared {type : TypeRef} : d.isNull = false → k.admits = .declared type → type.members = [] →
      Tries r k d type.name
  | member {type member : TypeRef} {before after : List TypeRef} : d.isNull = false →
      k.admits = .declared type → type.members = before ++ member :: after →
      (∀ earlier ∈ before, ¬ Matches r earlier.name d) → Tries r k d member.name

/-- Examining a value as an instance of a type comes to examining it, or a value inside it, as an
instance of a registered type. -/
inductive Examines (r : Registry) : String → Data → String → Data → Prop
  | here (type : String) (d : Data) : Examines r type d type d
  | inside {type name other last : String} {entries : Assoc Data} {fields : Assoc Field}
      {field : Field}
      {d e : Data} : r.allFields type = .ok fields → (name, field) ∈ fields →
      get? entries name = some d → Tries r field.constraint d other → other ∉ names →
      contains r other = true → Examines r other d last e → Examines r type (.map entries) last e

def OnlyMaps (r : Registry) (type : String) (d : Data) : Prop :=
  ∀ other e, Examines r type d other e → ∃ entries, e = .map entries

/-- Every field has a list of values or a declared type. -/
def Declared (r : Registry) : Prop :=
  ∀ type fields, r.allFields type = .ok fields → ∀ e ∈ fields, ∀ t,
  e.2.constraint.admits ≠ .primitive t

/-! ### Names and members -/

variable {r : Registry} {type name : String} {d : Data} {entries : Assoc Data} {fields : Assoc Field}

theorem ofName?_eq_none_iff : ofName? name = none ↔ name ∉ names := by
  unfold ofName? names
  split <;> simp_all

theorem includes_iff {kind : Primitive} (named : ofName? name = some kind) :
    kind.includes d = true ↔ Matches r name d := by
  have primitive : name ∈ names := by
    by_contra other
    rw [ofName?_eq_none_iff.mpr other] at named
    cases named
  constructor
  · intro h
    unfold ofName? at named
    split at named <;> cases named
    · cases d with
      | str s => exact .string s
      | _ => cases h
    · cases d with
      | int n => exact .int n
      | float x => exact .float x
      | bool b => exact .truth b
      | _ => cases h
    · cases d with
      | bool b => exact .bool b
      | _ => cases h
    · exact .any d
  · intro h
    cases h with
    | registered other | spelled other => exact absurd primitive other
    | _ =>
      cases named
      rfl

theorem matches_registered_iff (named : name ∉ names) (registered : contains r name = true) :
    Matches r name d ↔ Conforms r name d := by
  constructor
  · intro h
    cases h with
    | registered _ _ conforms => exact conforms
    | spelled _ unknown =>
      rw [registered] at unknown
      cases unknown
    | _ => exact absurd (by decide) named
  · exact .registered named registered

theorem matches_spelled_iff (named : name ∉ names) (unknown : contains r name = false) :
    Matches r name d ↔ d = .str name := by
  constructor
  · intro h
    cases h with
    | registered _ registered _ =>
      rw [unknown] at registered
      cases registered
    | spelled => rfl
    | _ => exact absurd (by decide) named
  · rintro rfl
    exact .spelled named unknown

theorem candidates_eq (r : Registry) (entries : Assoc Data) :
    r.candidates entries = mapValues r.candidate entries := by
  induction entries with
  | nil => rfl
  | cons e rest ih =>
    rw [candidates, ih]
    rfl

theorem conforms_iff (found : r.allFields type = .ok fields) : Conforms r type (.map entries) ↔
      ∀ e ∈ fields, (get? entries e.1 = none → e.2.Optional) ∧
        ∀ d, get? entries e.1 = some d → Permits r e.2.constraint d := by
  constructor
  · rintro ⟨found', absent, present⟩ e member
    rw [found] at found'
    cases found'
    exact ⟨absent e.1 e.2 member, fun d => present e.1 e.2 d member⟩
  · intro h
    exact .intro found (fun name field member => (h (name, field) member).1)
      fun name field d member => (h (name, field) member).2 d

theorem onlyMaps_iff (found : r.allFields type = .ok fields) : OnlyMaps r type (.map entries) ↔
      ∀ e ∈ fields, ∀ d, get? entries e.1 = some d → ∀ other, Tries r e.2.constraint d other →
        other ∉ names → contains r other = true → OnlyMaps r other d := by
  constructor
  · intro maps e member d present other tries named registered last inner examines
    exact maps last inner (.inside found member present tries named registered examines)
  · intro maps other d examines
    cases examines with
    | here => exact ⟨entries, rfl⟩
    | inside found' member present tries named registered examines =>
      rw [found] at found'
      cases found'
      exact maps _ member _ present _ tries named registered _ _ examines

section Permits

variable {k : Constraint} {t : TypeRef}

theorem permits_null_iff : Permits r k .null ↔ k.nullable = true := by
  constructor
  · intro h
    cases h with
    | null nullable => exact nullable
    | listed notNull | member notNull | declared notNull => cases notNull
  · exact .null

variable (notNull : d.isNull = false)

include notNull

theorem permits_listed_iff {values : List Data} (admits : k.admits = .oneOf values) :
    Permits r k d ↔ values.any (Data.same d) = true := by
  constructor
  · intro h
    cases h with
    | null => cases notNull
    | listed _ admits' member same =>
      rw [admits] at admits'
      cases admits'
      exact List.any_eq_true.mpr ⟨_, member, same⟩
    | member _ admits' | declared _ admits' =>
      rw [admits] at admits'
      cases admits'
  · intro h
    obtain ⟨value, member, same⟩ := List.any_eq_true.mp h
    exact .listed notNull admits member same

theorem permits_declared_iff (admits : k.admits = .declared t) : Permits r k d ↔
      if t.members.isEmpty = true then Matches r t.name d
        else ∃ m ∈ t.members, Matches r m.name d := by
  constructor
  · intro h
    cases h with
    | null => cases notNull
    | listed _ admits' =>
      rw [admits] at admits'
      cases admits'
    | member _ admits' member fits =>
      rw [admits] at admits'
      cases admits'
      have several : ¬ t.members.isEmpty = true :=
        fun none => by simp [List.isEmpty_iff.mp none] at member
      rw [if_neg several]
      exact ⟨_, member, fits⟩
    | declared _ admits' single fits =>
      rw [admits] at admits'
      cases admits'
      rw [if_pos (List.isEmpty_iff.mpr single)]
      exact fits
  · intro h
    split at h
    · next single => exact .declared notNull admits (List.isEmpty_iff.mp single) h
    · obtain ⟨m, member, fits⟩ := h
      exact .member notNull admits member fits

end Permits

/-! ### One step of the check -/

theorem report_tells {x : Outcome Bool} {c : Prop} (h : x.Tells (· = true) c) (message : String) :
    Outcome.Tells (do if ← x then return none else return some message) (· = none) c := by
  obtain ⟨answer, rfl, meaning⟩ := h
  refine ⟨if answer = true then none else some message, ?_, ?_⟩
  · cases answer <;> rfl
  · cases answer <;> simpa using meaning

/-- The check has an answer for a value, whatever the name it is tried against. -/
def Settled (r : Registry) (d : Data) : Prop :=
  ∀ name, (name ∉ names → contains r name = true → OnlyMaps r name d) →
    Outcome.Tells (r.fits d name) (· = true) (Matches r name d)

theorem fitsAny_tells {members : List TypeRef}
    (each : ∀ before member after, members = before ++ member :: after →
      (∀ earlier ∈ before, ¬ Matches r earlier.name d) →
        Outcome.Tells (r.fits d member.name) (· = true) (Matches r member.name d)) :
    Outcome.Tells (Constraint.fitsAny (r.candidate d) members) (· = true)
      (∃ member ∈ members, Matches r member.name d) := by
  induction members with
  | nil => exact ⟨false, rfl, by simp⟩
  | cons first rest ih =>
    obtain ⟨answer, run, meaning⟩ := each [] first rest rfl (by simp)
    have run : (r.candidate d).fits first.name = .ok answer := run
    rw [Constraint.fitsAny, run]
    cases answer with
    | true => exact ⟨true, rfl, by simpa using .inl (meaning.mp rfl)⟩
    | false =>
      have mismatch : ¬ Matches r first.name d := fun h => by simpa using meaning.mpr h
      obtain ⟨later, run, meaning⟩ := ih fun before member after split earlier =>
        each (first :: before) member after (by rw [split]; rfl) (by simpa [mismatch] using earlier)
      exact ⟨later, run, by simpa [mismatch] using meaning⟩

theorem problem?_tells {k : Constraint} (declared : ∀ t, k.admits ≠ .primitive t)
    (settled : Settled r d)
    (maps : ∀ other, Tries r k d other → other ∉ names → contains r other = true →
      OnlyMaps r other d) : Outcome.Tells (k.problem? (r.candidate d)) (· = none)
        (Permits r k d) := by
  rw [Constraint.problem?]
  cases null : d.isNull with
  | true =>
    obtain rfl : d = .null := by cases d <;> simp_all [Data.isNull]
    refine ⟨if k.nullable then none else some "Value cannot be null", rfl, ?_⟩
    rw [permits_null_iff]
    cases k.nullable <;> simp
  | false =>
    have present : ¬ (r.candidate d).value.isNull = true := by simp [candidate, null]
    rw [if_neg present]
    cases admits : k.admits with
    | primitive t => exact absurd admits (declared t)
    | oneOf values =>
      refine ⟨_, rfl, ?_⟩
      rw [permits_listed_iff null admits]
      change (if values.any (Data.same d) = true then none else some _) = none ↔ _
      split <;> simp_all
    | declared t =>
      rw [permits_declared_iff null admits]
      by_cases single : t.members.isEmpty = true
      · simp only [if_pos single]
        have answer := settled t.name (maps _ (.declared null admits (List.isEmpty_iff.mp single)))
        exact report_tells answer _
      · simp only [if_neg single]
        have answer := fitsAny_tells fun before member after split earlier =>
          settled member.name (maps _ (.member null admits split earlier))
        exact report_tells answer _

section Instances

variable {field : Field}

theorem fieldProblems_absent (found : get? entries name = none) :
    fieldProblems (.map entries) (r.candidates entries) ((name, field) :: fields) = (do
      return (if field.initial.isAbsent &&
        field.calculated.isNone then [s!"Missing required field: {name}"] else []) ++
        (← fieldProblems (.map entries) (r.candidates entries) fields)) := by
  have has : (Data.map entries).has name = .ok false := by rw [Data.has, contains, found]; rfl
  rw [fieldProblems, has]
  rfl

theorem fieldProblems_present (found : get? entries name = some d) :
    fieldProblems (.map entries) (r.candidates entries) ((name, field) :: fields) = (do
      let problem ← field.constraint.problem? (r.candidate d)
      return (problem.toList.map fun p => s!"Field {name}: {p}") ++
        (← fieldProblems (.map entries) (r.candidates entries) fields)) := by
  have has : (Data.map entries).has name = .ok true := by rw [Data.has, contains, found]; rfl
  have member : get? (r.candidates entries) name = some (r.candidate d) := by
    rw [candidates_eq, get?_mapValues, found]
    rfl
  rw [fieldProblems, has, member]
  rfl

theorem prepend_tells {x : Outcome (List String)} {c c' : Prop} {here : List String}
    (first : here = [] ↔ c)
    (later : x.Tells (· = []) c') : Outcome.Tells (do return here ++ (← x)) (· = []) (c ∧ c') := by
  obtain ⟨problems, rfl, meaning⟩ := later
  exact ⟨here ++ problems, rfl, List.append_eq_nil_iff.trans (and_congr first meaning)⟩

theorem fieldProblems_tells (each : ∀ e ∈ fields, ∀ d, get? entries e.1 = some d →
      Outcome.Tells (e.2.constraint.problem? (r.candidate d)) (· = none)
        (Permits r e.2.constraint d)) :
    Outcome.Tells (fieldProblems (.map entries) (r.candidates entries) fields) (· = [])
      (∀ e ∈ fields, (get? entries e.1 = none → e.2.Optional) ∧
        ∀ d, get? entries e.1 = some d → Permits r e.2.constraint d) := by
  induction fields with
  | nil => exact ⟨[], rfl, by simp⟩
  | cons e rest ih =>
    obtain ⟨name, field⟩ := e
    have later := ih fun e member => each e (List.mem_cons_of_mem _ member)
    rw [List.forall_mem_cons]
    cases found : get? entries name with
    | none =>
      rw [fieldProblems_absent found]
      refine prepend_tells ?_ later
      have optional : field.Optional ↔
          (field.initial.isAbsent && field.calculated.isNone) = false := by
        rw [Field.Optional, Bool.and_eq_false_iff, Option.isNone_eq_false_iff]
      simp only [true_implies, reduceCtorEq, false_implies, implies_true, and_true, optional]
      cases field.initial.isAbsent && field.calculated.isNone <;> simp
    | some d =>
      obtain ⟨problem, run, meaning⟩ := each (name, field) List.mem_cons_self d found
      rw [fieldProblems_present found, run]
      refine prepend_tells ?_ later
      simp only [reduceCtorEq, false_implies, true_and, Option.some.injEq, forall_eq', ← meaning]
      cases problem <;> simp

end Instances

/-- The rules and the check agree on an instance when they do on the values inside it. -/
theorem instanceProblems_tells (acyclic : Acyclic r) (declared : Declared r)
    (settled : ∀ name d, get? entries name = some d → Settled r d)
    (maps : OnlyMaps r type (.map entries)) :
    Outcome.Tells (r.instanceProblems (.map entries) (r.candidates entries) type) (· = [])
      (Conforms r type (.map entries)) := by
  rw [instanceProblems]
  cases registered : contains r type with
  | false =>
    refine ⟨["Unknown type: " ++ type], rfl, by simp, ?_⟩
    rintro ⟨found, -, -⟩
    have known := (allFields_ok_iff.mp ⟨_, found⟩).registered_name
    rw [registered] at known
    cases known
  | true =>
    obtain ⟨fields, found⟩ := allFields_ok_iff.mpr (acyclic type registered)
    rw [conforms_iff found, found]
    refine fieldProblems_tells fun e member d present => ?_
    exact problem?_tells (declared type fields found e member) (settled e.1 d present)
      ((onlyMaps_iff found).mp maps e member d present)

theorem fitsNamed_tells {members : Assoc Candidate} (name : String)
    (instances : name ∉ names → contains r name = true →
      Outcome.Tells (r.instanceProblems d members name) (· = []) (Conforms r name d)) :
    Outcome.Tells (r.fitsNamed d members name) (· = true) (Matches r name d) := by
  unfold fitsNamed
  cases named : ofName? name with
  | some kind => exact ⟨_, rfl, includes_iff named⟩
  | none =>
    have named := ofName?_eq_none_iff.mp named
    cases registered : contains r name with
    | true =>
      rw [matches_registered_iff named registered]
      obtain ⟨problems, run, meaning⟩ := instances named registered
      refine ⟨problems.isEmpty, ?_, List.isEmpty_iff.trans meaning⟩
      rw [run]
      rfl
    | false =>
      rw [matches_spelled_iff named registered]
      refine ⟨_, rfl, ?_⟩
      cases d <;> simp

mutual

theorem fits_settled (acyclic : Acyclic r) (declared : Declared r) (d : Data) : Settled r d := by
  intro name maps
  cases d with
  | map entries =>
    rw [fits]
    refine fitsNamed_tells name fun named registered => ?_
    exact instanceProblems_tells acyclic declared (members_settled acyclic declared entries)
      (maps named registered)
  | _ =>
    -- A value of another kind is not examined as an instance.
    refine fitsNamed_tells name fun named registered => ?_
    obtain ⟨entries, same⟩ := maps named registered _ _ (.here _ _)
    cases same

theorem members_settled (acyclic : Acyclic r) (declared : Declared r)
    (entries : List (String × Data)) :
    ∀ name d, get? entries name = some d → Settled r d := by
  cases entries with
  | nil => exact fun name d found => by cases found
  | cons e rest =>
    obtain ⟨key, value⟩ := e
    intro name d found
    rw [get?] at found
    split at found
    · cases found
      exact fits_settled acyclic declared value
    · exact members_settled acyclic declared rest name d found

end

/-- Checking values as an instance of a type has an answer, and finds no problem just when they
conform to the type. -/
theorem problems_nil_iff_conforms (acyclic : Acyclic r) (declared : Declared r)
    (maps : OnlyMaps r type (.map entries)) :
    ∃ problems, r.problems type (.map entries) = .ok problems ∧
      (problems = [] ↔ Conforms r type (.map entries)) :=
  instanceProblems_tells acyclic declared (members_settled acyclic declared entries) maps

/-- A type that mentions itself; the text that ends the chain is tried as a rule nowhere. -/
theorem problems_of_chained_rules :
    let next : TypeRef := { name := "", members := [{ name := "last" }, { name := "Rule" }] }
    let fields : Assoc Field :=
      [("port", { constraint := { admits := .declared { name := "number" } } }),
        ("next", { constraint := { admits := .declared next } }),
        ("protocol", {
          constraint := { admits := .oneOf [.str "tcp", .str "udp"] }
          initial := .value (.str "tcp") })]
    let r : Registry := [("Rule", { name := "Rule", fields })]
    let rules : Assoc Data := [("port", .int 80),
      ("next", .map [("port", .int 443), ("next", .str "last")])]
    (Acyclic r ∧ Declared r ∧ OnlyMaps r "Rule" (.map rules)) ∧
      (∃ problems, r.problems "Rule" (.map rules) = .ok problems ∧
        (problems = [] ↔ Conforms r "Rule" (.map rules))) ∧
          r.problems "Rule" (.map rules) = .ok [] := by
  intro next fields r rules
  have found : r.allFields "Rule" = .ok fields := rfl
  have only {name : String} (registered : Assoc.contains r name = true) : name = "Rule" :=
    List.mem_singleton.mp (Assoc.contains_iff.mp registered)
  have acyclic : Acyclic r := by
    intro name registered
    rw [only registered]
    exact allFields_ok_iff.mp ⟨fields, found⟩
  have declared : Declared r := by
    intro type fields' found' e member t
    rw [only (allFields_ok_iff.mp ⟨_, found'⟩).registered_name, found] at found'
    cases found'
    simp only [fields, List.mem_cons, List.not_mem_nil, or_false] at member
    rcases member with rfl | rfl | rfl <;> simp
  -- Only the next rule can be tried as a rule, and only if it is not the text that ends the chain.
  have inside (entries : Assoc Data)
      (below : ∀ d, Assoc.get? entries "next" = some d → ¬ Matches r "last" d →
        OnlyMaps r "Rule" d) :
      OnlyMaps r "Rule" (.map entries) := by
    refine (onlyMaps_iff found).mpr fun e member d present other tries named registered => ?_
    have rule := only registered
    simp only [fields, List.mem_cons, List.not_mem_nil, or_false] at member
    cases tries with
    | declared _ admits single =>
      rcases member with rfl | rfl | rfl <;> cases admits
      · exact absurd rule (by decide)
      · cases single
    | @member _ tried before after _ admits split earlier =>
      rcases member with rfl | rfl | rfl <;> cases admits
      · exact absurd split (by simp)
      · cases before with
        | nil =>
          cases split
          exact absurd rule (by decide)
        | cons first rest =>
          obtain rfl : first = { name := "last" } := (List.cons.inj split).1.symm
          exact rule ▸ below d present (earlier _ List.mem_cons_self)
  have maps : OnlyMaps r "Rule" (.map rules) := by
    refine inside rules fun d present _ => ?_
    cases present
    refine inside _ fun d present mismatch => ?_
    cases present
    exact absurd (.spelled (by decide) rfl) mismatch
  exact ⟨⟨acyclic, declared, maps⟩, problems_nil_iff_conforms acyclic declared maps, rfl⟩

end Registry

end Stratus
