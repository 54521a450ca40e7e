import Stratus.Proofs.Assoc
import Stratus.Typing.Registry

/-!
Inheritance. The fields of a type are there just when its chain of bases ends. Registering a type
closes a cycle only if its base leads back to its own name.
-/
namespace Stratus

open Assoc hiding set

/-- The name of the base, if there is one; the empty name is none. -/
def TypeDef.parent? (t : TypeDef) : Option String := t.base.filter (· != "")

namespace Registry

/-- Following the bases from a name ends at a type without a base. -/
inductive Rooted (r : Registry) : String → Prop
  | root {name : String} {t : TypeDef} :
      get? r name = some t → t.parent? = none → Rooted r name
  | derived {name base : String} {t : TypeDef} :
      get? r name = some t → t.parent? = some base → Rooted r base → Rooted r name

/-- Following the bases from a name, perhaps not at all, leads to another. -/
inductive Leads (r : Registry) : String → String → Prop
  | refl (name : String) : Leads r name name
  | step {name base other : String} {t : TypeDef} :
      get? r name = some t → t.parent? = some base → Leads r base other → Leads r name other

def Acyclic (r : Registry) : Prop := ∀ name, contains r name = true → Rooted r name

/-- Registers types in turn; one that is refused changes nothing. -/
def registerEach (r : Registry) (types : List TypeDef) : Registry :=
  types.foldl (fun r t => (r.register t).toOption.getD r) r

variable {r : Registry} {name : String}

theorem Leads.trans {a b c : String} (h : Leads r a b) (h' : Leads r b c) : Leads r a c := by
  induction h with
  | refl => exact h'
  | step found parent _ ih => exact .step found parent (ih h')

theorem Rooted.registered_name (h : Rooted r name) : contains r name = true := by
  cases h with
  | root found _ => exact contains_of_get? found
  | derived found _ _ => exact contains_of_get? found

/-- A rooted type is not above its own base. -/
theorem Rooted.not_leads_back {base : String} {t : TypeDef} (h : Rooted r name)
    (found : get? r name = some t) (parent : t.parent? = some base) : ¬ Leads r base name := by
  induction h generalizing base t with
  | root found' noParent =>
    rw [found] at found'
    cases found'
    rw [parent] at noParent
    cases noParent
  | @derived name base' t' found' parent' _ ih =>
    rw [found] at found'
    cases found'
    rw [parent] at parent'
    cases parent'
    intro back
    -- the cycle through the name goes through its base as well
    cases back with
    | refl => exact ih found parent (.refl _)
    | step foundBase parentBase onward =>
      exact ih foundBase parentBase (onward.trans (.step found parent (.refl _)))

/-- The names on the chain of a rooted type, without repetition. -/
theorem Rooted.chain (h : Rooted r name) :
    ∃ names : List String, names.Nodup ∧ (∀ n ∈ names, Leads r name n ∧ n ∈ keys r) ∧
      ∀ fuel, names.length ≤ fuel → ∃ fields, fieldsWithin r fuel name = .ok fields := by
  induction h with
  | @root name t found noParent =>
    refine ⟨[name], List.nodup_singleton _, ?_, ?_⟩
    · intro n mem
      rw [List.mem_singleton] at mem
      subst mem
      exact ⟨.refl _, contains_iff.mp (contains_of_get? found)⟩
    · intro fuel enough
      obtain ⟨fuel, rfl⟩ := Nat.exists_eq_succ_of_ne_zero (Nat.one_le_iff_ne_zero.mp enough)
      refine ⟨t.fields, ?_⟩
      rw [fieldsWithin, found]
      simp only
      cases hb : t.base with
      | none => rfl
      | some base =>
        have empty : base = "" := by simpa [TypeDef.parent?, hb] using noParent
        simp [empty]
  | @derived name base t found parent rooted ih =>
    obtain ⟨names, nodup, along, enough⟩ := ih
    have whole : Rooted r name := .derived found parent rooted
    refine ⟨name :: names, List.nodup_cons.mpr ⟨?_, nodup⟩, ?_, ?_⟩
    · intro mem
      exact whole.not_leads_back found parent (along name mem).1
    · intro n mem
      rcases List.mem_cons.mp mem with rfl | later
      · exact ⟨.refl _, contains_iff.mp (contains_of_get? found)⟩
      · exact ⟨.step found parent (along n later).1, (along n later).2⟩
    · intro fuel many
      obtain ⟨fuel, rfl⟩ := Nat.exists_eq_succ_of_ne_zero
        (Nat.ne_zero_of_lt (Nat.lt_of_lt_of_le (Nat.succ_pos _) many))
      obtain ⟨fields, hfields⟩ := enough fuel (Nat.le_of_succ_le_succ many)
      obtain ⟨hbase, filled⟩ := Option.filter_eq_some_iff.mp parent
      have named : base ≠ "" := by simpa using filled
      refine ⟨update fields t.fields, ?_⟩
      rw [fieldsWithin, found]
      simp only [hbase, beq_iff_eq, named, if_false, hfields]
      rfl

/-- The fields of a type are there just when its chain of bases ends. -/
theorem allFields_ok_iff : (∃ fields, r.allFields name = .ok fields) ↔ Rooted r name := by
  constructor
  · rw [allFields]
    generalize r.length + 1 = fuel
    induction fuel generalizing name with
    | zero =>
      rintro ⟨fields, h⟩
      cases h
    | succ fuel ih =>
      rintro ⟨fields, h⟩
      rw [fieldsWithin] at h
      split at h
      · cases h
      · next t found =>
          split at h
          · next base hbase =>
              split at h
              · next empty =>
                exact .root found (by simp [TypeDef.parent?, hbase, beq_iff_eq.mp empty])
              · next named =>
                  have parent : t.parent? = some base := by
                    simpa [TypeDef.parent?, hbase, Option.filter_eq_some_iff] using named
                  cases hf : fieldsWithin r fuel base with
                  | error fault => rw [hf] at h; cases h
                  | ok inherited => exact .derived found parent (ih ⟨inherited, hf⟩)
          · next noBase => exact .root found (by simp [TypeDef.parent?, noBase])
  · intro rooted
    obtain ⟨names, nodup, along, enough⟩ := rooted.chain
    have few : names.length ≤ r.length := by
      have := (nodup.subperm fun n mem => (along n mem).2).length_le
      rwa [keys, List.length_map] at this
    exact enough _ (Nat.le_succ_of_le few)

theorem register_eq_ok_iff {r' : Registry} {t : TypeDef} : r.register t = .ok r' ↔
      (∀ base, t.parent? = some base → contains r base = true) ∧ r' = Assoc.set r t.name t := by
  have stored : (Except.ok (Assoc.set r t.name t) : Outcome Registry) = .ok r' ↔
      r' = Assoc.set r t.name t := by
    rw [Except.ok.injEq, eq_comm]
  rw [register]
  cases hb : t.base with
  | none => simp only [stored, TypeDef.parent?, hb, Option.filter_none, reduceCtorEq, false_implies,
      implies_true, true_and]
  | some base =>
    by_cases empty : base = ""
    · simp [stored, TypeDef.parent?, hb, empty]
    · have parent : t.parent? = some base := Option.filter_eq_some_iff.mpr ⟨hb, by simpa using empty⟩
      cases hc : contains r base with
      | false => simp [parent, empty, hc]
      | true => simp [stored, parent, hc]

section Registered

variable {r : Registry} {t : TypeDef}

theorem get?_registered (name : String) :
    get? (Assoc.set r t.name t) name = if t.name = name then some t else get? r name :=
  get?_set r t.name t name

variable {name : String}

/-- What leads to the registered name does so in the same way as before. -/
theorem Leads.registered (h : Leads r name t.name) : Leads (Assoc.set r t.name t) name t.name := by
  generalize hname : t.name = target at h
  induction h with
  | refl => exact .refl _
  | @step name base other t' found parent _ ih =>
    by_cases same : other = name
    · subst same
      exact .refl _
    · have kept : get? (Assoc.set r other t) name = some t' := by
        rw [get?_set, if_neg same, found]
      exact .step kept parent (ih hname)

/-- A chain that avoids the registered name stays as it was. -/
theorem Rooted.kept (h : Rooted r name) (apart : ¬ Leads r name t.name) :
    Rooted (Assoc.set r t.name t) name := by
  have other {n : String} (away : ¬ Leads r n t.name) : t.name ≠ n := by
    rintro rfl
    exact away (.refl _)
  induction h with
  | root found noParent =>
    refine .root ?_ noParent
    rw [get?_registered, if_neg (other apart), found]
  | derived found parent _ ih =>
    refine .derived ?_ parent (ih fun leads => apart (.step found parent leads))
    rw [get?_registered, if_neg (other apart), found]

/-- Once the registered type is rooted, so is every type that was. -/
theorem Rooted.registered (h : Rooted r name)
    (here : Rooted (Assoc.set r t.name t) t.name) : Rooted (Assoc.set r t.name t) name := by
  induction h with
  | @root name t' found noParent =>
    by_cases same : t.name = name
    · exact same ▸ here
    · exact .root (by rw [get?_registered, if_neg same, found]) noParent
  | @derived name base t' found parent _ ih =>
    by_cases same : t.name = name
    · exact same ▸ here
    · exact .derived (by rw [get?_registered, if_neg same, found]) parent ih

/-- One registration keeps inheritance acyclic just when the base does not lead back to the name. -/
theorem acyclic_register_iff {r' : Registry} (acyclic : Acyclic r) (h : r.register t = .ok r') :
    Acyclic r' ↔ ∀ base, t.parent? = some base → ¬ Leads r base t.name := by
  obtain ⟨known, rfl⟩ := register_eq_ok_iff.mp h
  have found : get? (Assoc.set r t.name t) t.name = some t := by
    rw [get?_registered, if_pos rfl]
  constructor
  · intro after base parent back
    exact (after t.name (contains_of_get? found)).not_leads_back found parent back.registered
  · intro apart
    have here : Rooted (Assoc.set r t.name t) t.name := by
      cases parent : t.parent? with
      | none => exact .root found parent
      | some base =>
        exact .derived found parent ((acyclic base (known base parent)).kept (apart base parent))
    intro name mem
    rcases contains_set_iff.mp mem with rfl | before
    · exact here
    · exact (acyclic name before).registered here

end Registered

theorem registerEach_concat (r : Registry) (types : List TypeDef) (t : TypeDef) :
    registerEach r (types ++ [t]) =
      ((registerEach r types).register t).toOption.getD (registerEach r types) := by
  rw [registerEach, List.foldl_append]
  rfl

/-- Inheritance stays acyclic through a run of registrations, and all fields are to be had, just
when no registered type gets a base that leads back to its own name. -/
theorem acyclic_run_iff (types : List TypeDef) :
    (∀ before after, types = before ++ after → ∀ name,
      contains (registerEach [] before) name = true →
        Rooted (registerEach [] before) name ∧
          ∃ fields, (registerEach [] before).allFields name = .ok fields) ↔
      ∀ before t after, types = before ++ t :: after → ∀ base, t.parent? = some base →
        contains (registerEach [] before) base = true →
          ¬ Leads (registerEach [] before) base t.name := by
  constructor
  · intro acyclic before t after split base parent known
    have here : Acyclic (registerEach [] before) := fun name mem =>
      (acyclic before (t :: after) split name mem).1
    have registered : (registerEach [] before).register t =
        .ok (Assoc.set (registerEach [] before) t.name t) := by
      refine register_eq_ok_iff.mpr ⟨?_, rfl⟩
      intro base' parent'
      rw [parent] at parent'
      cases parent'
      exact known
    have next : Acyclic (Assoc.set (registerEach [] before) t.name t) := by
      intro name mem
      have := acyclic (before ++ [t]) after (by simp [split]) name
      rw [registerEach_concat, registered] at this
      exact (this mem).1
    exact (acyclic_register_iff here registered).mp next base parent
  · intro apart before
    have invariant : ∀ after, types = before ++ after → Acyclic (registerEach [] before) := by
      induction before using List.reverseRecOn with
      | nil =>
        intro _ _ name mem
        cases mem
      | append_singleton before t ih =>
        intro after split
        have split' : types = before ++ t :: after := by simpa using split
        have acyclic := ih (t :: after) split'
        rw [registerEach_concat]
        cases h : (registerEach [] before).register t with
        | error fault => exact acyclic
        | ok r' =>
          obtain ⟨known, _⟩ := register_eq_ok_iff.mp h
          exact (acyclic_register_iff acyclic h).mpr fun base parent =>
            apart before t after split' base parent (known base parent)
    intro after split name mem
    have rooted := invariant after split name mem
    exact ⟨rooted, allFields_ok_iff.mpr rooted⟩

/-- A type that is registered again under a type derived from it closes a cycle, and neither has
fields any more. -/
theorem registerEach_cycle :
    let types : List TypeDef :=
      [{ name := "A", fields := [] }, { name := "B", fields := [], base := some "A" },
        { name := "A", fields := [], base := some "B" }]
    keys (registerEach [] types) = ["A", "B"] ∧
      ∀ name ∈ ["A", "B"], ¬ Rooted (registerEach [] types) name ∧
        (registerEach [] types).allFields name = .error .tooDeep := by
  intro types
  refine ⟨rfl, ?_⟩
  have circular : ∀ name ∈ ["A", "B"], (registerEach [] types).allFields name = .error .tooDeep := by
    intro name mem
    simp only [List.mem_cons, List.not_mem_nil, or_false] at mem
    rcases mem with rfl | rfl <;> rfl
  intro name mem
  refine ⟨?_, circular name mem⟩
  intro rooted
  obtain ⟨fields, h⟩ := allFields_ok_iff.mpr rooted
  rw [circular name mem] at h
  cases h

end Registry

end Stratus
