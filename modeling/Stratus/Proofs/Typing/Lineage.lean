import Stratus.Proofs.Typing.Inheritance

/-!
The lineage of a type: the types on its chain of bases, the root first. The fields of a type are
those of its lineage merged, and each name means what the most derived type says.
-/
namespace Stratus

open Assoc hiding set

namespace Registry

variable {r : Registry} {name base : String} {t : TypeDef} {lineage : List TypeDef}

/-- The registries that registrations build; the fields of a type have names of their own. -/
inductive Reachable : Registry → Prop
  | empty : Reachable []
  | register {r r' : Registry} {t : TypeDef} :
      Reachable r → (keys t.fields).Nodup → r.register t = .ok r' → Reachable r'

def Distinct (r : Registry) : Prop := ∀ name t, get? r name = some t → (keys t.fields).Nodup

/-- The chain of bases of a name never comes back to a type on it. -/
def Straight (r : Registry) (name : String) : Prop :=
  ∀ other base t, Leads r name other → get? r other = some t → t.parent? = some base →
    ¬ Leads r base other

/-- The types on the chain of bases of a name, the root first and the type of that name last. -/
inductive Lineage (r : Registry) : String → List TypeDef → Prop
  | root {name : String} {t : TypeDef} :
      get? r name = some t → t.parent? = none → Lineage r name [t]
  | derived {name base : String} {t : TypeDef} {lineage : List TypeDef} :
      get? r name = some t → t.parent? = some base → Lineage r base lineage →
      Lineage r name (lineage ++ [t])

/-- Every base of a registered type is registered, also after types have been replaced. -/
theorem Reachable.base_registered (h : Reachable r) (found : get? r name = some t)
    (parent : t.parent? = some base) : contains r base = true := by
  induction h generalizing name t with
  | empty => cases found
  | register _ _ registered ih =>
    obtain ⟨known, rfl⟩ := register_eq_ok_iff.mp registered
    rw [get?_registered] at found
    rw [contains_set_iff]
    split at found
    · cases found
      exact .inr (known base parent)
    · exact .inr (ih found parent)

theorem Reachable.distinct (h : Reachable r) : Distinct r := by
  induction h with
  | empty => exact fun name t found => by cases found
  | register _ distinct registered ih =>
    obtain ⟨-, rfl⟩ := register_eq_ok_iff.mp registered
    intro name t found
    rw [get?_registered] at found
    split at found
    · cases found
      exact distinct
    · exact ih name t found

theorem Reachable.registerEach {types : List TypeDef} (h : Reachable r)
    (distinct : ∀ t ∈ types, (keys t.fields).Nodup) : Reachable (r.registerEach types) := by
  induction types generalizing r with
  | nil => exact h
  | cons t rest ih =>
    have later := fun t' member => distinct t' (List.mem_cons_of_mem _ member)
    cases registered : r.register t with
    | error fault =>
      have kept : r.registerEach (t :: rest) = r.registerEach rest := by
        rw [Registry.registerEach, List.foldl_cons, registered]
        rfl
      exact kept ▸ ih h later
    | ok r' =>
      have onward : r.registerEach (t :: rest) = r'.registerEach rest := by
        rw [Registry.registerEach, List.foldl_cons, registered]
        rfl
      exact onward ▸ ih (.register h (distinct t List.mem_cons_self) registered) later

def Along (r : Registry) (name : String) : Type := { n : String // n ∈ keys r ∧ Leads r name n }

instance (r : Registry) (name : String) : Finite (Along r name) :=
  Set.Finite.subset (List.finite_toSet (keys r)) fun _ h => h.1

/-- One name on the chain stands above another. -/
def Along.Above {r : Registry} {name : String} (high low : Along r name) : Prop :=
  ∃ t base, get? r low.1 = some t ∧ t.parent? = some base ∧ Leads r base high.1

/-- There are finitely many names, so a chain that is straight cannot go up for ever. -/
theorem Straight.wellFounded (h : Straight r name) : WellFounded (@Along.Above r name) := by
  have : IsTrans (Along r name) Along.Above := by
    refine ⟨fun a b c => ?_⟩
    rintro ⟨t, base, found, parent, leads⟩ ⟨t', base', found', parent', leads'⟩
    exact ⟨t', base', found', parent', leads'.trans (.step found parent leads)⟩
  have : Std.Irrefl (@Along.Above r name) := by
    refine ⟨fun a => ?_⟩
    rintro ⟨t, base, found, parent, leads⟩
    exact h a.1 base t a.2.2 found parent leads
  exact Finite.wellFounded_of_trans_of_irrefl _

theorem Reachable.rooted_of_straight (h : Reachable r) (registered : contains r name = true)
    (straight : Straight r name) : Rooted r name := by
  -- Every base on the chain is registered, so the chain can only end at a type without one.
  have all : ∀ n : Along r name, Rooted r n.1 := by
    intro n
    induction n using straight.wellFounded.induction with
    | h n ih =>
      obtain ⟨t, found⟩ := Option.isSome_iff_exists.mp (contains_iff.mpr n.2.1)
      cases parent : t.parent? with
      | none => exact .root found parent
      | some base =>
        have known := contains_iff.mp (h.base_registered found parent)
        have onward : Leads r name base := n.2.2.trans (.step found parent (.refl base))
        exact .derived found parent (ih ⟨base, known, onward⟩ ⟨t, base, found, parent, .refl base⟩)
  exact all ⟨name, contains_iff.mp registered, .refl name⟩

theorem Rooted.of_leads {other : String} (h : Rooted r name) (leads : Leads r name other) :
    Rooted r other := by
  induction leads with
  | refl => exact h
  | step found parent _ ih =>
    cases h with
    | root found' noParent =>
      rw [found] at found'
      cases found'
      rw [parent] at noParent
      cases noParent
    | derived found' parent' rooted =>
      rw [found] at found'
      cases found'
      rw [parent] at parent'
      cases parent'
      exact ih rooted

theorem Rooted.straight (h : Rooted r name) : Straight r name := by
  intro other base t leads found parent
  exact (h.of_leads leads).not_leads_back found parent

theorem Rooted.exists_lineage (h : Rooted r name) : ∃ lineage, Lineage r name lineage := by
  induction h with
  | root found noParent => exact ⟨_, .root found noParent⟩
  | derived found parent _ ih =>
    obtain ⟨lineage, base⟩ := ih
    exact ⟨_, .derived found parent base⟩

/-- The fields of the types of a lineage written in turn. -/
def merged (lineage : List TypeDef) : Assoc Field :=
  lineage.foldl (fun fields t => update fields t.fields) []

theorem merged_concat (lineage : List TypeDef) (t : TypeDef) :
    merged (lineage ++ [t]) = update (merged lineage) t.fields := by
  rw [merged, List.foldl_append]
  rfl

section Unfolding

variable (found : get? r name = some t) (fuel : Nat)

include found

theorem fieldsWithin_root (noParent : t.parent? = none) :
    fieldsWithin r (fuel + 1) name = .ok t.fields := by
  rw [fieldsWithin, found]
  cases hb : t.base with
  | none => simp [hb]
  | some base =>
    have empty : base = "" := by simpa [TypeDef.parent?, hb] using noParent
    simp [hb, empty]

theorem fieldsWithin_derived (parent : t.parent? = some base) :
    fieldsWithin r (fuel + 1) name = (do return update (← fieldsWithin r fuel base) t.fields) := by
  obtain ⟨hbase, filled⟩ := Option.filter_eq_some_iff.mp parent
  have named : base ≠ "" := by simpa using filled
  rw [fieldsWithin, found]
  simp only [hbase, beq_iff_eq, named, if_false]

end Unfolding

theorem Lineage.fieldsWithin_eq (h : Lineage r name lineage) (distinct : Distinct r) {fuel : Nat}
    {fields : Assoc Field} (run : fieldsWithin r fuel name = .ok fields) :
    fields = merged lineage := by
  induction h generalizing fuel fields with
  | @root name t found noParent =>
    cases fuel with
    | zero => cases run
    | succ fuel =>
      rw [fieldsWithin_root found fuel noParent] at run
      cases run
      exact (ofPairs_of_nodup (distinct name t found)).symm
  | derived found parent _ ih =>
    cases fuel with
    | zero => cases run
    | succ fuel =>
      rw [fieldsWithin_derived found fuel parent] at run
      obtain ⟨inherited, above, last⟩ := Outcome.bind_eq_ok run
      cases last
      rw [merged_concat, ih above]

theorem get?_merged (distinct : ∀ t ∈ lineage, (keys t.fields).Nodup) (key : String) :
    get? (merged lineage) key = lineage.reverse.findSome? fun t => get? t.fields key := by
  induction lineage using List.reverseRecOn with
  | nil => rfl
  | append_singleton lineage t ih =>
    have above := ih fun t' member => distinct t' (List.mem_append_left _ member)
    have own := distinct t (List.mem_append_right _ List.mem_cons_self)
    rw [merged_concat, get?_update _ own, above, List.reverse_concat, List.findSome?_cons]
    cases get? t.fields key <;> rfl

theorem keys_merged (lineage : List TypeDef) :
    keys (merged lineage) = (lineage.flatMap fun t => keys t.fields).eraseDups := by
  induction lineage using List.reverseRecOn with
  | nil => rfl
  | append_singleton lineage t ih =>
    rw [merged_concat, keys_update, ih, removeAll_eraseDups, List.flatMap_append,
      List.eraseDups_append]
    simp

theorem nodup_keys_merged (lineage : List TypeDef) : (keys (merged lineage)).Nodup := by
  induction lineage using List.reverseRecOn with
  | nil => exact List.nodup_nil
  | append_singleton lineage t ih =>
    rw [merged_concat]
    exact nodup_keys_update ih t.fields

theorem nodup_keys_allFields (distinct : Distinct r) {fields : Assoc Field}
    (run : r.allFields name = .ok fields) :
    (keys fields).Nodup := by
  obtain ⟨lineage, chain⟩ := (allFields_ok_iff.mp ⟨fields, run⟩).exists_lineage
  rw [chain.fieldsWithin_eq distinct run]
  exact nodup_keys_merged lineage

theorem Lineage.mem {t : TypeDef} (h : Lineage r name lineage) (member : t ∈ lineage) :
    ∃ n, get? r n = some t := by
  induction h with
  | root found _ =>
    rw [List.mem_singleton] at member
    exact ⟨_, member ▸ found⟩
  | derived found _ _ ih =>
    rcases List.mem_append.mp member with above | own
    · exact ih above
    · rw [List.mem_singleton] at own
      exact ⟨_, own ▸ found⟩

/-- A registered type whose chain of bases is straight has a lineage and all its fields: a name
means what the most derived type says, and the names stand in the order of their first occurrence,
from the root on. -/
theorem allFields_merges_lineage (reachable : Reachable r)
    (registered : Assoc.contains r name = true) (straight : Straight r name) :
    ∃ lineage fields, Lineage r name lineage ∧ r.allFields name = .ok fields ∧
      (∀ key, Assoc.get? fields key = lineage.reverse.findSome? fun t => Assoc.get? t.fields key) ∧
        Assoc.keys fields = (lineage.flatMap fun t => Assoc.keys t.fields).eraseDups := by
  have rooted := reachable.rooted_of_straight registered straight
  obtain ⟨lineage, chain⟩ := rooted.exists_lineage
  obtain ⟨fields, run⟩ := allFields_ok_iff.mpr rooted
  have same := chain.fieldsWithin_eq reachable.distinct run
  have distinct : ∀ t ∈ lineage, (Assoc.keys t.fields).Nodup := by
    intro t member
    obtain ⟨n, found⟩ := chain.mem member
    exact reachable.distinct n t found
  subst same
  exact ⟨lineage, _, chain, run, get?_merged distinct, keys_merged lineage⟩

/-- The root has been registered again since the other two were; each overridden field stands where
it came first. -/
theorem allFields_of_overridden :
    let field (kind : String) : Field := { constraint := { admits := .declared { name := kind } } }
    let r := registerEach []
      [{ name := "Compute", fields := [("cpu", field "number")] },
        { name := "Instance", base := some "Compute",
          fields := [("name", field "string"), ("os", field "string")] },
        { name := "Web", base := some "Instance",
          fields := [("zone", field "any"), ("os", field "Linux")] },
        { name := "Compute", fields := [("memory", field "number"), ("name", field "any")] }]
    (Reachable r ∧ Assoc.contains r "Web" = true ∧ Straight r "Web") ∧
      (∃ lineage fields, Lineage r "Web" lineage ∧ r.allFields "Web" = .ok fields ∧
        (∀ key, Assoc.get? fields key = lineage.reverse.findSome? fun t => Assoc.get? t.fields key) ∧
          Assoc.keys fields = (lineage.flatMap fun t => Assoc.keys t.fields).eraseDups) ∧
      r.allFields "Web" = .ok
        [("memory", field "number"), ("name", field "string"), ("os", field "Linux"),
          ("zone", field "any")] := by
  intro field r
  have run : r.allFields "Web" = .ok
      [("memory", field "number"), ("name", field "string"), ("os", field "Linux"),
        ("zone", field "any")] := rfl
  have reachable : Reachable r := by
    refine Reachable.empty.registerEach fun t member => ?_
    simp only [List.mem_cons, List.not_mem_nil, or_false] at member
    rcases member with rfl | rfl | rfl | rfl <;> decide
  have registered : Assoc.contains r "Web" = true := rfl
  have straight : Straight r "Web" := (allFields_ok_iff.mp ⟨_, run⟩).straight
  exact ⟨⟨reachable, registered, straight⟩,
    allFields_merges_lineage reachable registered straight, run⟩

end Registry

end Stratus
