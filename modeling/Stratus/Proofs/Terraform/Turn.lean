import Stratus.Proofs.Effect
import Stratus.Proofs.Terraform.Blocks
import Stratus.Proofs.Terraform.Reference
import Stratus.Terraform.Generator

/-!
The turn of a component, which becomes a block in a slot, or nothing, and records its address first
if it becomes a resource.
-/
namespace Stratus

open Assoc hiding set

open Outcome

theorem Component.address_ne_empty (c : Component) : c.address ≠ "" := by
  simp [Component.address]

namespace Terraform

open Effect

variable {providers : Assoc Data} {addresses other : Addresses}

def resource (providers : Assoc Data) (addresses : Addresses) (c : Component) :
    Outcome (Option (Slot × Data)) := do
  match ← provided providers c with
  | some attributes =>
    let block ← withDependencies addresses c (resolveEntries addresses attributes)
    return some (.resource (← c.resourceType.keyText) c.name, .map block)
  | none => return none

def emission (providers : Assoc Data) (addresses : Addresses) (c : Component) :
    Outcome (Option (Slot × Data)) :=
  if !c.resourceType.holds then .ok none
  else if c.dataSource.holds then do
    return some (.data (← c.resourceType.keyText) c.name,
      .map (withMeta c (renameDynamic c.attributes)))
  else if c.module.holds then
    let source := getD c.attributes "source" .null
    let block := withMeta c (renameDynamic (erase c.attributes "source"))
    .ok (if source.holds then some (.module c.name, .map (update [("source", source)] block))
      else none)
  else resource providers addresses c

def knows (providers : Assoc Data) : Data → Bool
  | .str label => ((get? providers label).filter Data.holds).isSome
  | _ => false

/-- A component that becomes a resource. -/
def claims (providers : Assoc Data) (c : Component) : Bool :=
  c.resourceType.holds && !c.dataSource.holds && !c.module.holds &&
    (!c.provider.holds || knows providers c.provider)

def record (p : Component → Bool) (addresses : Addresses) (c : Component) : Addresses :=
  if p c then Assoc.set addresses c.name c.address else addresses

def Config.lay (c : Config) : Option (Slot × Data) → Config
  | some (slot, block) => c.put block slot
  | none => c

@[simp] theorem Config.outputs_lay (c : Config) (emitted : Option (Slot × Data)) :
    (c.lay emitted).outputs = c.outputs := by
  rcases emitted with _ | ⟨slot, block⟩
  · rfl
  · cases slot <;> rfl

theorem Config.Tidy.lay {c : Config} (h : c.Tidy) (emitted : Option (Slot × Data)) :
    (c.lay emitted).Tidy := by
  cases emitted with
  | none => exact h
  | some e => exact h.put e.2 e.1

def State.after (st : State) (c : Component) (emitted : Option (Slot × Data)) : State :=
  { st with
    addresses := record (claims st.providers) st.addresses c
    config := st.config.lay emitted }

theorem setConfig_returns_iff {f : Config → Config} :
    Returns (setConfig f) st u st' ↔ st' = { st with config := f st.config } := by
  rw [setConfig, returns_modify_iff]

theorem keep_returns_iff {name address : String} :
    Returns (keep name address) st u st' ↔
      st' = { st with addresses := Assoc.set st.addresses name address } := by
  rw [keep, returns_modify_iff]

theorem addResource_returns_iff {type : Data} {name : String} {block : Assoc Data} :
    Returns (addResource type name block) st u st' ↔ ∃ key, type.keyText = .ok key ∧
      st' = { st with config := st.config.put (.map block) (.resource key name) } := by
  simp [addResource, setConfig_returns_iff, Config.put]

theorem settle_returns_iff {attributes : Assoc Data} : Returns (settle c attributes) st u st' ↔
      ∃ block key, withDependencies (Assoc.set st.addresses c.name c.address) c
          (resolveEntries (Assoc.set st.addresses c.name c.address) attributes) = .ok block ∧
        c.resourceType.keyText = .ok key ∧
        st' = { st with
          addresses := Assoc.set st.addresses c.name c.address
          config := st.config.put (.map block) (.resource key c.name) } := by
  simp [settle, keep_returns_iff, addResource_returns_iff]

theorem provided_cases {found : Option (Assoc Data)} (h : provided providers c = .ok found) :
    found.isSome = (!c.provider.holds || knows providers c.provider) := by
  unfold provided at h
  by_cases labelled : c.provider.holds = true
  · simp only [labelled, if_true, bind_eq_ok_iff, providerInfo] at h
    obtain ⟨info, ⟨key, read, same⟩, h⟩ := h
    cases same
    have known : (Option.bind key fun key => (get? providers key).filter Data.holds).isSome =
        knows providers c.provider := by
      cases label : c.provider <;> simp [label, Data.asKey?, Data.hashable] at read
      all_goals
        subst read
        rfl
    rw [labelled, ← known]
    split at h
    · next info found' =>
        obtain ⟨name, _, rfl⟩ := map_eq_ok (map_eq_pure_bind _ (providerName info) ▸ h)
        rw [found']
        rfl
    · next found' =>
        cases h
        rw [found']
        rfl
  · simp only [labelled] at h
    cases h
    simp [labelled]

theorem generic_returns_iff (typed : c.resourceType.holds = true) :
    Returns (generic c) st u st' ↔ ∃ found, provided st.providers c = .ok found ∧
      match found with
      | some attributes => Returns (settle c attributes) st u st'
      | none => st' = st := by
  simp only [generic, typed, Bool.not_true, Bool.false_eq_true, if_false, returns_bind_iff,
    returns_get_iff, returns_lift_iff]
  constructor
  · rintro ⟨_, _, ⟨rfl, rfl⟩, found, _, ⟨given, rfl⟩, run⟩
    refine ⟨found, given, ?_⟩
    cases found with
    | none => exact (returns_pure_iff.mp run).2
    | some attributes => exact run
  · rintro ⟨found, given, run⟩
    refine ⟨st, st, ⟨rfl, rfl⟩, found, st, ⟨given, rfl⟩, ?_⟩
    cases found with
    | none => exact returns_pure_iff.mpr ⟨rfl, run⟩
    | some attributes => exact run

/-- A component takes its address exactly if it becomes a resource. -/
theorem resource_returns_iff (typed : c.resourceType.holds = true)
    (read : c.dataSource.holds = false)
    (called : c.module.holds = false) : Returns (generic c) st u st' ↔ ∃ emitted,
      resource st.providers (record (claims st.providers) st.addresses c) c = .ok emitted ∧
        st' = st.after c emitted := by
  have claimed {found : Option (Assoc Data)} (h : provided st.providers c = .ok found) :
      record (claims st.providers) st.addresses c =
        if found.isSome then Assoc.set st.addresses c.name c.address else st.addresses := by
    simp [record, claims, typed, read, called, provided_cases h]
  simp only [generic_returns_iff typed, resource, bind_eq_ok_iff, State.after]
  constructor
  · rintro ⟨found, given, run⟩
    rw [claimed given]
    cases found with
    | none => exact ⟨none, ⟨none, given, rfl⟩, run⟩
    | some attributes =>
      obtain ⟨block, key, made, named, rfl⟩ := settle_returns_iff.mp run
      refine ⟨some (.resource key c.name, .map block), ⟨some attributes, given, ?_⟩, rfl⟩
      simp only [bind_eq_ok_iff]
      exact ⟨block, made, key, named, rfl⟩
  · rintro ⟨emitted, ⟨found, given, made⟩, rfl⟩
    rw [claimed given] at made ⊢
    refine ⟨found, given, ?_⟩
    cases found with
    | none =>
      cases made
      rfl
    | some attributes =>
      simp only [bind_eq_ok_iff] at made
      obtain ⟨block, made, key, named, last⟩ := made
      cases last
      exact settle_returns_iff.mpr ⟨block, key, made, named, rfl⟩

theorem turn_returns_iff : Returns (turn c) st u st' ↔ ∃ emitted,
    emission st.providers (record (claims st.providers) st.addresses c) c = .ok emitted ∧
      st' = st.after c emitted := by
  unfold turn emission
  by_cases typed : c.resourceType.holds = true
  · by_cases read : c.dataSource.holds = true
    · have unclaimed : record (claims st.providers) st.addresses c = st.addresses := by
        simp [record, claims, read]
      simp [typed, read, dataSource, setConfig_returns_iff, State.after, unclaimed, map_eq_ok_iff,
        Config.lay, Config.put]
    · by_cases called : c.module.holds = true
      · have unclaimed : record (claims st.providers) st.addresses c = st.addresses := by
          simp [record, claims, called]
        simp only [typed, read, called, module, State.after, unclaimed, Bool.not_true,
          Bool.false_eq_true, if_false, if_true]
        split <;> simp [setConfig_returns_iff, Config.lay, Config.put]
      · simp only [typed, read, called, Bool.not_true, Bool.false_eq_true, if_false]
        exact resource_returns_iff typed (Bool.not_eq_true _ ▸ read) (Bool.not_eq_true _ ▸ called)
  · have unclaimed : record (claims st.providers) st.addresses c = st.addresses := by
      simp [record, claims, typed]
    simp [typed, State.after, unclaimed, Config.lay]

/-- The slot of a data source, of a module with a source, or of a resource whose provider is absent
or among the given ones. -/
def slot? (providers : Assoc Data) (c : Component) : Option Slot :=
  let typed (slot : String → String → Slot) := c.resourceType.keyText.toOption.map (slot · c.name)
  if !c.resourceType.holds then none
  else if c.dataSource.holds then typed .data
  else if c.module.holds then
    if (getD c.attributes "source" .null).holds then some (.module c.name) else none
  else if !c.provider.holds || knows providers c.provider then typed .resource
  else none

theorem slot?_of_emission {emitted : Option (Slot × Data)}
    (h : emission providers addresses c = .ok emitted) :
    slot? providers c = emitted.map Prod.fst := by
  unfold emission at h
  unfold slot?
  by_cases typed : c.resourceType.holds = true
  · by_cases read : c.dataSource.holds = true
    · simp only [typed, read, Bool.not_true, Bool.false_eq_true, if_false, if_true,
        bind_eq_ok_iff] at h ⊢
      obtain ⟨key, named, last⟩ := h
      cases last
      rw [named]
      rfl
    · by_cases called : c.module.holds = true
      · simp only [typed, read, called, Bool.not_true, Bool.false_eq_true, if_false, if_true] at h ⊢
        cases h
        split <;> rfl
      · simp only [typed, read, called, Bool.not_true, Bool.false_eq_true, if_false, resource,
          bind_eq_ok_iff] at h ⊢
        obtain ⟨found, given, made⟩ := h
        rw [← provided_cases given]
        cases found with
        | none =>
          cases made
          rfl
        | some attributes =>
          simp only [bind_eq_ok_iff] at made
          obtain ⟨block, made, key, named, last⟩ := made
          cases last
          rw [named]
          rfl
  · simp only [typed] at h ⊢
    cases h
    rfl

theorem emission_congr (same : ∀ name, get? addresses name = get? other name) (c : Component) :
    emission providers addresses c = emission providers other c := by
  have dependency : dependencyAddress addresses = dependencyAddress other := by
    funext d
    exact dependencyAddress_congr same d
  have entries : resolveEntries addresses = resolveEntries other := by
    rw [resolveEntries, resolveText_congr same, resolveEntries]
  simp only [emission, resource, withDependencies, dependency, entries]

section Emitted

variable {type name : String} {block : Data}
  (h : emission providers addresses c = .ok (some (.resource type name, block)))

include h

theorem emission_resource : ∃ attributes entries, provided providers c = .ok (some attributes) ∧
    withDependencies addresses c (resolveEntries addresses attributes) = .ok entries ∧
      c.resourceType.keyText = .ok type ∧ name = c.name ∧ block = .map entries := by
  unfold emission at h
  split at h
  · cases h
  · split at h
    · obtain ⟨_, _, last⟩ := bind_eq_ok h
      cases last
    · split at h
      · simp only [Except.ok.injEq] at h
        split at h
        · cases h
        · cases h
      · obtain ⟨found, given, made⟩ := bind_eq_ok h
        cases found with
        | none => cases made
        | some attributes =>
          obtain ⟨entries, built, named⟩ := bind_eq_ok made
          obtain ⟨key, read, last⟩ := bind_eq_ok named
          cases last
          exact ⟨attributes, entries, given, built, read, rfl, rfl⟩

theorem step?_of_emission : ∃ attributes, provided providers c = .ok (some attributes) ∧
    ∀ key, key ≠ "depends_on" →
      block.step? (.key key) = (get? attributes key).map (resolveAll addresses) := by
  obtain ⟨attributes, entries, given, built, -, -, rfl⟩ := emission_resource h
  refine ⟨attributes, given, ?_⟩
  intro key hd
  have kept : get? entries key = get? (resolveEntries addresses attributes) key := by
    unfold withDependencies at built
    split at built
    · obtain ⟨ds, _, built⟩ := bind_eq_ok built
      obtain ⟨names, _, last⟩ := bind_eq_ok built
      cases last
      rw [set, get?_set, if_neg hd.symm]
    · cases built
      rfl
  rw [Data.step?, kept, resolveEntries_eq, get?_mapValues]

theorem attribute_of_emission {key : String} (hp : key ≠ "provider") (hd : key ≠ "depends_on") :
    block.step? (.key key) = (get? c.attributes key).map (resolveAll addresses) := by
  obtain ⟨attributes, given, read⟩ := step?_of_emission h
  have own : get? attributes key = get? c.attributes key := by
    unfold provided at given
    split at given
    · obtain ⟨info, _, given⟩ := bind_eq_ok given
      cases info with
      | none => cases given
      | some info =>
        obtain ⟨label, _, last⟩ := bind_eq_ok given
        cases last
        rw [set, get?_set, if_neg hp.symm]
    · cases given
      rfl
  rw [read key hd, own]

theorem at?_of_emission {key : String} (hp : key ≠ "provider") (hd : key ≠ "depends_on")
    (path : List Data.Step) :
    block.at? (.key key :: path) =
      ((Data.map c.attributes).at? (.key key :: path)).map (resolveAll addresses) := by
  rw [Data.at?, attribute_of_emission h hp hd, Data.at?, Data.step?]
  cases get? c.attributes key with
  | none => rfl
  | some d => exact at?_resolveAll addresses d path

theorem dependencies_of_emission (depends : c.dependsOn.holds = true) :
    ∃ ds names, c.dependsOn.elements = .ok ds ∧ ds.mapM (dependencyAddress addresses) = .ok names ∧
      block.step? (.key "depends_on") = some (.texts names) := by
  obtain ⟨attributes, entries, -, built, -, -, rfl⟩ := emission_resource h
  rw [withDependencies, if_pos depends] at built
  obtain ⟨ds, elements, built⟩ := bind_eq_ok built
  obtain ⟨names, found, last⟩ := bind_eq_ok built
  cases last
  exact ⟨ds, names, elements, found, by rw [Data.step?, set, get?_set, if_pos rfl]⟩

end Emitted

end Terraform

end Stratus
