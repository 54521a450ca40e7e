import Stratus.Proofs.Terraform.Pass

/-!
Well-formed services make a configuration. Every step of the generation has its own condition on
what it reads; services that meet them all, and have no deployment, are generated.
-/
namespace Stratus.Terraform

open Assoc hiding set

open Effect
open Outcome (Succeeds)

variable {providers : Assoc Data} {services : List Service}

/-- Variables that are maps, under their names. -/
def Declares (vars : Assoc Data) : Prop := ∀ name d, (name, d) ∈ vars → ∃ entries, d = .map entries

/-- Types, provider labels and dependencies are texts, variables and providers are maps with the
entries that are read. -/
structure WellFormed (providers : Assoc Data) (services : List Service) : Prop where
  providers : ∀ label info, (label, info) ∈ providers → ∃ entries type config, info = .map entries ∧
    get? entries "type" = some (.str type) ∧ get? entries "config" = some (.map config)
  types : ∀ c ∈ laidOut services, c.resourceType.holds = true → ∃ type, c.resourceType = .str type
  labels : ∀ c ∈ laidOut services, c.provider.holds = true → ∃ label, c.provider = .str label
  dependencies : ∀ c ∈ laidOut services, c.dependsOn.holds = true → ∃ names,
  c.dependsOn = .texts names
  vars : ∀ s ∈ services, ∀ setup, s.setup = some setup → setup.vars.holds = true →
    ∃ vars, setup.vars = .map vars ∧ Declares vars

section Steps

variable {label type : String} {entries config : Assoc Data} {c : Component}

theorem providerEntry_succeeds (typed : get? entries "type" = some (.str type))
    (given : get? entries "config" = some (.map config)) :
    Succeeds (providerEntry label (.map entries)) := by
  have read : (Data.map entries).item "type" = .ok (.str type) := by rw [Data.item, typed]
  have configured : (Data.map entries).item "config" = .ok (.map config) := by rw [Data.item, given]
  rw [providerEntry, read, configured]
  refine .bind (.ok _) fun _ type => .bind (.ok _) fun _ config => ?_
  cases type
  cases config
  refine .bind (.ok _) fun _ _ => .bind (.ok _) fun _ _ => .bind (.ok _) fun _ copied => ?_
  cases copied
  by_cases same : (Data.str type).same (.str label) = true
  · simp only [same, if_true]
    exact .bind (.ok _) fun _ _ => .bind (.ok _) fun _ _ => .bind (.ok _) fun _ _ => .ok _
  · simp only [same, Bool.false_eq_true, if_false]
    exact .bind (.ok _) fun _ _ => .bind (.ok _) fun _ _ => .bind (.ok _) fun _ _ => .ok _

theorem providerName_succeeds (typed : get? entries "type" = some (.str type)) :
    Succeeds (providerName (.map entries)) := by
  have read : (Data.map entries).item "type" = .ok (.str type) := by rw [Data.item, typed]
  rw [providerName, read]
  exact .bind (.ok _) fun _ _ => .bind (.ok _) fun _ _ => .ok _

theorem dependencyAddress_succeeds (addresses : Addresses) (name : String) :
    Succeeds (dependencyAddress addresses (.str name)) := by
  unfold dependencyAddress
  split
  · exact .ok _
  · refine .bind (.ok _) fun parts _ => ?_
    split
    · exact .ok _
    · exact .ok _

theorem withDependencies_succeeds
    (texts : c.dependsOn.holds = true → ∃ names, c.dependsOn = .texts names)
    (addresses : Addresses) (block : Assoc Data) :
    Succeeds (withDependencies addresses c block) := by
  unfold withDependencies
  split
  · next given =>
      obtain ⟨names, same⟩ := texts given
      rw [same]
      refine .bind (.ok (names.map Data.str)) fun ds elements => ?_
      cases elements
      refine .bind (.mapM ?_) fun _ _ => .ok _
      intro d mem
      obtain ⟨name, -, rfl⟩ := List.mem_map.mp mem
      exact dependencyAddress_succeeds addresses name
  · exact .ok block

theorem provided_succeeds (known : ∀ label info, (label, info) ∈ providers →
      Succeeds (providerName info))
    (labelled : c.provider.holds = true → ∃ label, c.provider = .str label) :
    Succeeds (provided providers c) := by
  unfold provided
  split
  · next given =>
      obtain ⟨label, same⟩ := labelled given
      rw [same]
      refine .bind (.ok ((get? providers label).filter Data.holds)) fun info found => ?_
      split
      · next info =>
          have given := (Option.filter_eq_some_iff.mp (Except.ok.inj found)).1
          exact .bind (known label info (mem_of_get? given)) fun _ _ => .ok _
      · exact .ok none
  · exact .ok _

theorem emission_succeeds (wellFormed : WellFormed providers services) (mem : c ∈ laidOut services)
    (addresses : Addresses) : Succeeds (emission providers addresses c) := by
  have known (label : String) (info : Data) (given : (label, info) ∈ providers) :
      Succeeds (providerName info) := by
    obtain ⟨entries, type, config, rfl, typed, -⟩ := wellFormed.providers label info given
    exact providerName_succeeds typed
  unfold emission
  split
  · exact .ok none
  · next given =>
      obtain ⟨type, same⟩ := wellFormed.types c mem (by simpa using given)
      have keyed : Succeeds c.resourceType.keyText := by
        rw [same]
        exact .ok type
      split
      · exact keyed.bind fun _ _ => .ok _
      · split
        · exact .ok _
        · refine (provided_succeeds known (wellFormed.labels c mem)).bind fun found _ => ?_
          cases found with
          | none => exact .ok none
          | some attributes =>
            refine (withDependencies_succeeds (wellFormed.dependencies c mem) addresses _).bind
              fun _ _ => ?_
            exact keyed.bind fun _ _ => .ok _

end Steps

theorem variableEntry_succeeds (entries : Assoc Data) : Succeeds (variableEntry (.map entries)) :=
  .bind (.ok _) fun _ _ => .bind (.ok _) fun _ _ => .ok _

theorem collectVariables_succeeds
    (given : ∀ s ∈ services, ∀ setup, s.setup = some setup → setup.vars.holds = true →
    ∃ vars, setup.vars = .map vars ∧ Declares vars) : ∃ vars, collectVariables services = .ok vars ∧
      Declares vars := by
  unfold collectVariables
  have start : Declares [] := by simp [Declares]
  revert start
  generalize ([] : Assoc Data) = known
  intro start
  induction services generalizing known with
  | nil => exact ⟨known, rfl, start⟩
  | cons s services ih =>
    have later := fun known start =>
      ih (fun s mem => given s (List.mem_cons_of_mem _ mem)) known start
    rw [List.foldlM_cons]
    cases found : s.setup with
    | none => exact later known start
    | some setup =>
      simp only
      split
      · next holds =>
          obtain ⟨vars, same, declared⟩ := given s List.mem_cons_self setup found holds
          rw [same]
          refine later (update known vars) ?_
          intro name d mem
          rcases mem_of_mem_update mem with old | new
          · exact start name d old
          · exact declared name d new
      · exact later known start

def Written (outputs : Assoc Data) : Prop :=
  ∀ name d, (name, d) ∈ outputs → Succeeds (Config.outputEntry d)

theorem Written.foldl {outputs : Assoc Data} (h : Written outputs) (s : Service)
    (cs : List Component) :
    Written (cs.foldl (withOutput s) outputs) := by
  induction cs generalizing outputs with
  | nil => exact h
  | cons c cs ih =>
    apply ih
    intro name d mem
    unfold withOutput at mem
    split at mem
    · rcases mem_of_mem_set mem with old | new
      · exact h name d old
      · cases new
        exact .bind (.ok _) fun _ _ => .bind (.ok _) fun _ _ => .ok _
    · exact h name d mem

theorem sections_succeeds {c : Config} (h : Written c.outputs) : Succeeds c.sections := by
  refine .bind (.mapM ?_) fun _ _ => .ok _
  rintro ⟨name, d⟩ mem
  exact (h name d mem).bind fun _ _ => .ok _

theorem addVars_succeeds {vars : Assoc Data} (st : State) (declared : Declares vars)
    (written : Written st.config.outputs) :
    ∃ st', Chain addVar vars st st' ∧ Written st'.config.outputs := by
  refine Chain.exists_of_step (P := fun st : State => Written st.config.outputs) ?_ written
  rintro ⟨name, d⟩ mem st kept
  obtain ⟨attributes, rfl⟩ := declared name d mem
  obtain ⟨entry, made⟩ := variableEntry_succeeds attributes
  exact ⟨_, addVar_returns_iff.mpr ⟨entry, made, rfl⟩, kept⟩

theorem finish_succeeds {st : State} (wellFormed : WellFormed st.providers services)
    (written : Written st.config.outputs) : ∃ text st', Returns (finish services) st text st' := by
  have entries : Succeeds (st.providers.mapM fun e => providerEntry e.1 e.2) := by
    refine .mapM ?_
    rintro ⟨label, info⟩ mem
    obtain ⟨entries, type, config, rfl, typed, given⟩ := wellFormed.providers label info mem
    exact providerEntry_succeeds typed given
  obtain ⟨entries, read⟩ := entries
  obtain ⟨vars, collected, declared⟩ := collectVariables_succeeds wellFormed.vars
  obtain ⟨m, added, written⟩ :=
    addVars_succeeds { st with config := st.config.requiring entries } declared written
  obtain ⟨tree, sections⟩ := sections_succeeds written
  refine ⟨Json.write .indented tree, m,
    finish_returns_iff.mpr ⟨entries, vars, read, collected, added, ?_⟩⟩
  exact Outcome.bind_eq_ok_iff.mpr ⟨tree, sections, rfl⟩

theorem pass_succeeds (wellFormed : WellFormed providers services)
    (undeployed : ∀ s ∈ services, s.deployment.holds = false) :
    ∃ st, Chain Move.run (plan services) { providers, addresses := table services } st ∧
      st.providers = providers ∧ Written st.config.outputs := by
  refine Chain.exists_of_step
    (P := fun st : State => st.providers = providers ∧ Written st.config.outputs) ?_ ⟨rfl, ?_⟩
  · rintro move mem st ⟨rfl, written⟩
    cases move with
    | opening s => exact ⟨_, openings_returns_iff.mpr rfl, rfl, written⟩
    | component c =>
      obtain ⟨emitted, made⟩ := emission_succeeds wellFormed (component_mem_plan.mp mem)
        (record (claims st.providers) st.addresses c)
      refine ⟨_, turn_returns_iff.mpr ⟨emitted, made, rfl⟩, rfl, ?_⟩
      rw [State.after, Config.outputs_lay]
      exact written
    | deployment info =>
      obtain ⟨s, given, deployed⟩ := deployment_mem_plan mem
      rw [undeployed s given] at deployed
      cases deployed
    | outputs s => exact ⟨_, outputs_returns_iff.mpr rfl, rfl, written.foldl s _⟩
  · intro name d mem
    cases mem

theorem generates_of_wellFormed (wellFormed : WellFormed providers services)
    (undeployed : ∀ s ∈ services, s.deployment.holds = false) :
    ∃ tree, Generates providers services tree := by
  obtain ⟨m, chain, rfl, written⟩ := pass_succeeds wellFormed undeployed
  obtain ⟨text, st, finished⟩ := finish_succeeds wellFormed written
  obtain ⟨⟨tree, sections, rfl⟩, -⟩ := finish_returns finished
  exact ⟨tree, st, generate_returns_iff.mpr ⟨m, chain, finished⟩, sections⟩

end Stratus.Terraform
