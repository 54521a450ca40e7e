import Stratus.Proofs.Service.Reading
import Stratus.Proofs.Terraform.Turn

/-!
The pass over services, as a chain of moves: a service opens, its components have their turns, its
deployment adds dependencies and its outputs are written.
-/
namespace Stratus.Terraform

open Assoc hiding set
open List

open Effect

variable {providers : Assoc Data} {services : List Service} {s : Service} {st st' : State} {u : Unit}
  {text : String}

variable {p : Component → Bool} {cs : List Component} {vars : Assoc Data}

def openings (s : Service) : Build Unit := do
  if s.workspace.holds then setConfig fun k => { k with workspace := s.workspace }
  if s.backend.holds then setConfig fun k => { k with backend := s.backend }

/-- What a pass over services does, one thing after the other. -/
inductive Move where
  | opening (s : Service)
  | component (c : Component)
  | deployment (info : Data)
  | outputs (s : Service)

def Move.run : Move → Build Unit
  | opening s => openings s
  | component c => turn c
  | deployment info => Terraform.deployment info
  | outputs s => Terraform.outputs s

def Move.component? : Move → Option Component
  | component c => some c
  | _ => none

def moves (s : Service) : List Move :=
  .opening s :: s.infrastructure.map (.component <| effective s ·) ++
    (if s.deployment.holds then [.deployment s.deployment] else []) ++ [.outputs s]

theorem service_returns_iff : Returns (service s) st u st' ↔ Chain Move.run (moves s) st st' := by
  have eq : service s = (do
      openings s
      forIn s.infrastructure (⟨⟩ : PUnit) (fun c _ => do component s c; pure (.yield ⟨⟩))
      if s.deployment.holds then deployment s.deployment
      outputs s) := by
    unfold service openings
    by_cases hw : s.workspace.holds = true <;> by_cases hb : s.backend.holds = true <;> simp [hw, hb]
  rw [eq, moves, append_assoc, Chain.append_iff]
  simp only [returns_bind_iff, returns_forIn_iff (component s) fun _ _ => rfl, Chain.cons_iff,
    Chain.map_iff]
  by_cases deployed : s.deployment.holds = true
  · simp only [deployed, if_true, returns_bind_iff, singleton_append, Chain.cons_iff, Chain.nil_iff,
      exists_eq_right']
    constructor
    · rintro ⟨_, m, opened, _, m', turns, _, d, deployed, last⟩
      exact ⟨m', ⟨m, opened, turns⟩, d, deployed, last⟩
    · rintro ⟨m', ⟨m, opened, turns⟩, d, deployed, last⟩
      exact ⟨(), m, opened, (), m', turns, (), d, deployed, last⟩
  · simp only [deployed, Bool.false_eq_true, if_false, nil_append, Chain.cons_iff, Chain.nil_iff,
      exists_eq_right']
    constructor
    · rintro ⟨_, m, opened, _, m', turns, last⟩
      exact ⟨m', ⟨m, opened, turns⟩, last⟩
    · rintro ⟨m', ⟨m, opened, turns⟩, last⟩
      exact ⟨(), m, opened, (), m', turns, last⟩

theorem openings_returns_iff :
    Returns (openings s) st u st' ↔ st' = { st with config := { st.config with
    workspace := either s.workspace st.config.workspace
    backend := either s.backend st.config.backend } } := by
  unfold openings either
  by_cases named : s.workspace.holds = true <;> by_cases stored : s.backend.holds = true <;>
    simp [named, stored, setConfig_returns_iff]

def withOutput (s : Service) (outputs : Assoc Data) (c : Component) : Assoc Data :=
  if c.resourceType.holds then Assoc.set outputs (outputName s c) (outputOf s c) else outputs

theorem outputs_returns_iff :
    Returns (outputs s) st u st' ↔ st' = { st with config := { st.config with
    outputs := s.infrastructure.foldl (withOutput s) st.config.outputs } } := by
  let put (st : State) (c : Component) : State :=
    { st with config := { st.config with outputs := withOutput s st.config.outputs c } }
  let putting (c : Component) : Build Unit := if c.resourceType.holds then
    setConfig fun k => { k with outputs := Assoc.set k.outputs (outputName s c) (outputOf s c) }
      else pure ()
  have step (c : Component) (st st' : State) : Returns (putting c) st () st' ↔ st' = put st c := by
    by_cases typed : c.resourceType.holds = true <;>
      simp [putting, put, withOutput, typed, setConfig_returns_iff]
  have fold (cs : List Component) (st : State) : cs.foldl put st =
    { st with config := { st.config with
      outputs := cs.foldl (withOutput s) st.config.outputs } } := by
    induction cs generalizing st with
    | nil => rfl
    | cons c cs ih => exact ih (put st c)
  rw [← fold, ← Chain.foldl_iff step]
  apply returns_for_iff
  intro c u
  by_cases typed : c.resourceType.holds = true <;> simp [putting, typed]

/-- The components of services in the order of the pass, each with its provider. -/
def laidOut (services : List Service) : List Component :=
  services.flatMap fun s => s.infrastructure.map (effective s)

def plan (services : List Service) : List Move := services.flatMap moves

theorem filterMap_plan (services : List Service) :
    (plan services).filterMap Move.component? = laidOut services := by
  rw [plan, laidOut, filterMap_flatMap]
  congr 1
  funext s
  have turns : (s.infrastructure.map (Move.component <| effective s ·)).filterMap Move.component? =
      s.infrastructure.map (effective s) := by
    simp [filterMap_map, Function.comp_def, Move.component?]
  by_cases deployed : s.deployment.holds = true
  · simp [moves, deployed, Move.component?, filterMap_cons, turns]
  · simp [moves, deployed, Move.component?, filterMap_cons, turns]

variable {c : Component} {st st' : State} {u : Unit}

theorem component_mem_plan : .component c ∈ plan services ↔ c ∈ laidOut services := by
  rw [← filterMap_plan, mem_filterMap]
  constructor
  · intro mem
    exact ⟨_, mem, rfl⟩
  · rintro ⟨move, mem, found⟩
    cases move with
    | component d =>
      cases found
      exact mem
    | _ => cases found

theorem outputs_mem_plan (mem : .outputs s ∈ plan services) : s ∈ services := by
  obtain ⟨s', given, mem⟩ := mem_flatMap.mp mem
  simp only [moves, mem_append, mem_cons, mem_map] at mem
  by_cases deployed : s'.deployment.holds = true
  · simp [deployed] at mem
    exact mem ▸ given
  · simp [deployed] at mem
    exact mem ▸ given

theorem deployment_mem_plan {info : Data} (mem : .deployment info ∈ plan services) :
    ∃ s ∈ services, s.deployment.holds = true := by
  obtain ⟨s, given, mem⟩ := mem_flatMap.mp mem
  refine ⟨s, given, ?_⟩
  by_contra idle
  simp [moves, idle] at mem

/-- The last component of a name among those with a property. -/
def lastNamed (p : Component → Bool) (cs : List Component) (name : String) : Option Component :=
  cs.reverse.find? fun c => p c && c.name == name

theorem lastNamed_eq_some {name : String}
    (h : lastNamed p cs name = some c) : c ∈ cs ∧ p c = true ∧ c.name = name := by
  have fits := find?_some h
  simp only [Bool.and_eq_true, beq_iff_eq] at fits
  exact ⟨mem_reverse.mp (mem_of_find?_eq_some h), fits⟩

theorem exists_lastNamed (mem : c ∈ cs) (given : p c = true) :
    ∃ d, lastNamed p cs c.name = some d := by
  apply Option.isSome_iff_exists.mp
  refine find?_isSome.mpr ⟨c, mem_reverse.mpr mem, ?_⟩
  simp [given]

theorem get?_foldl_record (p : Component → Bool) (addresses : Addresses) (cs : List Component)
    (name : String) :
    get? (cs.foldl (record p) addresses) name =
      ((lastNamed p cs name).map Component.address).or (get? addresses name) := by
  unfold lastNamed
  induction cs generalizing addresses with
  | nil => rfl
  | cons c cs ih =>
    rw [foldl_cons, ih, reverse_cons, find?_append, record]
    cases cs.reverse.find? fun c => p c && c.name == name with
    | some d => rfl
    | none =>
      by_cases recorded : p c = true
      · by_cases same : c.name = name
        · simp [recorded, same, get?_set]
        · simp [recorded, same, get?_set]
      · simp [recorded]

def typed (c : Component) : Bool := c.resourceType.holds

theorem typed_of_claims (h : claims providers c = true) : typed c = true := by
  simp only [claims, Bool.and_eq_true] at h
  exact h.1.1.1

def table (services : List Service) : Addresses := (laidOut services).foldl (record typed) []

theorem get?_table (services : List Service) (name : String) :
    get? (table services) name =
      (lastNamed typed (laidOut services) name).map Component.address := by
  rw [table, get?_foldl_record, get?, Option.or_none]

theorem collectAddresses_returns_iff : Returns (collectAddresses services) st u st' ↔
    st' = { st with addresses := (laidOut services).foldl (record typed) st.addresses } := by
  let noting (c : Component) : Build Unit := if typed c then keep c.name c.address else pure ()
  let noted (st : State) (c : Component) : State :=
    { st with addresses := record typed st.addresses c }
  have step (c : Component) (st st' : State) : Returns (noting c) st () st' ↔ st' = noted st c := by
    by_cases typed : c.resourceType.holds = true <;>
      simp [noting, noted, Terraform.typed, typed, record, keep_returns_iff]
  have fold (cs : List Component) (st : State) :
      cs.foldl noted st = { st with addresses := cs.foldl (record typed) st.addresses } := by
    induction cs generalizing st with
    | nil => rfl
    | cons c cs ih => exact ih (noted st c)
  have turns (s : Service) (st st' : State) : Returns (do
      for c in s.infrastructure do
        if c.resourceType.holds then keep c.name s!"{c.resourceType.text}.{c.name}") st () st' ↔
      Chain noting (s.infrastructure.map (effective s)) st st' := by
    rw [Chain.map_iff]
    apply returns_for_iff
    intro c u
    by_cases typed : c.resourceType.holds = true
    · simp only [noting, Terraform.typed, typed, effective, if_true]
      rfl
    · simp [noting, Terraform.typed, typed, effective]
  rw [← fold, ← Chain.foldl_iff step, laidOut, Chain.flatMap_iff turns]
  apply returns_for_iff
  intro s u
  simp

def finish (services : List Service) : Build String := do
  requireProviders
  addVars (.map (← collectVariables services))
  (← get).config.text

theorem generate_returns_iff : Returns (generate services) { providers } text st ↔ ∃ m,
      Chain Move.run (plan services) { providers, addresses := table services } m ∧
        Returns (finish services) m text st := by
  have eq : generate services = (do
      collectAddresses services
      forIn services (⟨⟩ : PUnit) (fun s _ => do service s; pure (.yield ⟨⟩))
      finish services) := rfl
  rw [eq]
  simp only [returns_bind_iff, collectAddresses_returns_iff,
    returns_forIn_iff service fun _ _ => rfl, plan,
    Chain.flatMap_iff fun s st st' => service_returns_iff]
  constructor
  · rintro ⟨_, _, rfl, _, m, turns, last⟩
    exact ⟨m, turns, last⟩
  · rintro ⟨m, turns, last⟩
    exact ⟨(), _, rfl, (), m, turns, last⟩

theorem requireProviders_returns_iff :
    Returns requireProviders st u st' ↔
      ∃ entries, st.providers.mapM (fun e => providerEntry e.1 e.2) = .ok entries ∧
      st' = { st with config := { st.config with
        requiredProviders := ofPairs (entries.map Prod.fst)
        providers := ofPairs (entries.map Prod.snd) } } := by
  unfold requireProviders
  simp only [returns_bind_iff, returns_get_iff, setConfig_returns_iff]
  constructor
  · rintro ⟨_, _, ⟨rfl, rfl⟩, entries, m, read, rfl⟩
    obtain ⟨read, rfl⟩ := returns_mapM_iff.mp read
    exact ⟨entries, read, rfl⟩
  · rintro ⟨entries, read, rfl⟩
    exact ⟨st, st, ⟨rfl, rfl⟩, entries, st, returns_mapM_iff.mpr ⟨read, rfl⟩, rfl⟩

def addVar (e : String × Data) : Build Unit := do
  let entry ← variableEntry e.2
  setConfig fun k => { k with vars := Assoc.set k.vars e.1 entry }

theorem addVar_returns_iff {e : String × Data} :
    Returns (addVar e) st u st' ↔ ∃ entry, variableEntry e.2 = .ok entry ∧
      st' = { st with config := { st.config with vars := Assoc.set st.config.vars e.1 entry } } := by
  simp [addVar, setConfig_returns_iff]

theorem addVars_returns_iff : Returns (addVars (.map vars)) st u st' ↔ Chain addVar vars st st' := by
  rw [addVars, returns_bind_iff]
  constructor
  · rintro ⟨entries, m, read, run⟩
    obtain ⟨read, rfl⟩ := returns_lift_iff.mp read
    cases read
    exact (returns_for_iff addVar fun e u => by simp [addVar]).mp run
  · intro run
    exact ⟨vars, st, returns_lift_iff.mpr ⟨rfl, rfl⟩,
      (returns_for_iff addVar fun e u => by simp [addVar]).mpr run⟩

def Config.requiring (c : Config) (entries : List ((String × Data) × (String × Data))) : Config :=
  { c with
    requiredProviders := ofPairs (entries.map Prod.fst)
    providers := ofPairs (entries.map Prod.snd) }

theorem finish_returns_iff : Returns (finish services) st text st' ↔ ∃ entries vars,
    st.providers.mapM (fun e => providerEntry e.1 e.2) = .ok entries ∧
      collectVariables services = .ok vars ∧
      Chain addVar vars { st with config := st.config.requiring entries } st' ∧
        st'.config.text = .ok text := by
  unfold finish
  simp only [returns_bind_iff, returns_lift_iff, returns_get_iff, requireProviders_returns_iff,
    addVars_returns_iff]
  constructor
  · rintro ⟨_, m, ⟨entries, read, rfl⟩, vars, _, ⟨collected, rfl⟩, _, last, added, _, _, ⟨rfl, rfl⟩,
      written, rfl⟩
    exact ⟨entries, vars, read, collected, added, written⟩
  · rintro ⟨entries, vars, read, collected, added, written⟩
    exact ⟨(), _, ⟨entries, read, rfl⟩, vars, _, ⟨collected, rfl⟩, (), st', added, _, _, ⟨rfl, rfl⟩,
      written, rfl⟩

/-- Variables are all that is added to a configuration behind its providers. -/
theorem rest_of_addVars {f : Config → α} (added : Chain addVar vars st st')
    (rest : ∀ c vars, f { c with vars } = f c) : f st'.config = f st.config := by
  refine added.induct (P := fun m => f m.config = f st.config) ?_ rfl
  intro e _ m m' step same
  obtain ⟨entry, _, rfl⟩ := addVar_returns_iff.mp step
  exact (rest _ _).trans same

theorem finish_returns (h : Returns (finish services) st text st') :
    (∃ tree, st'.config.sections = .ok tree ∧ text = Json.write .indented tree) ∧
      st'.config.blocks = st.config.blocks ∧ st'.config.outputs = st.config.outputs := by
  obtain ⟨entries, vars, -, -, added, written⟩ := finish_returns_iff.mp h
  obtain ⟨tree, sections, same⟩ := Outcome.bind_eq_ok written
  cases same
  have blocks := rest_of_addVars (f := Config.blocks) added fun _ _ => rfl
  have outputs := rest_of_addVars (f := Config.outputs) added fun _ _ => rfl
  exact ⟨⟨tree, sections, rfl⟩, blocks, outputs⟩

/-- The configuration that services make, as it is written. -/
def Generates (providers : Assoc Data) (services : List Service) (tree : Data) : Prop :=
  ∃ st, Returns (generate services) { providers } (Json.write .indented tree) st ∧
    st.config.sections = .ok tree

theorem Generates.pass {tree : Data} (h : Generates providers services tree) :
    ∃ (st : State) (c : Config),
    Chain Move.run (plan services) { providers, addresses := table services } st ∧
      c.sections = .ok tree ∧ c.blocks = st.config.blocks ∧ c.outputs = st.config.outputs := by
  obtain ⟨last, run, sections⟩ := h
  obtain ⟨st, chain, finished⟩ := generate_returns_iff.mp run
  obtain ⟨-, blocks, outputs⟩ := finish_returns finished
  exact ⟨st, last.config, chain, sections, blocks, outputs⟩

open Landscape (Listing Reads listed)

variable {source : Data} {l : Landscape}

theorem reads_effective {entries : Assoc Data} {c : Component} (h : Reads entries c) (s : Service) :
    Reads entries (effective s c) :=
  ⟨h.count, h.forEach, h.lifecycle, h.provisioners, h.attributes⟩

theorem laidOut_reads (read : Landscape.ofTree source = .ok l) :
    Forall₂ (fun e c => ∃ entries, e.content = .map entries ∧ Reads entries c) (listed source)
      (laidOut l.services) := by
  obtain ⟨fallback, found, all⟩ := Landscape.ofTree_eq_ok read
  rw [all.services, laidOut, flatMap_map, flatMap_def]
  apply Landscape.forall₂_flatMap
  rw [forall₂_map_right_iff]
  apply all.entries.imp
  rintro e ⟨s, mappings⟩ ⟨serves, -⟩
  rw [forall₂_map_right_iff]
  apply serves.components.imp
  intro e c describes
  obtain ⟨entries, content, reads⟩ := Landscape.reads_of_describes describes
  exact ⟨entries, content, reads_effective reads s⟩

theorem reads_of_turn (read : Landscape.ofTree source = .ok l) {before later : List Component}
    {c : Component} {e : Listing} (turn : laidOut l.services = before ++ c :: later)
    (entry : (listed source)[before.length]? = some e) :
    ∃ entries, e.content = .map entries ∧ Reads entries c := by
  have paired := laidOut_reads read
  obtain ⟨within, same⟩ := List.getElem?_eq_some_iff.mp entry
  have here := (forall₂_iff_get.mp paired).2 before.length within (by simp [turn])
  simpa [turn, same] using here

theorem reads_of_mem (read : Landscape.ofTree source = .ok l) (distinct : source.distinct = true)
    {c : Component}
    (mem : c ∈ laidOut l.services) : ∃ entries, (keys entries).Nodup ∧ Reads entries c := by
  obtain ⟨e, listed, entries, content, reads⟩ :=
    Outcome.exists_of_mem_forall₂ (laidOut_reads read) mem
  have whole := Landscape.distinct_listed distinct listed
  rw [content] at whole
  exact ⟨entries, (Data.distinct_map_iff.mp whole).1, reads⟩

end Stratus.Terraform
