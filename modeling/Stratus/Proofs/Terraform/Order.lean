import Stratus.Proofs.Terraform.Deployment
import Stratus.Proofs.Terraform.Totality

/-!
One block for each component, in any order, if no two components with a type share a name: then the
addresses at a turn are those collected before the pass.
-/
namespace Stratus.Terraform

open Assoc hiding set
open Config

open Effect

variable {providers : Assoc Data} {services services' : List Service} {st : State}
  {c : Component} {slot : Slot} {block : Data}

/-- No two components with a type share a name. -/
def Unambiguous (services : List Service) : Prop :=
  (((laidOut services).filter typed).map Component.name).Nodup

theorem Unambiguous.eq {c d : Component} (h : Unambiguous services) (hc : c ∈ laidOut services)
    (hd : d ∈ laidOut services) (typedC : typed c = true) (typedD : typed d = true)
    (same : c.name = d.name) : c = d :=
  List.inj_on_of_nodup_map h (List.mem_filter.mpr ⟨hc, typedC⟩)
    (List.mem_filter.mpr ⟨hd, typedD⟩) same

theorem Unambiguous.get?_table_iff (h : Unambiguous services) {name address : String} :
    get? (table services) name = some address ↔
      ∃ c ∈ laidOut services, typed c = true ∧ c.name = name ∧ c.address = address := by
  rw [get?_table, Option.map_eq_some_iff]
  constructor
  · rintro ⟨c, found, rfl⟩
    obtain ⟨mem, given, named⟩ := lastNamed_eq_some found
    exact ⟨c, mem, given, named, rfl⟩
  · rintro ⟨c, mem, given, rfl, rfl⟩
    obtain ⟨d, found⟩ := exists_lastNamed mem given
    obtain ⟨member', given', named⟩ := lastNamed_eq_some found
    exact ⟨d, found, by rw [h.eq member' mem given' given named]⟩

theorem slot?_eq_some (h : slot? providers c = some slot) : typed c = true ∧ slot.name = c.name := by
  unfold slot? at h
  by_cases given : c.resourceType.holds = true
  · refine ⟨given, ?_⟩
    simp only [given, Bool.not_true, Bool.false_eq_true, if_false] at h
    split at h
    · obtain ⟨_, _, rfl⟩ := Option.map_eq_some_iff.mp h
      rfl
    · split at h
      · split at h
        · cases h
          rfl
        · cases h
      · split at h
        · obtain ⟨_, _, rfl⟩ := Option.map_eq_some_iff.mp h
          rfl
        · cases h
  · simp [given] at h

/-- Addresses that say what those collected before the pass say. -/
def Settled (services : List Service) (addresses : Addresses) : Prop :=
  ∀ name, get? addresses name = get? (table services) name

theorem Settled.record {addresses : Addresses} (h : Settled services addresses)
    (providers : Assoc Data) (unambiguous : Unambiguous services) (mem : c ∈ laidOut services) :
    Settled services (record (claims providers) addresses c) := by
  intro name
  rw [Terraform.record]
  split
  · next claimed =>
      rw [get?_set]
      split
      · next same =>
          exact (unambiguous.get?_table_iff.mpr ⟨c, mem, typed_of_claims claimed, same, rfl⟩).symm
      · exact h name
  · exact h name

/-- A component makes a block under the addresses collected before the pass. -/
def Makes (providers : Assoc Data) (services : List Service) (c : Component) (slot : Slot)
    (block : Data) : Prop :=
  c ∈ laidOut services ∧ emission providers (table services) c = .ok (some (slot, block))

theorem Makes.eq {c d : Component} {block block' : Data} (unambiguous : Unambiguous services)
    (h : Makes providers services c slot block)
    (h' : Makes providers services d slot block') : block' = block := by
  obtain ⟨typedC, nameC⟩ := slot?_eq_some (slot?_of_emission h.2)
  obtain ⟨typedD, nameD⟩ := slot?_eq_some (slot?_of_emission h'.2)
  have same := unambiguous.eq h.1 h'.1 typedC typedD (nameC.symm.trans nameD)
  have made := h.2
  rw [same, h'.2] at made
  cases made
  rfl

/-- A run of moves without deployments. -/
structure Quiet (services : List Service) (moves : List Move) : Prop where
  components : ∀ c, .component c ∈ moves → c ∈ laidOut services
  undeployed : ∀ info, .deployment info ∉ moves

theorem Quiet.induct {moves : List Move} {Q : Config → Prop} {st st' : State}
    (quiet : Quiet services moves)
    (run : Chain Move.run moves st st') (unambiguous : Unambiguous services)
    (given : st.providers = providers)
    (tidy : st.config.Tidy) (settled : Settled services st.addresses) (start : Q st.config)
    (idle : ∀ c c', c'.blocks = c.blocks → Q c → Q c') (turn : ∀ d ∈ laidOut services, ∀ c emitted,
      emission providers (table services) d = .ok emitted → Q c → Q (c.lay emitted)) :
    (st'.providers = providers ∧ st'.config.Tidy) ∧ Settled services st'.addresses ∧
    Q st'.config := by
  refine run_induct run given tidy (P := fun m => Settled services m.addresses ∧ Q m.config)
    ⟨settled, start⟩ ?_ ?_ ?_
  · rintro _ _ m m' still ⟨settled, kept⟩
    exact ⟨still.addresses ▸ settled, idle _ _ still.blocks kept⟩
  · rintro c mem m emitted given made ⟨settled, kept⟩
    subst given
    have recorded := settled.record m.providers unambiguous (quiet.components c mem)
    rw [emission_congr recorded] at made
    exact ⟨recorded, turn c (quiet.components c mem) _ emitted made kept⟩
  · intro info mem
    exact absurd mem (quiet.undeployed info)

theorem Quiet.plan (undeployed : ∀ s ∈ services, s.deployment.holds = false) :
    Quiet services (plan services) := by
  refine ⟨fun c => component_mem_plan.mp, ?_⟩
  intro info mem
  obtain ⟨s, given, deployed⟩ := deployment_mem_plan mem
  rw [undeployed s given] at deployed
  cases deployed

theorem names_sublist (providers : Assoc Data) (cs : List Component) :
    ((cs.filterMap (slot? providers)).map Slot.name).Sublist
    ((cs.filter typed).map Component.name) := by
  induction cs with
  | nil => exact .slnil
  | cons c cs ih =>
    cases placed : slot? providers c with
    | none =>
      rw [List.filterMap_cons_none placed, List.filter_cons]
      split
      · exact ih.cons _
      · exact ih
    | some slot =>
      obtain ⟨given, named⟩ := slot?_eq_some placed
      rw [List.filterMap_cons_some placed, List.filter_cons_of_pos given, List.map_cons,
        List.map_cons, named]
      exact ih.cons_cons _

section Run

variable (unambiguous : Unambiguous services)
  (undeployed : ∀ s ∈ services, s.deployment.holds = false)
  (run : Chain Move.run (plan services) { providers, addresses := table services } st)

include unambiguous undeployed run

theorem emission_of_run (mem : c ∈ laidOut services) :
    ∃ emitted, emission providers (table services) c = .ok emitted ∧
      ∀ slot block, emitted = some (slot, block) → st.config.block? slot = some block := by
  have quiet := Quiet.plan undeployed
  obtain ⟨before, later, split⟩ := List.append_of_mem (component_mem_plan.mpr mem)
  rw [split] at run quiet
  obtain ⟨m, first, rest⟩ := Chain.append_iff.mp run
  obtain ⟨m', turned, last⟩ := Chain.cons_iff.mp rest
  have quietBefore : Quiet services before :=
    ⟨fun d given => quiet.components d (by simp [given]), fun info given =>
      quiet.undeployed info (by simp [given])⟩
  have quietLater : Quiet services later :=
    ⟨fun d given => quiet.components d (by simp [given]), fun info given =>
      quiet.undeployed info (by simp [given])⟩
  obtain ⟨⟨rfl, tidy⟩, settled, -⟩ := quietBefore.induct first unambiguous rfl .empty (fun _ => rfl)
    (Q := fun _ => True) trivial (fun _ _ _ _ => trivial) (fun _ _ _ _ _ _ => trivial)
  have recorded := settled.record m.providers unambiguous mem
  obtain ⟨emitted, made, rfl⟩ := turn_returns_iff.mp turned
  rw [emission_congr recorded] at made
  refine ⟨emitted, made, ?_⟩
  rintro slot block rfl
  refine (quietLater.induct last unambiguous rfl (tidy.lay (some (slot, block))) recorded
    (Q := fun k => k.block? slot = some block) ?_ ?_ ?_).2.2
  · simp [State.after, lay, block?_put]
  · intro k k' same kept
    exact (block?_congr same slot).trans kept
  · intro d given k emitted made' kept
    cases emitted with
    | none => exact kept
    | some e =>
      simp only [lay, block?_put]
      split
      · next same =>
          subst same
          exact congrArg some (Makes.eq unambiguous ⟨mem, made⟩ ⟨given, made'⟩)
      · exact kept

/-- After the pass a slot holds what some component makes for it. -/
theorem block?_eq_some_iff : st.config.block? slot = some block ↔
    ∃ c, Makes providers services c slot block := by
  constructor
  · revert slot block
    refine ((Quiet.plan undeployed).induct run unambiguous rfl .empty (fun _ => rfl)
      (Q := fun c => ∀ {slot block}, c.block? slot = some block → ∃ d,
        Makes providers services d slot block)
      ?_ ?_ ?_).2.2
    · intro slot block found
      cases slot <;> cases found
    · intro c c' same kept slot block found
      exact kept (block?_congr same slot ▸ found)
    · intro d mem c emitted made kept slot block found
      cases emitted with
      | none => exact kept found
      | some e =>
        simp only [lay, block?_put] at found
        split at found
        · next same =>
            cases found
            exact ⟨d, mem, same ▸ made⟩
        · exact kept found
  · rintro ⟨c, mem, made⟩
    obtain ⟨emitted, made', stays⟩ := emission_of_run unambiguous undeployed run mem
    rw [made] at made'
    cases made'
    exact stays slot block rfl

theorem slots_perm : st.config.slots.Perm ((laidOut services).filterMap (slot? providers)) := by
  have tidy := (kept_of_run run .empty).2
  refine (List.perm_ext_iff_of_nodup tidy.nodup_slots ?_).mpr ?_
  · exact .of_map Slot.name (unambiguous.sublist (names_sublist providers _))
  · intro slot
    rw [tidy.mem_slots, List.mem_filterMap, Option.isSome_iff_exists]
    simp only [block?_eq_some_iff unambiguous undeployed run]
    constructor
    · rintro ⟨block, c, mem, made⟩
      exact ⟨c, mem, slot?_of_emission made⟩
    · rintro ⟨c, mem, placed⟩
      obtain ⟨emitted, made, -⟩ := emission_of_run unambiguous undeployed run mem
      rw [slot?_of_emission made] at placed
      obtain ⟨⟨_, block⟩, rfl, rfl⟩ := Option.map_eq_some_iff.mp placed
      exact ⟨block, c, mem, made⟩

end Run

/-- Services in another order, with their components in another order. -/
def Rearranged (services services' : List Service) : Prop :=
  ∃ between, services.Perm between ∧
    List.Forall₂ (fun s s' => s.infrastructure.Perm s'.infrastructure ∧
      s' = { s with infrastructure := s'.infrastructure }) between services'

theorem Rearranged.laidOut (h : Rearranged services services') :
    (laidOut services).Perm (laidOut services') := by
  obtain ⟨between, moved, inside⟩ := h
  refine (moved.flatMap_right _).trans ?_
  clear moved
  induction inside with
  | nil => exact .refl _
  | @cons s s' _ _ first _ ih =>
    obtain ⟨shuffled, same⟩ := first
    have effects : effective s' = effective s := by
      rw [same]
      rfl
    simp only [Terraform.laidOut, List.flatMap_cons, effects] at ih ⊢
    exact (shuffled.map _).append ih

theorem Rearranged.forall {P : Service → Prop} (h : Rearranged services services')
    (shape : ∀ s infrastructure, P s → P { s with infrastructure }) (all : ∀ s ∈ services, P s) :
    ∀ s ∈ services', P s := by
  obtain ⟨between, moved, inside⟩ := h
  intro s' mem
  obtain ⟨s, source, -, same⟩ := Outcome.exists_of_mem_forall₂ inside mem
  rw [same]
  exact shape s _ (all s (moved.mem_iff.mpr source))

theorem Rearranged.unambiguous (h : Rearranged services services')
    (unambiguous : Unambiguous services) :
    Unambiguous services' :=
  ((h.laidOut.filter typed).map Component.name).nodup unambiguous

theorem Rearranged.table (h : Rearranged services services') (unambiguous : Unambiguous services)
    (name : String) :
    get? (table services') name = get? (table services) name := by
  apply Option.ext
  intro address
  simp only [unambiguous.get?_table_iff, (h.unambiguous unambiguous).get?_table_iff,
    h.laidOut.mem_iff]

theorem Rearranged.makes_iff (h : Rearranged services services')
    (unambiguous : Unambiguous services) :
    Makes providers services' c slot block ↔ Makes providers services c slot block := by
  rw [Makes, Makes, h.laidOut.mem_iff, emission_congr (h.table unambiguous)]

/-- The resource, data and module sections of two written configurations hold the same, in whatever
order. -/
structure SameSections (tree tree' : Data) : Prop where
  resources : Data.Alike 2 (.map (tree.part "resource")) (.map (tree'.part "resource"))
  dataSources : Data.Alike 2 (.map (tree.part "data")) (.map (tree'.part "data"))
  modules : Data.Alike 1 (.map (tree.part "module")) (.map (tree'.part "module"))

theorem Config.Tidy.sameSections {c c' : Config} {tree tree' : Data} (tidy : c.Tidy)
    (tidy' : c'.Tidy) (sections : c.sections = .ok tree) (sections' : c'.sections = .ok tree')
    (same : ∀ slot, c.block? slot = c'.block? slot) : SameSections tree tree' := by
  obtain ⟨resources, dataSources, modules, -⟩ := sections_eq_ok sections
  obtain ⟨resources', dataSources', modules', -⟩ := sections_eq_ok sections'
  refine ⟨?_, ?_, ?_⟩
  · rw [resources, resources']
    exact tidy.resources.alike tidy'.resources fun type name => same (.resource type name)
  · rw [dataSources, dataSources']
    exact tidy.dataSources.alike tidy'.dataSources fun type name => same (.data type name)
  · rw [modules, modules']
    intro name
    have equal : get? c.modules name = get? c'.modules name := same (.module name)
    rw [equal]
    cases get? c'.modules name with
    | none => exact .none
    | some block => exact .some rfl

theorem Rearranged.refl (services : List Service) : Rearranged services services :=
  ⟨services, .refl _, List.forall₂_same.mpr fun _ _ => ⟨.refl _, rfl⟩⟩

theorem Rearranged.wellFormed (h : Rearranged services services')
    (wellFormed : WellFormed providers services) :
    WellFormed providers services' where
  providers := wellFormed.providers
  types c mem := wellFormed.types c (h.laidOut.mem_iff.mpr mem)
  labels c mem := wellFormed.labels c (h.laidOut.mem_iff.mpr mem)
  dependencies c mem := wellFormed.dependencies c (h.laidOut.mem_iff.mpr mem)
  vars := h.forall (fun _ _ => id) wellFormed.vars

/-- However services and components are arranged, each component with a slot has one block, nothing
else has one, and the blocks are the same. -/
theorem generate_one_block_each_in_any_order (providers : Assoc Data)
    (unambiguous : Unambiguous services)
    (undeployed : ∀ s ∈ services, s.deployment.holds = false)
    (moved : Rearranged services services') :
    (WellFormed providers services → ∃ tree', Generates providers services' tree') ∧
      ∀ tree', Generates providers services' tree' →
        (standing tree').Perm ((laidOut services).filterMap (slot? providers)) ∧
          ∀ tree, Generates providers services tree → SameSections tree tree' := by
  have undeployed' := moved.forall (fun _ _ => id) undeployed
  have unambiguous' := moved.unambiguous unambiguous
  refine ⟨fun wellFormed => generates_of_wellFormed (moved.wellFormed wellFormed) undeployed', ?_⟩
  intro tree' generated'
  obtain ⟨st', c', run', sections', blocks', -⟩ := generated'.pass
  have tidy' := (kept_of_run run' .empty).2
  refine ⟨?_, ?_⟩
  · rw [standing_eq sections', slots_congr blocks']
    exact (slots_perm unambiguous' undeployed' run').trans (moved.laidOut.symm.filterMap _)
  · intro tree generated
    obtain ⟨st, c, run, sections, blocks, -⟩ := generated.pass
    have tidy := (kept_of_run run .empty).2
    refine (tidy.of_blocks blocks).sameSections (tidy'.of_blocks blocks') sections sections' ?_
    intro slot
    rw [block?_congr blocks, block?_congr blocks']
    apply Option.ext
    intro block
    rw [block?_eq_some_iff unambiguous undeployed run,
      block?_eq_some_iff unambiguous' undeployed' run']
    simp only [moved.makes_iff unambiguous]

namespace Sample

def server : Component :=
  { name := "server", resourceType := .str "aws_instance"
    attributes := [("subnet_id", .str (wrapped "infrastructure.network.lan.id"))] }
def image : Component := { name := "image", resourceType := .str "aws_ami", dataSource := .bool true }

def lan : Component := { name := "lan", resourceType := .str "aws_subnet" }

def given : List Service :=
  [{ name := "web", infrastructure := [server, image] }, { name := "net", infrastructure := [lan] }]

def reordered : List Service :=
  [{ name := "net", infrastructure := [lan] }, { name := "web", infrastructure := [image, server] }]

theorem rearranged : Rearranged given reordered := by
  refine ⟨given.reverse, (List.reverse_perm _).symm, ?_⟩
  exact .cons ⟨.refl _, rfl⟩ (.cons ⟨.swap _ _ _, rfl⟩ .nil)

theorem wellFormed : WellFormed [] given := by
  refine ⟨by simp, ?_, ?_, ?_, ?_⟩
  · simp [laidOut, given, effective, server, image, lan]
  · simp [laidOut, given, effective, server, image, lan, either, Data.holds]
  · simp [laidOut, given, effective, server, image, lan, Data.holds]
  · simp [given]

end Sample

/-- A reference forward and a reference backward resolve alike. -/
theorem generate_server_and_network_in_two_orders : ∃ tree tree',
    Generates [] Sample.given tree ∧ Generates [] Sample.reordered tree' ∧ SameSections tree tree' ∧
      (standing tree').Perm
        [.resource "aws_instance" "server", .data "aws_ami" "image",
          .resource "aws_subnet" "lan"] := by
  have unambiguous : Unambiguous Sample.given := by
    unfold Unambiguous
    decide
  have undeployed : ∀ s ∈ Sample.given, s.deployment.holds = false := by
    simp [Sample.given, Data.holds]
  obtain ⟨tree, generated⟩ := (generate_one_block_each_in_any_order [] unambiguous undeployed
    (.refl Sample.given)).1 Sample.wellFormed
  have moved := generate_one_block_each_in_any_order [] unambiguous undeployed Sample.rearranged
  obtain ⟨tree', generated'⟩ := moved.1 Sample.wellFormed
  obtain ⟨slots, same⟩ := moved.2 tree' generated'
  exact ⟨tree, tree', generated, generated', same tree generated, slots⟩

end Stratus.Terraform
