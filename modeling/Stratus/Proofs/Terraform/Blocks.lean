import Stratus.Proofs.Data.Parts
import Stratus.Terraform.Config

/-!
The places of a configuration. Putting a block into a slot changes that slot alone, and the sections
of the written configuration hold the blocks of the slots and nothing else.
-/
namespace Stratus.Terraform

open Assoc

namespace Blocks

theorem get?_add (b : Blocks) (type name : String) (block : Data) (type' name' : String) :
    get? (add b type name block) type' name' =
      if type = type' ∧ name = name' then some block else get? b type' name' := by
  rw [get?, add, get?_set]
  by_cases same : type = type'
  · subst same
    simp only [if_true, Option.bind_some, get?_set, true_and, get?]
    split
    · rfl
    · unfold Assoc.getD
      cases Assoc.get? b type <;> rfl
  · simp [same, get?]

/-- No type and no name under a type stands twice, and every type has a block. -/
structure Tidy (b : Blocks) : Prop where
  types : (Assoc.keys b).Nodup
  names : ∀ type named, (type, named) ∈ b → (Assoc.keys named).Nodup
  filled : ∀ type named, (type, named) ∈ b → named ≠ []

theorem Tidy.nil : Tidy [] := by
  refine ⟨List.nodup_nil, ?_, ?_⟩
  · intro type named mem
    cases mem
  · intro type named mem
    cases mem

variable {b : Blocks}

theorem Tidy.add (h : Tidy b) (type name : String) (block : Data) :
    Tidy (add b type name block) := by
  refine ⟨Assoc.nodup_keys_set h.types type _, ?_, ?_⟩
  · intro type' named mem
    rcases Assoc.mem_of_mem_set mem with old | new
    · exact h.names type' named old
    · cases new
      apply Assoc.nodup_keys_set
      unfold Assoc.getD
      cases found : Assoc.get? b type with
      | none => exact List.nodup_nil
      | some named => exact h.names type named (mem_of_get? found)
  · intro type' named mem
    rcases Assoc.mem_of_mem_set mem with old | new
    · exact h.filled type' named old
    · cases new
      intro empty
      have written := get?_set (Assoc.getD b type []) name block name
      rw [empty, if_pos rfl] at written
      cases written

theorem Tidy.get?_of_mem (h : Tidy b) {type name : String} {named : Assoc Data} {block : Data}
    (outer : (type, named) ∈ b) (inner : (name, block) ∈ named) : get? b type name = some block := by
  rw [get?, Assoc.get?_of_mem h.types outer]
  exact Assoc.get?_of_mem (h.names type named outer) inner

def places (b : Blocks) : List (String × String) := b.flatMap fun e => (Assoc.keys e.2).map (e.1, ·)

theorem Tidy.mem_places (h : Tidy b) {type name : String} :
    (type, name) ∈ places b ↔ (get? b type name).isSome := by
  simp only [places, List.mem_flatMap, List.mem_map, Prod.mk.injEq]
  constructor
  · rintro ⟨⟨type', named⟩, outer, name', inner, rfl, rfl⟩
    obtain ⟨⟨name', block⟩, mem, rfl⟩ := List.mem_map.mp inner
    rw [h.get?_of_mem outer mem]
    rfl
  · intro found
    obtain ⟨block, found⟩ := Option.isSome_iff_exists.mp found
    obtain ⟨named, outer, inner⟩ := Option.bind_eq_some_iff.mp found
    exact ⟨(type, named), mem_of_get? outer, name, mem_keys (mem_of_get? inner), rfl, rfl⟩

theorem Tidy.nodup_places (h : Tidy b) : (places b).Nodup := by
  refine List.nodup_flatMap.mpr ⟨?_, ?_⟩
  · rintro ⟨type, named⟩ mem
    exact (h.names type named mem).map fun a b same => (Prod.mk.inj same).2
  · refine (List.pairwise_map.mp h.types).imp ?_
    intro e e' other place left right
    obtain ⟨_, _, rfl⟩ := List.mem_map.mp left
    obtain ⟨_, _, same⟩ := List.mem_map.mp right
    exact other (Prod.mk.inj same).1.symm

/-- Blocks that are found alike are alike, whatever the order of types and names. -/
theorem Tidy.alike {b' : Blocks} (h : Tidy b) (h' : Tidy b')
    (same : ∀ type name, get? b type name = get? b' type name) :
    Data.Alike 2 (data b) (data b') := by
  intro type
  rw [get?_mapValues, get?_mapValues]
  have filled {b : Blocks} (h : Tidy b) {named : Assoc Data}
    (found : Assoc.get? b type = some named) :
      ∃ name, (get? b type name).isSome := by
    obtain ⟨e, rest, rfl⟩ := List.exists_cons_of_ne_nil (h.filled type named (mem_of_get? found))
    exact ⟨e.1, by simp [get?, found, Assoc.get?]⟩
  cases found : Assoc.get? b type with
  | none =>
    cases found' : Assoc.get? b' type with
    | none => exact .none
    | some named' =>
      obtain ⟨name, some⟩ := filled h' found'
      rw [← same, get?, found] at some
      cases some
  | some named =>
    cases found' : Assoc.get? b' type with
    | none =>
      obtain ⟨name, some⟩ := filled h found
      rw [same, get?, found'] at some
      cases some
    | some named' =>
      refine .some ?_
      intro name
      have equal := same type name
      rw [get?, get?, found, found', Option.bind_some, Option.bind_some] at equal
      rw [equal]
      cases Assoc.get? named' name with
      | none => exact .none
      | some block => exact .some rfl

end Blocks

inductive Slot where
  | resource (type name : String)
  | data (type name : String)
  | module (name : String)
deriving DecidableEq

def Slot.name : Slot → String
  | resource _ name | data _ name | module name => name

namespace Config

def block? (c : Config) : Slot → Option Data
  | .resource type name => Blocks.get? c.resources type name
  | .data type name => Blocks.get? c.dataSources type name
  | .module name => Assoc.get? c.modules name

def put (c : Config) (block : Data) : Slot → Config
  | .resource type name => { c with resources := Blocks.add c.resources type name block }
  | .data type name => { c with dataSources := Blocks.add c.dataSources type name block }
  | .module name => { c with modules := Assoc.set c.modules name block }

theorem block?_put (c : Config) (block : Data) (slot other : Slot) :
    (c.put block slot).block? other = if slot = other then some block else c.block? other := by
  cases slot with
  | resource type name =>
    cases other <;> simp [put, block?, Blocks.get?_add]
  | data type name =>
    cases other <;> simp [put, block?, Blocks.get?_add]
  | module name =>
    cases other <;> simp [put, block?, get?_set]

structure Tidy (c : Config) : Prop where
  resources : Blocks.Tidy c.resources
  dataSources : Blocks.Tidy c.dataSources
  modules : (Assoc.keys c.modules).Nodup

theorem Tidy.empty : Tidy {} := ⟨.nil, .nil, List.nodup_nil⟩

variable {c c' : Config}

theorem Tidy.put (h : Tidy c) (block : Data) (slot : Slot) : Tidy (c.put block slot) := by
  cases slot with
  | resource type name => exact { h with resources := h.resources.add type name block }
  | data type name => exact { h with dataSources := h.dataSources.add type name block }
  | module name => exact { h with modules := Assoc.nodup_keys_set h.modules name block }

def blocks (c : Config) : Blocks × Blocks × Assoc Data := (c.resources, c.dataSources, c.modules)

theorem block?_congr (h : c'.blocks = c.blocks) (slot : Slot) : c'.block? slot = c.block? slot := by
  obtain ⟨resources, rest⟩ := Prod.mk.inj h
  obtain ⟨dataSources, modules⟩ := Prod.mk.inj rest
  cases slot with
  | resource type name => rw [block?, block?, resources]
  | data type name => rw [block?, block?, dataSources]
  | module name => rw [block?, block?, modules]

theorem Tidy.of_blocks (tidy : Tidy c) (h : c'.blocks = c.blocks) : Tidy c' := by
  obtain ⟨resources, rest⟩ := Prod.mk.inj h
  obtain ⟨dataSources, modules⟩ := Prod.mk.inj rest
  exact ⟨resources ▸ tidy.resources, dataSources ▸ tidy.dataSources, modules ▸ tidy.modules⟩

def slots (c : Config) : List Slot :=
  (Blocks.places c.resources).map (fun n => .resource n.1 n.2) ++
    (Blocks.places c.dataSources).map (fun n => .data n.1 n.2) ++ (Assoc.keys c.modules).map .module

theorem slots_congr (h : c'.blocks = c.blocks) : c'.slots = c.slots := by
  obtain ⟨resources, rest⟩ := Prod.mk.inj h
  obtain ⟨dataSources, modules⟩ := Prod.mk.inj rest
  rw [slots, slots, resources, dataSources, modules]

theorem Tidy.mem_slots (h : Tidy c) {slot : Slot} : slot ∈ c.slots ↔ (c.block? slot).isSome := by
  cases slot with
  | resource type name => simp [slots, block?, h.resources.mem_places]
  | data type name => simp [slots, block?, h.dataSources.mem_places]
  | module name => simp [slots, block?, ← contains_iff, contains]

theorem Tidy.nodup_slots (h : Tidy c) : c.slots.Nodup := by
  have resource : Function.Injective fun n : String × String => Slot.resource n.1 n.2 := by
    rintro ⟨type, name⟩ ⟨type', name'⟩ same
    cases same
    rfl
  have data : Function.Injective fun n : String × String => Slot.data n.1 n.2 := by
    rintro ⟨type, name⟩ ⟨type', name'⟩ same
    cases same
    rfl
  have resources := h.resources.nodup_places.map resource
  have dataSources := h.dataSources.nodup_places.map data
  have modules := h.modules.map fun a b => Slot.module.inj
  refine List.nodup_append'.mpr ⟨List.nodup_append'.mpr ⟨resources, dataSources, ?_⟩, modules, ?_⟩
  · intro slot left right
    obtain ⟨_, _, rfl⟩ := List.mem_map.mp left
    simp at right
  · intro slot left right
    obtain ⟨_, _, rfl⟩ := List.mem_map.mp right
    simp at left

theorem get?_filter_holds {m : Assoc Data} (nodup : (Assoc.keys m).Nodup) (key : String) :
    Assoc.get? (m.filter (·.2.holds)) key = (Assoc.get? m key).filter Data.holds := by
  induction m with
  | nil => rfl
  | cons e rest ih =>
    obtain ⟨k, d⟩ := e
    obtain ⟨new, nodup⟩ := List.nodup_cons.mp (keys_cons _ rest ▸ nodup)
    by_cases same : k = key
    · subst same
      have absent : Assoc.get? rest k = none := get?_eq_none_iff.mpr new
      by_cases h : d.holds = true
      · simp [Assoc.get?, h, Option.filter]
      · simp [Assoc.get?, h, ih nodup, absent, Option.filter]
    · by_cases h : d.holds = true
      · simp [Assoc.get?, h, same, ih nodup]
      · simp [Assoc.get?, h, same, ih nodup]

/-- A part that is a map of sections without the empty ones; a section that is left out reads as
empty. -/
theorem part_of_filter {rest : Assoc Data} (nodup : (Assoc.keys rest).Nodup) {head : Data}
    {name : String}
    (other : "terraform" ≠ name) {entries : Assoc Data}
    (found : Assoc.get? rest name = some (.map entries)) :
    (Data.map (("terraform", head) :: rest.filter (·.2.holds))).part name = entries := by
  simp only [Data.part, Data.at?, Data.step?, Assoc.get?, beq_iff_eq, other, if_false,
    get?_filter_holds nodup, found]
  cases entries <;> rfl

theorem sections_eq_ok {tree : Data} (h : c.sections = .ok tree) :
    tree.part "resource" = mapValues Data.map c.resources ∧
      tree.part "data" = mapValues Data.map c.dataSources ∧ tree.part "module" = c.modules ∧
      mapValuesM outputEntry c.outputs = .ok (tree.part "output") := by
  obtain ⟨outputs, run, last⟩ := Outcome.bind_eq_ok h
  cases last
  refine ⟨part_of_filter (by simp [Assoc.keys]) (by decide) rfl,
    part_of_filter (by simp [Assoc.keys]) (by decide) rfl,
    part_of_filter (by simp [Assoc.keys]) (by decide) rfl, ?_⟩
  rw [part_of_filter (by simp [Assoc.keys]) (by decide) rfl, ← run, mapValuesM]
  simp only [map_eq_pure_bind]

theorem sections_providers {tree : Data} (h : c.sections = .ok tree) :
    tree.part "provider" = c.providers ∧
      tree.at? [.key "terraform", .key "required_providers"] = some (.map c.requiredProviders) := by
  obtain ⟨outputs, run, last⟩ := Outcome.bind_eq_ok h
  cases last
  exact ⟨part_of_filter (by simp [Assoc.keys]) (by decide) rfl, rfl⟩

end Config

def Slot.path : Slot → List Data.Step
  | resource type name => [.key "resource", .key type, .key name]
  | data type name => [.key "data", .key type, .key name]
  | module name => [.key "module", .key name]

def standing (tree : Data) : List Slot :=
  let typed (part : String) (slot : String → String → Slot) :=
    (tree.part part).flatMap fun e => (Assoc.keys ((e.2.map?).getD [])).map (slot e.1)
  typed "resource" .resource ++ typed "data" .data ++ (Assoc.keys (tree.part "module")).map .module

namespace Config

variable {c : Config} {tree : Data}

theorem at?_path (h : c.sections = .ok tree) (slot : Slot) : tree.at? slot.path = c.block? slot := by
  obtain ⟨resources, dataSources, modules, -⟩ := sections_eq_ok h
  have typed (b : Blocks) (type name : String) :
      ((Assoc.get? (mapValues Data.map b) type).bind (Data.at? · [.key name])) =
        Blocks.get? b type name := by
    rw [get?_mapValues, Blocks.get?]
    cases Assoc.get? b type with
    | none => rfl
    | some named => simp [Data.at?, Data.step?]
  cases slot with
  | resource type name => rw [Slot.path, Data.at?_part, resources, typed, block?]
  | data type name => rw [Slot.path, Data.at?_part, dataSources, typed, block?]
  | module name =>
    rw [Slot.path, Data.at?_part, modules, block?]
    simp [Data.at?]

theorem standing_eq (h : c.sections = .ok tree) : standing tree = c.slots := by
  obtain ⟨resources, dataSources, modules, -⟩ := sections_eq_ok h
  have typed (b : Blocks) (slot : String → String → Slot) :
      ((mapValues Data.map b).flatMap fun e => (Assoc.keys ((e.2.map?).getD [])).map (slot e.1)) =
        (Blocks.places b).map fun n => slot n.1 n.2 := by
    simp [mapValues, Blocks.places, List.flatMap_map, List.map_flatMap, Data.map?, Function.comp_def]
  simp only [standing, resources, dataSources, modules, typed]
  rfl

end Config

end Stratus.Terraform
