import Stratus.Proofs.Terraform.Deployment

/-!
What a reference resolves to. Addresses are kept by name alone and recorded once more at a turn, so
a reference means the component that had its name last.
-/
namespace Stratus.Terraform

open Effect

variable {providers : Assoc Data} {services : List Service} {tree : Data} {st : State}

/-- The component that has a name at a turn: the last one that is a resource by then, or else the
last one with a type. -/
def owner? (providers : Assoc Data) (done all : List Component) (name : String) : Option Component :=
  (lastNamed (claims providers) done name).or (lastNamed typed all name)

theorem get?_of_owner (providers : Assoc Data) (done : List Component) (name : String) :
    Assoc.get? (done.foldl (record (claims providers)) (table services)) name =
      (owner? providers done (laidOut services) name).map Component.address := by
  rw [get?_foldl_record, get?_table, owner?]
  cases lastNamed (claims providers) done name <;> rfl

variable {c : Component} {before later : List Component}

theorem owner?_eq_some {done all : List Component} {name : String} (part : ∀ d ∈ done, d ∈ all)
    (h : owner? providers done all name = some c) : c ∈ all ∧ typed c = true ∧ c.name = name := by
  rcases Option.or_eq_some_iff.mp h with found | ⟨-, found⟩
  · obtain ⟨mem, claimed, named⟩ := lastNamed_eq_some found
    exact ⟨part c mem, typed_of_claims claimed, named⟩
  · exact lastNamed_eq_some found

theorem exists_owner (providers : Assoc Data) (done : List Component) {all : List Component}
    (mem : c ∈ all) (given : typed c = true) : ∃ d, owner? providers done all c.name = some d := by
  obtain ⟨d, found⟩ := exists_lastNamed mem given
  rw [owner?, found]
  cases lastNamed (claims providers) done c.name with
  | some e => exact ⟨e, rfl⟩
  | none => exact ⟨d, rfl⟩

theorem plan_split (split : laidOut services = before ++ c :: later) :
    ∃ first last, plan services = first ++ .component c :: last ∧
      first.filterMap Move.component? = before ∧
      last.filterMap Move.component? = later := by
  rw [← filterMap_plan] at split
  obtain ⟨first, rest, whole, here, there⟩ := List.filterMap_eq_append_iff.mp split
  obtain ⟨silent, move, last, same, none, some, after⟩ := List.filterMap_eq_cons_iff.mp there
  refine ⟨first ++ silent, last, ?_, ?_, after⟩
  · cases move with
    | component d =>
      cases some
      rw [whole, same, List.append_assoc]
    | _ => cases some
  · rw [List.filterMap_append, here, List.filterMap_eq_nil_iff.mpr none, List.append_nil]

/-- What a component makes at its turn is in the written configuration and grows at most, unless a
later component takes the slot. -/
theorem written_of_turn {slot : Slot}
    (generated : Generates providers services tree) (split : laidOut services = before ++ c :: later)
    (placed : slot? providers c = some slot) (alone : ∀ d ∈ later, slot? providers d ≠ some slot) :
    ∃ made block, emission providers
      ((before ++ [c]).foldl (record (claims providers)) (table services)) c =
        .ok (some (slot, made)) ∧ tree.at? slot.path = some block ∧ Grown made block := by
  obtain ⟨st, config, run, sections, blocks, -⟩ := generated.pass
  obtain ⟨first, last, whole, done, left⟩ := plan_split split
  rw [whole] at run
  obtain ⟨m, run, rest⟩ := Chain.append_iff.mp run
  obtain ⟨m', turned, rest⟩ := Chain.cons_iff.mp rest
  have collected := addresses_of_run run .empty
  obtain ⟨rfl, tidy⟩ := kept_of_run run .empty
  obtain ⟨emitted, made, rfl⟩ := turn_returns_iff.mp turned
  rw [slot?_of_emission made] at placed
  obtain ⟨⟨slot, block⟩, rfl, rfl⟩ := Option.map_eq_some_iff.mp placed
  have stands : (m.after c (some (slot, block))).config.block? slot = some block := by
    rw [State.after, Config.lay, Config.block?_put, if_pos rfl]
  obtain ⟨final, found, grown⟩ :=
    block_stays rest (tidy.lay (some (slot, block))) (left ▸ alone) stands
  refine ⟨block, final, ?_, ?_, grown⟩
  · rw [List.foldl_append, ← done, ← collected]
    exact made
  · rw [Config.at?_path sections, Config.block?_congr blocks, found]

/-- A component that becomes a resource whose slot no later component takes. -/
structure Lasting (providers : Assoc Data) (services : List Service) (before : List Component)
    (c : Component) (later : List Component) (type : String) : Prop where
  split : laidOut services = before ++ c :: later
  placed : slot? providers c = some (.resource type c.name)
  alone : ∀ d ∈ later, slot? providers d ≠ some (.resource type c.name)

/-- An attribute of a component that is one reference. -/
structure Refers (c : Component) (key : String) (path : List Data.Step)
    (kind name field : String) : Prop where
  written : (Data.map c.attributes).at? (.key key :: path) =
    some (.str (wrapped (mark ++ kind ++ "." ++ name ++ "." ++ field)))
  plain : key ≠ "provider" ∧ key ≠ "depends_on"
  undotted : '.' ∉ kind.toList ∧ '.' ∉ name.toList
  closed : '\x7d' ∉ (kind ++ "." ++ name ++ "." ++ field).toList

theorem attribute_of_owner {owner : Component} {type key kind name field : String}
    {path : List Data.Step} (generated : Generates providers services tree)
    (lasting : Lasting providers services before c later type)
    (refers : Refers c key path kind name field)
    (owned : owner? providers (before ++ [c]) (laidOut services) name = some owner) :
    tree.at? (Slot.path (.resource type c.name) ++ .key key :: path) =
      some (.str (wrapped (owner.address ++ "." ++ field))) := by
  obtain ⟨made, block, emitted, written, grown⟩ :=
    written_of_turn generated lasting.split lasting.placed lasting.alone
  have known : Assoc.get? ((before ++ [c]).foldl (record (claims providers)) (table services)) name =
      some owner.address := by
    rw [get?_of_owner, owned]
    rfl
  have resolved : made.at? (.key key :: path) =
      some (.str (wrapped (owner.address ++ "." ++ field))) := by
    rw [at?_of_emission emitted refers.plain.1 refers.plain.2, refers.written, Option.map_some,
      resolveAll_str, resolveText_reference refers.undotted.1 refers.undotted.2 refers.closed known
        owner.address_ne_empty]
  rw [Data.at?_append, written, ← resolved, Data.at?, ← grown.rest key refers.plain.2]
  rfl

/-- A reference to a component becomes an attribute of that component exactly if the name is with a
component of its type at the turn of the resource. -/
theorem generate_reference_means_last_owner (target : Component) {before later : List Component}
    {c : Component}
    {type key kind field : String} {path : List Data.Step}
    (generated : Generates providers services tree)
    (lasting : Lasting providers services before c later type)
    (refers : Refers c key path kind target.name field)
    (mem : target ∈ laidOut services) (given : typed target = true) :
    (tree.at? (Slot.path (.resource type c.name) ++ .key key :: path) =
        some (.str (wrapped (target.address ++ "." ++ field))) ↔
      (owner? providers (before ++ [c]) (laidOut services) target.name).map (·.resourceType.text) =
        some target.resourceType.text) ∧
    ((∀ d ∈ laidOut services, typed d = true → d.name = target.name →
        d.resourceType.text = target.resourceType.text) →
      tree.at? (Slot.path (.resource type c.name) ++ .key key :: path) =
        some (.str (wrapped (target.address ++ "." ++ field)))) := by
  obtain ⟨owner, owned⟩ := exists_owner providers (before ++ [c]) mem given
  have part : ∀ d ∈ before ++ [c], d ∈ laidOut services := by
    rw [lasting.split]
    simp only [List.mem_append, List.mem_cons, List.not_mem_nil, or_false]
    tauto
  obtain ⟨known, typedOwner, same⟩ := owner?_eq_some part owned
  have written := attribute_of_owner generated lasting refers owned
  have addresses : owner.address = target.address ↔
      owner.resourceType.text = target.resourceType.text := by
    simp [Component.address, same]
  rw [written, owned]
  refine ⟨?_, ?_⟩
  · simp [wrapped, addresses]
  · intro one
    rw [addresses.mpr (one owner known typedOwner same)]

namespace Sample

def vpc : Component :=
  { name := "main", kind := .str "network", resourceType := .str "aws_vpc"
    attributes := [("cidr", .str "10.0.0.0/16")] }
def machine : Component :=
  { name := "main", kind := .str "compute", resourceType := .str "aws_instance" }

def probe : Component :=
  { name := "probe", kind := .str "compute", resourceType := .str "aws_eip"
    attributes := [("vpc", .str "$\x7binfrastructure.network.main.id\x7d")] }

/-- Two components of one name in different sections, and a third that refers to the first section.
-/
def sharing (first second : Component) : List Service :=
  [{ name := "web", infrastructure := [first, second, probe] }]

end Sample

/-- The network is laid out last, so it has the name. -/
theorem generate_reference_to_later_network :
    ∃ tree, Generates [] (Sample.sharing Sample.machine Sample.vpc) tree ∧
    tree.at? [.key "resource", .key "aws_eip", .key "probe", .key "vpc"] =
      some (.str "$\x7baws_vpc.main.id\x7d") := by
  have generated : ∃ tree, Generates [] (Sample.sharing Sample.machine Sample.vpc) tree := ⟨.map [
    ("terraform", .map [("required_providers", .map [])]),
    ("resource", .map [
      ("aws_instance", .map [("main", .map [])]),
      ("aws_vpc", .map [("main", .map [("cidr", .str "10.0.0.0/16")])]),
      ("aws_eip", .map [("probe", .map [("vpc", .str "$\x7baws_vpc.main.id\x7d")])])]),
    ("output", .map [
      ("web_main_id", .map [
        ("value", .str "$\x7baws_vpc.main.id\x7d"),
        ("description", .str "ID of main in service web")]),
      ("web_probe_id", .map [
        ("value", .str "$\x7baws_eip.probe.id\x7d"),
        ("description", .str "ID of probe in service web")])])],
    _, rfl, rfl⟩
  obtain ⟨tree, generated⟩ := generated
  refine ⟨tree, generated, ?_⟩
  have lasting : Lasting [] (Sample.sharing Sample.machine Sample.vpc) [Sample.machine, Sample.vpc]
    Sample.probe []
      "aws_eip" := ⟨rfl, rfl, by simp⟩
  have refers : Refers Sample.probe "vpc" [] "network" "main" "id" :=
    ⟨rfl, by decide, by decide, by decide⟩
  have mem : Sample.vpc ∈ [Sample.machine, Sample.vpc, Sample.probe] := by simp
  exact (generate_reference_means_last_owner Sample.vpc generated lasting refers mem rfl).1.mpr rfl

/-- The machine is laid out last, so a reference to the network means the machine. -/
theorem generate_reference_across_sections :
    ∃ tree, Generates [] (Sample.sharing Sample.vpc Sample.machine) tree ∧
    tree.at? [.key "resource", .key "aws_eip", .key "probe", .key "vpc"] =
      some (.str "$\x7baws_instance.main.id\x7d") := by
  exact ⟨.map [
    ("terraform", .map [("required_providers", .map [])]),
    ("resource", .map [
      ("aws_vpc", .map [("main", .map [("cidr", .str "10.0.0.0/16")])]),
      ("aws_instance", .map [("main", .map [])]),
      ("aws_eip", .map [("probe", .map [("vpc", .str "$\x7baws_instance.main.id\x7d")])])]),
    ("output", .map [
      ("web_main_id", .map [
        ("value", .str "$\x7baws_instance.main.id\x7d"),
        ("description", .str "ID of main in service web")]),
      ("web_probe_id", .map [
        ("value", .str "$\x7baws_eip.probe.id\x7d"),
        ("description", .str "ID of probe in service web")])])],
    ⟨_, rfl, rfl⟩, rfl⟩

end Stratus.Terraform
