import Stratus.Proofs.Terraform.Deployment

/-!
Addresses in a written configuration, cited by outputs, resolved references and dependencies: of
resources exactly if some component becomes that resource.
-/
namespace Stratus.Terraform

open Assoc hiding set
open Config

open Effect

variable {providers : Assoc Data} {services : List Service} {tree : Data} {st : State}
  {P : String → Prop}
  {type name : String} {key : String}

/-- The address of a component with a type. -/
def Known (services : List Service) (address : String) : Prop :=
  ∃ c ∈ laidOut services, typed c = true ∧ c.address = address

/-- Some component becomes a resource of this address. -/
def Backed (providers : Assoc Data) (services : List Service) (address : String) : Prop :=
  ∃ c ∈ laidOut services, ∃ type name, slot? providers c = some (.resource type name) ∧
    address = type ++ "." ++ name

/-- A resource of this address stands in a written configuration. -/
def Points (tree : Data) (address : String) : Prop :=
  ∃ type name, (tree.at? (Slot.path (.resource type name))).isSome ∧ address = type ++ "." ++ name

/-- A reference stays or becomes an attribute of an address with a property. -/
inductive Resolves (P : String → Prop) : Piece → List Char → Prop where
  | char (c : Char) : Resolves P (.char c) [c]
  | kept (name : String) : Resolves P (.reference name) (wrapped name).toList
  | resolved (name field : String) {address : String} (h : P address) :
      Resolves P (.reference name) (wrapped (address ++ "." ++ field)).toList

/-- The block of a component cites addresses with a property only. -/
structure Cites (P : String → Prop) (c : Component) (block : Data) : Prop where
  attributes : ∀ key path text, key ≠ "provider" → key ≠ "depends_on" →
    (Data.map c.attributes).at? (.key key :: path) = some (.str text) →
      ∃ words, List.Forall₂ (Resolves P) (pieces text) words ∧
        block.at? (.key key :: path) = some (.str (String.ofList words.flatten))
  dependencies : c.dependsOn.holds = true →
    ∃ (ds : List Data) (names : List String) (added : List Data),
    c.dependsOn.elements = .ok ds ∧ ds.length = names.length ∧
      (∀ address ∈ names, address = "" ∨ P address) ∧
      block.at? [.key "depends_on"] = some (.list (names.map Data.str ++ added))

variable {addresses : Addresses} {Q : String → Prop} {block : Data} {c : Component}

theorem Resolves.of_written (known : ∀ name address, get? addresses name = some address → P address)
    (piece : Piece) : Resolves P piece (piece.written addresses) := by
  cases piece with
  | char c => exact .char c
  | reference name =>
    rw [Piece.written]
    rcases resolveName_cases addresses name with same | ⟨component, address, field, found, same⟩
    · rw [same]
      exact .kept name
    · rw [same]
      exact .resolved name field (known component address found)

theorem Resolves.imp (imp : ∀ address, P address → Q address) {piece : Piece} {word : List Char}
    (h : Resolves P piece word) : Resolves Q piece word := by
  cases h with
  | char c => exact .char c
  | kept name => exact .kept name
  | resolved name field h => exact .resolved name field (imp _ h)

theorem cites_of_emission (known : ∀ name address, get? addresses name = some address → P address)
    (made : emission providers addresses c = .ok (some (.resource type name, block))) :
    Cites P c block := by
  refine ⟨?_, ?_⟩
  · intro key path text hp hd found
    refine ⟨(pieces text).map (Piece.written addresses), ?_, ?_⟩
    · rw [List.forall₂_map_right_iff]
      exact List.forall₂_same.mpr fun piece _ => .of_written known piece
    · rw [at?_of_emission made hp hd, found, Option.map_some, resolveAll_str, resolveText_eq,
        List.flatMap_def]
  · intro depends
    obtain ⟨ds, names, elements, found, written⟩ := dependencies_of_emission made depends
    refine ⟨ds, names, [], elements, ?_, ?_, ?_⟩
    · exact (Outcome.mapM_eq_ok_iff.mp found).length_eq
    · intro address mem
      obtain ⟨d, _, read⟩ := Outcome.exists_of_mem_mapM found mem
      exact (dependencyAddress_cases read).imp id fun ⟨component, found⟩ =>
        known component address found
    · rw [Data.at?, written, List.append_nil]
      rfl

theorem Cites.grown {block' : Data} (h : Cites P c block) (grown : Grown block block') :
    Cites P c block' := by
  refine ⟨?_, ?_⟩
  · intro key path text hp hd found
    obtain ⟨words, resolved, written⟩ := h.attributes key path text hp hd found
    exact ⟨words, resolved, by rw [Data.at?, grown.rest key hd]; exact written⟩
  · intro depends
    obtain ⟨ds, names, added, elements, size, cited, written⟩ := h.dependencies depends
    have step : block.step? (.key "depends_on") = some (.list (names.map Data.str ++ added)) := by
      simpa [Data.at?] using written
    obtain ⟨more, grown⟩ := grown.more _ step
    refine ⟨ds, names, added ++ more, elements, size, cited, ?_⟩
    rw [Data.at?, grown, List.append_assoc]
    rfl

theorem Cites.imp (imp : ∀ address, P address → Q address) (h : Cites P c block) :
    Cites Q c block := by
  refine ⟨?_, ?_⟩
  · intro key path text hp hd found
    obtain ⟨words, resolved, written⟩ := h.attributes key path text hp hd found
    exact ⟨words, resolved.imp fun _ _ => .imp imp, written⟩
  · intro depends
    obtain ⟨ds, names, added, elements, size, cited, written⟩ := h.dependencies depends
    exact ⟨ds, names, added, elements, size, fun a mem => (cited a mem).imp id (imp a), written⟩

theorem known_table {name address : String} (h : get? (table services) name = some address) :
    Known services address := by
  rw [get?_table, Option.map_eq_some_iff] at h
  obtain ⟨c, found, rfl⟩ := h
  obtain ⟨mem, given, -⟩ := lastNamed_eq_some found
  exact ⟨c, mem, given, rfl⟩

theorem known_record (providers : Assoc Data) (mem : c ∈ laidOut services)
    (known : ∀ name address, get? addresses name = some address → Known services address)
    (name address : String)
    (h : get? (record (claims providers) addresses c) name = some address) :
    Known services address := by
  unfold record at h
  split at h
  · next claimed =>
      rw [get?_set] at h
      split at h
      · cases h
        exact ⟨c, mem, typed_of_claims claimed, rfl⟩
      · exact known name address h
  · exact known name address h

theorem output_of_fold {s : Service} {outputs : Assoc Data} (mem : s ∈ services)
    (kept : ∀ key d, (key, d) ∈ outputs → ∃ s, ∃ c ∈ laidOut services, typed c = true ∧
      d = outputOf s c)
    {d : Data} (found : (key, d) ∈ s.infrastructure.foldl (withOutput s) outputs) :
    ∃ s, ∃ c ∈ laidOut services, typed c = true ∧ d = outputOf s c := by
  have all : ∀ c ∈ s.infrastructure, effective s c ∈ laidOut services := by
    intro c given
    exact List.mem_flatMap.mpr ⟨s, mem, List.mem_map_of_mem given⟩
  revert all
  generalize s.infrastructure = cs at found
  intro all
  induction cs generalizing outputs with
  | nil => exact kept key d found
  | cons c cs ih =>
    refine ih ?_ found fun e given => all e (List.mem_cons_of_mem _ given)
    intro key d found
    unfold withOutput at found
    split at found
    · next given =>
        rcases mem_of_mem_set found with old | new
        · exact kept key d old
        · cases new
          exact ⟨s, effective s c, all c List.mem_cons_self, given, rfl⟩
    · exact kept key d found

section Run

variable (run : Chain Move.run (plan services) { providers, addresses := table services } st)

include run

theorem cites_of_run {block : Data} (found : st.config.block? (.resource type name) = some block) :
    ∃ c ∈ laidOut services, slot? providers c = some (.resource type name) ∧
      Cites (Known services) c block := by
  obtain ⟨c, mem, addresses, made, known, emitted, grown⟩ := origin_of_run
    (Q := fun addresses => ∀ name address, get? addresses name = some address →
      Known services address)
    run (fun _ _ => known_table) (fun c mem _ known => known_record providers mem known) found
  exact ⟨c, mem, slot?_of_emission emitted, (cites_of_emission known emitted).grown grown⟩

theorem stands_of_run {c : Component} (mem : c ∈ laidOut services)
    (placed : slot? providers c = some (.resource type name)) :
    (st.config.block? (.resource type name)).isSome := by
  obtain ⟨before, later, split⟩ := List.append_of_mem (component_mem_plan.mpr mem)
  rw [split] at run
  obtain ⟨m, first, rest⟩ := Chain.append_iff.mp run
  obtain ⟨m', turned, last⟩ := Chain.cons_iff.mp rest
  obtain ⟨rfl, tidy⟩ := kept_of_run first .empty
  obtain ⟨emitted, made, rfl⟩ := turn_returns_iff.mp turned
  rw [slot?_of_emission made] at placed
  obtain ⟨⟨_, block⟩, rfl, rfl⟩ := Option.map_eq_some_iff.mp placed
  refine (run_induct last rfl (tidy.lay (some (.resource type name, block)))
    (P := fun st => (st.config.block? (.resource type name)).isSome) ?_ ?_ ?_ ?_).2
  · simp [State.after, lay, block?_put]
  · intro _ _ st st' idle stands
    rw [block?_congr idle.blocks]
    exact stands
  · intro d _ st emitted _ _ stands
    cases emitted with
    | none => exact stands
    | some e =>
      simp only [State.after, lay, block?_put]
      split
      · rfl
      · exact stands
  · intro info _ st st' deployed stands
    obtain ⟨old, found⟩ := Option.isSome_iff_exists.mp stands
    obtain ⟨new, found, -⟩ := deployed.after found
    exact Option.isSome_iff_exists.mpr ⟨new, found⟩

theorem outputs_of_run {d : Data} (found : (key, d) ∈ st.config.outputs) :
    ∃ s, ∃ c ∈ laidOut services, typed c = true ∧ d = outputOf s c := by
  refine (run_induct run rfl .empty (P := fun st => ∀ key d, (key, d) ∈ st.config.outputs →
    ∃ s, ∃ c ∈ laidOut services, typed c = true ∧ d = outputOf s c) ?_ ?_ ?_ ?_).2 key d found
  · intro key d found
    cases found
  · intro move mem st st' idle kept key d found
    rcases idle.outputs with same | ⟨s, rfl, same⟩
    · exact kept key d (same ▸ found)
    · rw [same] at found
      exact output_of_fold (outputs_mem_plan mem) kept found
  · intro c _ st emitted _ _ kept key d found
    rw [State.after, outputs_lay] at found
    exact kept key d found
  · intro info _ st st' deployed kept key d found
    obtain ⟨resources, rfl⟩ := deployed.rest
    exact kept key d found

end Run

/-- A written configuration cites addresses with a property only. -/
structure Addressed (P : String → Prop) (providers : Assoc Data) (services : List Service)
    (tree : Data) : Prop where
  outputs : ∀ name d, (name, d) ∈ tree.part "output" →
    ∃ address, P address ∧ d.at? [.key "value"] = some (.str (wrapped (address ++ ".id")))
  resources : ∀ type name block, tree.at? (Slot.path (.resource type name)) = some block →
    ∃ c ∈ laidOut services, slot? providers c = some (.resource type name) ∧ Cites P c block

theorem Addressed.imp (h : Addressed P providers services tree)
    (imp : ∀ address, P address → Q address) : Addressed Q providers services tree := by
  refine ⟨?_, ?_⟩
  · intro name d found
    obtain ⟨address, given, value⟩ := h.outputs name d found
    exact ⟨address, imp address given, value⟩
  · intro type name block found
    obtain ⟨c, mem, placed, cited⟩ := h.resources type name block found
    exact ⟨c, mem, placed, cited.imp imp⟩

theorem addressed_known (generated : Generates providers services tree) :
    Addressed (Known services) providers services tree := by
  obtain ⟨st, c, run, sections, blocks, outputs⟩ := generated.pass
  refine ⟨?_, ?_⟩
  · intro name d found
    obtain ⟨-, -, -, written⟩ := sections_eq_ok sections
    obtain ⟨output, source, made⟩ := exists_of_mem_mapValuesM written found
    rw [outputs] at source
    obtain ⟨s, d, mem, given, rfl⟩ := outputs_of_run run source
    cases made
    exact ⟨d.address, ⟨d, mem, given, rfl⟩, rfl⟩
  · intro type name block found
    rw [at?_path sections, block?_congr blocks] at found
    exact cites_of_run run found

theorem points_iff_backed (generated : Generates providers services tree) (address : String) :
    Points tree address ↔ Backed providers services address := by
  obtain ⟨st, c, run, sections, blocks, -⟩ := generated.pass
  constructor
  · rintro ⟨type, name, stands, same⟩
    obtain ⟨block, found⟩ := Option.isSome_iff_exists.mp stands
    rw [at?_path sections, block?_congr blocks] at found
    obtain ⟨d, mem, placed, -⟩ := cites_of_run run found
    exact ⟨d, mem, type, name, placed, same⟩
  · rintro ⟨d, mem, type, name, placed, same⟩
    refine ⟨type, name, ?_, same⟩
    rw [at?_path sections, block?_congr blocks]
    exact stands_of_run run mem placed

/-- Every address that is written is that of a component with a type, and a resource of that address
stands exactly if some component becomes it. -/
theorem generate_addresses_point_iff_backed (generated : Generates providers services tree) :
    Addressed (fun address => Known services address ∧
      (Points tree address ↔ Backed providers services address))
        providers services tree ∧
      ((∀ c ∈ laidOut services, typed c = true → Backed providers services c.address) →
        Addressed (Points tree) providers services tree) := by
  have known := addressed_known generated
  refine ⟨known.imp fun address given => ⟨given, points_iff_backed generated address⟩, ?_⟩
  intro backed
  refine known.imp ?_
  rintro address ⟨c, mem, given, rfl⟩
  exact (points_iff_backed generated _).mpr (backed c mem given)

namespace Sample

/-- A server that cites its network in an attribute and as a dependency. -/
def attached : List Service := [{ name := "web", infrastructure := [
  { name := "server", resourceType := .str "aws_instance"
    attributes := [("subnet_id", .str "$\x7binfrastructure.network.lan.id\x7d")]
    dependsOn := .texts ["infrastructure.network.lan"] },
  { name := "lan", resourceType := .str "aws_subnet" }] }]

def imageOnly : List Service := [{ name := "web", infrastructure := [
  { name := "image", resourceType := .str "aws_ami", dataSource := .bool true
    attributes := [("owners", .texts ["self"])] }] }]

theorem generates_attached : ∃ tree, Generates [] attached tree ∧
    tree.at? [.key "resource", .key "aws_instance", .key "server"] = some (.map [
      ("subnet_id", .str "$\x7baws_subnet.lan.id\x7d"),
      ("depends_on", .texts ["aws_subnet.lan"])]) := by
  refine ⟨.map [
    ("terraform", .map [("required_providers", .map [])]),
    ("resource", .map [
      ("aws_instance", .map [("server", .map [
        ("subnet_id", .str "$\x7baws_subnet.lan.id\x7d"),
        ("depends_on", .texts ["aws_subnet.lan"])])]),
      ("aws_subnet", .map [("lan", .map [])])]),
    ("output", .map [
      ("web_server_id", .map [
        ("value", .str "$\x7baws_instance.server.id\x7d"),
        ("description", .str "ID of server in service web")]),
      ("web_lan_id", .map [
        ("value", .str "$\x7baws_subnet.lan.id\x7d"),
        ("description", .str "ID of lan in service web")])])],
    ⟨_, rfl, rfl⟩, rfl⟩

end Sample

theorem generate_server_with_network_points : ∃ tree, Generates [] Sample.attached tree ∧
    tree.at? [.key "resource", .key "aws_instance", .key "server"] = some (.map [
      ("subnet_id", .str "$\x7baws_subnet.lan.id\x7d"), ("depends_on", .texts ["aws_subnet.lan"])]) ∧
    Addressed (Points tree) [] Sample.attached tree := by
  obtain ⟨tree, generated, server⟩ := Sample.generates_attached
  refine ⟨tree, generated, server, (generate_addresses_point_iff_backed generated).2 ?_⟩
  intro c mem _
  refine ⟨c, mem, ?_⟩
  simp only [laidOut, Sample.attached, List.flatMap_cons, List.map_cons, List.map_nil,
    List.flatMap_nil, List.append_nil, List.mem_cons, List.not_mem_nil, or_false] at mem
  rcases mem with rfl | rfl
  · exact ⟨"aws_instance", "server", rfl, rfl⟩
  · exact ⟨"aws_subnet", "lan", rfl, rfl⟩

/-- The output of a data source cites a resource that does not stand. -/
theorem generate_output_of_data_source_dangles : ∃ tree, Generates [] Sample.imageOnly tree ∧
    tree.at? [.key "output", .key "web_image_id", .key "value"] =
      some (.str "$\x7baws_ami.image.id\x7d") ∧
    ¬ Addressed (Points tree) [] Sample.imageOnly tree := by
  refine ⟨.map [
    ("terraform", .map [("required_providers", .map [])]),
    ("data", .map [("aws_ami", .map [("image", .map [("owners", .texts ["self"])])])]),
    ("output", .map [("web_image_id", .map [
      ("value", .str "$\x7baws_ami.image.id\x7d"),
      ("description", .str "ID of image in service web")])])],
    ⟨_, rfl, rfl⟩, rfl, ?_⟩
  intro addressed
  obtain ⟨address, ⟨type, name, stands, -⟩, -⟩ :=
    addressed.outputs "web_image_id" _ List.mem_cons_self
  cases stands

end Stratus.Terraform
