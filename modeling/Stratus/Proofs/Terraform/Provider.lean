import Stratus.Proofs.Terraform.Naming

/-!
Providers. A resource names its provider by the key under which the configuration has it, and the
type of every provider is required.
-/
namespace Stratus.Terraform

open Assoc hiding set

open Outcome

open Landscape (IsProvider AllProviders)

variable {providers : Assoc Data} {services : List Service} {tree : Data}

/-- The key of a provider in a configuration. -/
def providerKey (type label : String) : String := if type = label then type else type ++ "." ++ label

/-- There is a provider with a label, of a type. -/
def Provides (providers : Assoc Data) (label type : String) : Prop :=
  ∃ info, (label, info) ∈ providers ∧ info.at? [.key "type"] = some (.str type)

/-- Labels and types are texts without references. -/
def PlainProviders (providers : Assoc Data) : Prop := ∀ label info, (label, info) ∈ providers →
  Plain label ∧ ∃ type, info.at? [.key "type"] = some (.str type) ∧ Plain type

theorem plain_providerKey {type label : String} (ht : Plain type) (hl : Plain label) :
    Plain (providerKey type label) := by
  unfold providerKey
  split
  · exact ht
  · intro h
    have spelled : (type ++ "." ++ label).toList = type.toList ++ '.' :: label.toList := by
      simp [String.toList_append]
    rw [spelled] at h
    exact (Text.infix_of_separated (by decide) h).elim ht hl

section Known

variable {label type : String} {info : Data} (h : IsProvider label info)
  (typed : info.at? [.key "type"] = some (.str type))

include h typed

theorem providerName_eq : providerName info = .ok (.str (providerKey type label)) := by
  obtain ⟨type, version, config, rfl⟩ := h
  cases typed
  change Except.ok (if (Data.str label).same (.str type) then Data.str type
    else .str (type ++ "." ++ label)) = _
  unfold providerKey
  by_cases same : type = label
  · subst same
    simp [Data.same]
  · simp [Data.same, same, Ne.symm same]

theorem providerEntry_keys {e : (String × Data) × (String × Data)}
    (made : providerEntry label info = .ok e) :
    e.1.1 = type ∧ e.2.1 = providerKey type label := by
  obtain ⟨type, version, config, rfl⟩ := h
  cases typed
  obtain ⟨_, read, made⟩ := bind_eq_ok made
  cases read
  obtain ⟨_, -, made⟩ := bind_eq_ok made
  obtain ⟨_, -, made⟩ := bind_eq_ok made
  obtain ⟨_, -, made⟩ := bind_eq_ok made
  obtain ⟨_, -, made⟩ := bind_eq_ok made
  by_cases equal : type = label
  · have same : (Data.str type).same (.str label) = true := by simp [Data.same, equal]
    simp only [same, if_true] at made
    cases made
    exact ⟨rfl, (if_pos equal).symm⟩
  · have other : (Data.str type).same (.str label) = false := by simp [Data.same, equal]
    simp only [other, Bool.false_eq_true, if_false] at made
    obtain ⟨_, -, made⟩ := bind_eq_ok made
    cases made
    exact ⟨rfl, (if_neg equal).symm⟩

end Known

theorem Generates.provides (h : Generates providers services tree) : ∃ entries,
    providers.mapM (fun e => providerEntry e.1 e.2) = .ok entries ∧
      tree.part "provider" = ofPairs (entries.map Prod.snd) ∧
      tree.at? [.key "terraform", .key "required_providers"] =
        some (.map (ofPairs (entries.map Prod.fst))) := by
  obtain ⟨last, run, sections⟩ := h
  obtain ⟨st, chain, finished⟩ := generate_returns_iff.mp run
  obtain ⟨entries, vars, read, -, added, -⟩ := finish_returns_iff.mp finished
  obtain ⟨configured, required⟩ := Config.sections_providers sections
  have own := rest_of_addVars (f := Config.providers) added fun _ _ => rfl
  have needed := rest_of_addVars (f := Config.requiredProviders) added fun _ _ => rfl
  obtain ⟨same, -⟩ := kept_of_run chain .empty
  rw [same] at read
  refine ⟨entries, read, ?_, ?_⟩
  · rw [configured, own]
    rfl
  · rw [required, needed]
    rfl

/-- A configuration has a provider under a key, and requires the type of whichever it is. -/
structure Declared (providers : Assoc Data) (tree : Data) (key : String) : Prop where
  configured : ∃ config, tree.at? [.key "provider", .key key] = some config
  known : ∃ label type, Provides providers label type ∧ providerKey type label = key
  required : ∀ label type, Provides providers label type → providerKey type label = key →
    ∃ source, tree.at? [.key "terraform", .key "required_providers", .key type] = some source

theorem declared_of_provides (all : AllProviders providers)
    (generated : Generates providers services tree)
    {label type : String} (given : Provides providers label type) :
    Declared providers tree (providerKey type label) := by
  obtain ⟨entries, made, configured, required⟩ := generated.provides
  -- Both keys of a provider are in the configuration, whichever other provider shares them.
  have keys {label type : String} (given : Provides providers label type) :
      (∃ config, tree.at? [.key "provider", .key (providerKey type label)] = some config) ∧
        ∃ source, tree.at? [.key "terraform", .key "required_providers", .key type] =
          some source := by
    obtain ⟨info, mem, typed⟩ := given
    obtain ⟨e, inside, entry⟩ := exists_mem_of_mapM made mem
    obtain ⟨rfl, own⟩ := providerEntry_keys (all label info mem) typed entry
    obtain ⟨config, found⟩ := get?_ofPairs_of_mem (List.mem_map_of_mem (f := Prod.snd) inside)
    obtain ⟨source, needed⟩ := get?_ofPairs_of_mem (List.mem_map_of_mem (f := Prod.fst) inside)
    refine ⟨⟨config, ?_⟩, source, ?_⟩
    · rw [Data.at?_part, configured, ← own, found]
      rfl
    · have inside : (Data.map (ofPairs (entries.map Prod.fst))).step? (.key e.1.1) =
        some source := needed
      exact Data.at?_concat_eq_some_iff.mpr ⟨_, required, inside⟩
  exact ⟨(keys given).1, ⟨label, type, given, rfl⟩, fun label' type' given' _ => (keys given').2⟩

/-- A component without a provider that has an attribute of that name. -/
structure Brings (addresses : Addresses) (c : Component) (value : Data) : Prop where
  alone : c.provider.holds = false
  own : (get? c.attributes "provider").map (resolveAll addresses) = some value

theorem mem_of_providerInfo {label info : Data}
    (h : providerInfo providers label = .ok (some info)) :
    ∃ key, (key, info) ∈ providers := by
  obtain ⟨key, -, h⟩ := bind_eq_ok h
  obtain ⟨key, -, found⟩ := Option.bind_eq_some_iff.mp (Except.ok.inj h)
  exact ⟨key, mem_of_get? (Option.filter_eq_some_iff.mp found).1⟩

theorem provider_of_emission {addresses : Addresses} {c : Component} {type name : String}
    {block value : Data} (all : AllProviders providers) (plain : PlainProviders providers)
    (made : emission providers addresses c = .ok (some (.resource type name, block)))
    (found : block.step? (.key "provider") = some value) :
    (∃ label type, Provides providers label type ∧ value = .str (providerKey type label)) ∨
    Brings addresses c value := by
  obtain ⟨attributes, given, read⟩ := step?_of_emission made
  rw [read "provider" (by decide)] at found
  unfold provided at given
  cases labelled : c.provider.holds with
  | false =>
    rw [labelled] at given
    cases given
    exact .inr ⟨labelled, found⟩
  | true =>
    rw [labelled, if_pos rfl] at given
    obtain ⟨info, known, given⟩ := bind_eq_ok given
    cases info with
    | none => cases given
    | some info =>
      obtain ⟨label, mem⟩ := mem_of_providerInfo known
      obtain ⟨clear, type, typed, clearType⟩ := plain label info mem
      obtain ⟨named, spelled, given⟩ := bind_eq_ok given
      rw [providerName_eq (all label info mem) typed] at spelled
      cases spelled
      cases given
      rw [set, get?_set, if_pos rfl, Option.map_some, resolveAll_str,
        resolveText_of_plain (plain_providerKey clearType clear)] at found
      cases found
      exact .inl ⟨label, type, ⟨info, mem, typed⟩, rfl⟩

/-- A provider that a resource names is a given one, or a component without a provider brings the
name. -/
theorem provider_of_resource (all : AllProviders providers) (plain : PlainProviders providers)
    (generated : Generates providers services tree) {type name : String} {value : Data}
    (found : tree.at? [.key "resource", .key type, .key name, .key "provider"] = some value) :
    (∃ label type, Provides providers label type ∧ value = .str (providerKey type label)) ∨
      ∃ c ∈ laidOut services, slot? providers c = some (.resource type name) ∧
        ∃ addresses, Brings addresses c value := by
  obtain ⟨st, config, run, sections, blocks, -⟩ := generated.pass
  obtain ⟨block, stands, inside⟩ := Data.at?_concat_eq_some_iff.mp
    (show tree.at? (Slot.path (.resource type name) ++ [.key "provider"]) = some value from found)
  rw [Config.at?_path sections, Config.block?_congr blocks] at stands
  obtain ⟨c, mem, addresses, made, -, emitted, grown⟩ :=
    origin_of_run run (Q := fun _ => True) trivial (fun _ _ _ _ => trivial) stands
  have own : made.step? (.key "provider") = some value := by
    rw [← grown.rest "provider" (by decide), inside]
  rcases provider_of_emission all plain emitted own with known | brings
  · exact .inl known
  · exact .inr ⟨c, mem, slot?_of_emission emitted, addresses, brings⟩

/-- Every provider that a resource names is declared, unless a component without one brings the name
as an attribute; none that is read from a tree does. -/
theorem generate_provider_references_declared {source : Data} {l : Landscape}
    (read : Landscape.ofTree source = .ok l)
    (plain : PlainProviders l.providers) (generated : Generates l.providers services tree)
    {type name : String}
    {value : Data} (found : tree.at? [.key "resource", .key type, .key name, .key "provider"] =
      some value) :
    ((∃ key, value = .str key ∧ Declared l.providers tree key) ∨ ∃ c ∈ laidOut services,
        slot? l.providers c = some (.resource type name) ∧ ∃ addresses, Brings addresses c value) ∧
      ∀ source' l', Landscape.ofTree source' = .ok l' → source'.distinct = true →
        services = l'.services →
        ∃ key, value = .str key ∧ Declared l.providers tree key := by
  have all := Landscape.allProviders_of_ofTree read
  rcases provider_of_resource all plain generated found with
    ⟨label, type, given, rfl⟩ | ⟨c, mem, placed, brought⟩
  · have declared := declared_of_provides all generated given
    exact ⟨.inl ⟨_, rfl, declared⟩, fun _ _ _ _ _ => ⟨_, rfl, declared⟩⟩
  · refine ⟨.inr ⟨c, mem, placed, brought⟩, ?_⟩
    rintro source' l' read' distinct rfl
    obtain ⟨entries, nodup, reads⟩ := reads_of_mem read' distinct mem
    obtain ⟨addresses, brings⟩ := brought
    have own := brings.own
    rw [reads.dropped nodup (by decide)] at own
    cases own

namespace Sample

def regions : Data := .map [
  ("providers", .list [.map [
    ("aws", .map [("region", .str "us-east-1")]),
    ("west", .map [("provider", .str "aws"), ("region", .str "us-west-2")])]]),
  ("service", .list [.map [("web", .map [("infrastructure", .list [.map [("compute", .list [.map [
    ("server", .map [("resource_type", .str "aws_instance"), ("provider", .str "west")])]])]])])]])]

def bare : Data := .map [("service", .list [.map [("web", .map [])]])]

/-- A component that has a provider among its attributes only. -/
def stray : List Service := [{
  name := "web"
  infrastructure := [
    { name := "a", kind := .str "compute", resourceType := .str "t",
      attributes := [("provider", .str "mars")] }] }]

end Sample

theorem generate_provider_of_second_region : ∃ l tree, Landscape.ofTree Sample.regions = .ok l ∧
    PlainProviders l.providers ∧ Generates l.providers l.services tree ∧
    tree.at? [.key "resource", .key "aws_instance", .key "server", .key "provider"] =
      some (.str "aws.west") ∧
    Declared l.providers tree "aws.west" := by
  have run : ∃ l tree, Landscape.ofTree Sample.regions = .ok l ∧ PlainProviders l.providers ∧
      Generates l.providers l.services tree ∧
      tree.at? [.key "resource", .key "aws_instance", .key "server", .key "provider"] =
        some (.str "aws.west") := by
    refine ⟨_, .map [
      ("terraform", .map [("required_providers",
        .map [("aws", .map [("source", .str "hashicorp/aws")])])]),
      ("provider", .map [
        ("aws", .map [("region", .str "us-east-1")]),
        ("aws.west", .map [("region", .str "us-west-2"), ("alias", .str "west")])]),
      ("resource", .map [("aws_instance", .map [("server", .map [("provider", .str "aws.west")])])]),
      ("output", .map [("web_server_id", .map [
        ("value", .str "$\x7baws_instance.server.id\x7d"),
        ("description", .str "ID of server in service web")])])],
      rfl, ?_, ⟨_, rfl, rfl⟩, rfl⟩
    have plain : Plain "aws" ∧ Plain "west" := by decide
    intro label info mem
    rcases List.mem_cons.mp mem with first | second
    · cases first
      exact ⟨plain.1, "aws", rfl, plain.1⟩
    · cases List.mem_singleton.mp second
      exact ⟨plain.2, "aws", rfl, plain.1⟩
  obtain ⟨l, tree, read, plain, generated, found⟩ := run
  obtain ⟨key, same, declared⟩ :=
    (generate_provider_references_declared read plain generated found).2 _ l read (by decide) rfl
  cases same
  exact ⟨l, tree, read, plain, generated, found, declared⟩

/-- A provider that no one has declared. -/
theorem generate_stray_provider :
    ∃ l tree, Landscape.ofTree Sample.bare = .ok l ∧ PlainProviders l.providers ∧
    Generates l.providers Sample.stray tree ∧
    tree.at? [.key "resource", .key "t", .key "a", .key "provider"] = some (.str "mars") ∧
    ¬ Declared l.providers tree "mars" := by
  refine ⟨_, .map [
    ("terraform", .map [("required_providers", .map [])]),
    ("resource", .map [("t", .map [("a", .map [("provider", .str "mars")])])]),
    ("output", .map [("web_a_id", .map [
      ("value", .str "$\x7bt.a.id\x7d"), ("description", .str "ID of a in service web")])])],
    rfl, ?_, ⟨_, rfl, rfl⟩, rfl, ?_⟩
  · intro label info mem
    cases mem
  · rintro ⟨⟨config, found⟩, -, -⟩
    cases found

end Stratus.Terraform
