import Stratus.Proofs.Kubernetes.Manifest
import Stratus.Proofs.Service.Containers

/-!
Namespaces of containers. All documents of a container stand in its namespace, but one that makes a
namespace stands in none. A container read from a tree has none of its own, whatever its content
says.
-/
namespace Stratus

open Assoc hiding set

namespace Landscape

/-- A namespace in a content stays among the attributes. -/
theorem scope_container (e : Listing) : e.container.scope = .null := by
  unfold Listing.container
  split
  · rfl
  · simp only [Container.ofRecord, Data.field, getD, get?_filter]
    rfl

theorem container_of_contain {e : Listing} {c : Container} (h : contain e = .ok c) :
    c = e.container := by
  have map : e.content.isMap = true := by
    obtain ⟨kind, name, content⟩ := e
    cases content with
    | map entries => rfl
    | _ => cases h
  exact ((contain_eq_ok_iff map c).mp h).2

end Landscape

namespace Kubernetes

open Outcome
open Landscape (Listing contain containersListed contained_of_ofTree container_of_contain
  scope_container ofTree forall₂_comp)

variable {table : DefaultsTable} {docs : List Data}

/-- A container that makes a namespace and asks for nothing else. -/
structure Bare (c : Container) : Prop where
  kind : c.kind = .str "Namespace"
  service : c.service.holds = false
  autoscaler : c.autoScaling.holds = false
  budget : c.disruptionBudget.holds = false

theorem scope_resourcesOf {c : Container} (h : resourcesOf table c = .ok docs) :
    ∃ main rest, docs = main :: rest ∧ Main table c main ∧
      (∀ d ∈ rest, d.at? scopeField = some (scopeOf c)) ∧
      (rest = [] ↔ c.service.holds = false ∧ c.autoScaling.holds = false ∧
        c.disruptionBudget.holds = false) := by
  obtain ⟨m, rfl, main, service, autoscaler, budget⟩ := exists_parts h
  refine ⟨m.workload, m.service.toList ++ m.autoscaler.toList ++ m.budget.toList, ?_,
    main_primary table c _ main, ?_, ?_⟩
  · simp [Manifest.documents]
  · intro d mem
    simp only [List.mem_append, Option.mem_toList] at mem
    rcases mem with ((made | made) | made)
    · exact (placed_service c d (service.made d made)).1.scope
    · exact (placed_podAutoscaler c d (autoscaler.made d made)).1.scope
    · exact (placed_disruptionBudget c d (budget.made d made)).1.scope
  · rw [← service.asked, ← autoscaler.asked, ← budget.asked]
    simp

theorem scoped_iff (neutral : Neutral table) {c : Container} (h : resourcesOf table c = .ok docs)
    (ns : Data) :
    (∀ d ∈ docs, ∀ scope, d.at? scopeField = some scope → scope = ns) ↔ ns = scopeOf c ∨ Bare c := by
  obtain ⟨main, rest, rfl, own, others, alone⟩ := scope_resourcesOf h
  constructor
  · intro reaches
    by_cases kind : c.kind = .str "Namespace"
    · cases rest with
      | nil =>
        obtain ⟨service, autoscaler, budget⟩ := alone.mp rfl
        exact .inr ⟨kind, service, autoscaler, budget⟩
      | cons d _ =>
        exact .inl (reaches d (by simp) _ (others d List.mem_cons_self)).symm
    · exact .inl (reaches main List.mem_cons_self _ (own.placed kind neutral)).symm
  · rintro (rfl | bare) d mem scope found
    · rcases List.mem_cons.mp mem with rfl | mem
      · by_cases kind : c.kind = .str "Namespace"
        · cases (own.free kind).symm.trans found
        · exact (Option.some.inj ((own.placed kind neutral).symm.trans found)).symm
      · rw [others d mem] at found
        exact (Option.some.inj found).symm
    · obtain rfl := alone.mpr ⟨bare.service, bare.autoscaler, bare.budget⟩
      rw [List.mem_singleton.mp mem, own.free bare.kind] at found
      cases found

theorem exists_groups {services : List Service}
    (h : generate table services = .ok docs) : ∃ groups, docs = groups.flatten ∧
      List.Forall₂ (fun c group => resourcesOf table c = .ok group)
        (services.flatMap (·.containers)) groups := by
  obtain ⟨parts, same, made⟩ := exists_lists h
  rw [List.flatMap_def]
  exact ⟨parts.flatten, same, List.rel_flatten (List.forall₂_map_left_iff.mpr made)⟩

def Documents (table : DefaultsTable) (e : Listing) (docs : List Data) : Prop :=
  ∃ c, contain e = .ok c ∧ resourcesOf table c = .ok docs

theorem Documents.scoped_iff (neutral : Neutral table) {e : Listing} (h : Documents table e docs)
    (ns : String) :
    (∀ d ∈ docs, ∀ scope, d.at? scopeField = some scope → scope = .str ns) ↔
    ns = "default" ∨ Bare e.container := by
  obtain ⟨c, read, made⟩ := h
  obtain rfl := container_of_contain read
  have default : scopeOf e.container = .str "default" := by
    rw [scopeOf, scope_container]
    rfl
  rw [Kubernetes.scoped_iff neutral made, default, Data.str.injEq]

theorem documents_of_generate {tree : Data} {l : Landscape}
    (read : ofTree tree = .ok l) (made : generate table l.services = .ok docs) :
    ∃ groups, docs = groups.flatten ∧
      List.Forall₂ (Documents table) (containersListed tree) groups := by
  obtain ⟨groups, same, own⟩ := exists_groups made
  exact ⟨groups, same, forall₂_comp (contained_of_ofTree read) own⟩

/-- The documents of a tree come entry by entry. Those of an entry that names a namespace stand in
it, as far as they stand in any, just when it is the default one or the only document makes a
namespace. -/
theorem generate_namespace_iff_default {table : DefaultsTable} (neutral : Neutral table)
    {tree : Data} {l : Landscape}
    {docs : List Data} (read : ofTree tree = .ok l) (made : generate table l.services = .ok docs) :
    ∃ groups, docs = groups.flatten ∧
      List.Forall₂ (fun e group => Documents table e group ∧
        ∀ ns, e.content.at? [.key "namespace"] = some (.str ns) →
          ((∀ d ∈ group, ∀ scope, d.at? scopeField = some scope → scope = .str ns) ↔
            ns = "default" ∨ Bare e.container))
        (containersListed tree) groups := by
  obtain ⟨groups, same, own⟩ := documents_of_generate read made
  exact ⟨groups, same, own.imp fun e group documents =>
    ⟨documents, fun ns _ => documents.scoped_iff neutral ns⟩⟩

namespace Sample

/-- A rollout with a service that names the default namespace, a deployment that names another one,
and a container that makes a namespace. -/
def cluster : Data :=
  .map [("service", .list [.map [("shop", .map [("containers", .list [.map [("web", .list [
  .map [("front", .map [("image", .str "nginx"), ("type", .str "Rollout"),
    ("namespace", .str "default"),
    ("ports", .list [.map [("container_port", .int 80)]]),
    ("service", .map [("type", .str "NodePort")])])],
  .map [("api", .map [("image", .str "nginx"), ("namespace", .str "prod")])],
  .map [("room", .map [("image", .str "nginx"), ("type", .str "Namespace"),
    ("namespace", .str "prod")])]])]])])]])]

end Sample

theorem generate_namespaces_of_cluster : Neutral [] ∧ ∃ l docs, ofTree Sample.cluster = .ok l ∧
    generate [] l.services = .ok docs ∧
    docs.map (·.at? kindField) =
      ["Rollout", "Service", "Deployment", "Namespace"].map (some <| .str ·) ∧
    docs.map (·.at? scopeField) =
      [some (.str "default"), some (.str "default"), some (.str "default"), none] ∧
    ∃ groups, docs = groups.flatten ∧
      List.Forall₂ (fun e group => Documents [] e group ∧
        ∀ ns, e.content.at? [.key "namespace"] = some (.str ns) →
          ((∀ d ∈ group, ∀ scope, d.at? scopeField = some scope → scope = .str ns) ↔
            ns = "default" ∨ Bare e.container))
        (containersListed Sample.cluster) groups :=
  ⟨by simp [Neutral], _, _, rfl, rfl, rfl, rfl,
    @generate_namespace_iff_default [] (by simp [Neutral]) Sample.cluster _ _ rfl rfl⟩

namespace Sample

def production : Data := .map [("service", .list [.map [("shop", .map [("containers", .list [
  .map [("web",
    .list [.map [("api", .map [("image", .str "nginx"), ("namespace", .str "prod")])]])]])])]])]

end Sample

/-- A namespace that a content names and that its document is not in. -/
theorem namespace_lost : ∃ e l d, containersListed Sample.production = [e] ∧
    e.content.at? [.key "namespace"] = some (.str "prod") ∧
    ofTree Sample.production = .ok l ∧ generate [] l.services = .ok [d] ∧ Documents [] e [d] ∧
    d.at? scopeField = some (.str "default") :=
  ⟨_, _, _, rfl, rfl, rfl, rfl, ⟨_, rfl, rfl⟩, rfl⟩

end Kubernetes

end Stratus
