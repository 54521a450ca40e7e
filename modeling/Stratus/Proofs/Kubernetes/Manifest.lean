import Stratus.Kubernetes.Generator
import Stratus.Proofs.Data.Parts

/-!
The documents of containers: a workload and, as far as they are asked for, a service, an autoscaler
and a disruption budget. Where the workload runs pods under labels, all of them find these pods.
-/
namespace Stratus.Kubernetes

open Assoc hiding set

open Data (Step)
open Outcome

variable {table : DefaultsTable} {d : Data} {c : Container}

structure Manifest where
  workload : Data
  service : Option Data := none
  autoscaler : Option Data := none
  budget : Option Data := none

def Manifest.documents (m : Manifest) : List Data :=
  m.workload :: m.service.toList ++ m.autoscaler.toList ++ m.budget.toList

def kindField : List Step := [.key "kind"]

def nameField : List Step := [.key "metadata", .key "name"]

def scopeField : List Step := [.key "metadata", .key "namespace"]

/-- The labels that a workload or a budget selects pods by. -/
def selectedLabels : List Step := [.key "spec", .key "selector", .key "matchLabels"]

def podLabels : List Step := [.key "spec", .key "template", .key "metadata", .key "labels"]

def routedLabels : List Step := [.key "spec", .key "selector"]

def targetKind : List Step := [.key "spec", .key "scaleTargetRef", .key "kind"]

def targetName : List Step := [.key "spec", .key "scaleTargetRef", .key "name"]

def podKinds : List String := ["Deployment", "StatefulSet", "DaemonSet"]

/-- A manifest has the documents that a container asks for, each of its kind. -/
structure Manifest.Complete (c : Container) (m : Manifest) : Prop where
  workload : m.workload.at? kindField = some c.kind
  service : m.service.isSome = c.service.holds
  autoscaler : m.autoscaler.isSome = c.autoScaling.holds
  budget : m.budget.isSome = c.disruptionBudget.holds
  service_kind : ∀ d ∈ m.service, d.at? kindField = some (.str "Service")
  autoscaler_kind : ∀ d ∈ m.autoscaler, d.at? kindField = some (.str "HorizontalPodAutoscaler")
  budget_kind : ∀ d ∈ m.budget, d.at? kindField = some (.str "PodDisruptionBudget")

/-- The documents of a manifest select the pods of its workload, scale that workload and share a
namespace. -/
structure Manifest.Linked (c : Container) (m : Manifest) : Prop where
  selected : m.workload.at? selectedLabels = some (appLabel (dashed c.name))
  labelled : m.workload.at? podLabels = m.workload.at? selectedLabels
  routed : ∀ d ∈ m.service, d.at? routedLabels = m.workload.at? selectedLabels
  protects : ∀ d ∈ m.budget, c.disruptionBudget.at? [.key "selector"] = none →
    d.at? selectedLabels = m.workload.at? selectedLabels
  kind_scaled : ∀ d ∈ m.autoscaler, d.at? targetKind = m.workload.at? kindField
  name_scaled : ∀ d ∈ m.autoscaler, d.at? targetName = m.workload.at? nameField
  scope : ∀ d ∈ m.documents, d.at? scopeField = some (scopeOf c)

theorem asKey?_eq_some_iff {key : String} : d.asKey? = .ok (some key) ↔ d = .str key := by
  cases d <;> simp [Data.asKey?, Data.hashable]

section Forms

structure Placed (c : Container) (kind : String) (d : Data) : Prop where
  kind : d.at? kindField = some (.str kind)
  scope : d.at? scopeField = some (scopeOf c)

/-- A workload that selects its pods by the label of its name. -/
structure SelectsPods (c : Container) (kind : String) (d : Data) : Prop extends Placed c kind d where
  name : d.at? nameField = some (.str (dashed c.name))
  selected : d.at? selectedLabels = some (appLabel (dashed c.name))
  labelled : d.at? podLabels = some (appLabel (dashed c.name))

theorem deployment_selects (c : Container) : Yields (SelectsPods c "Deployment") (deployment c) :=
  .bind fun _ _ => .ok ⟨⟨rfl, rfl⟩, rfl, rfl, rfl⟩

theorem statefulSet_selects (c : Container) : Yields (SelectsPods c "StatefulSet") (statefulSet c) :=
  .bind fun _ _ => .ok ⟨⟨rfl, rfl⟩, rfl, rfl, rfl⟩

theorem daemonSet_selects (c : Container) : Yields (SelectsPods c "DaemonSet") (daemonSet c) :=
  .bind fun _ _ => .ok ⟨⟨rfl, rfl⟩, rfl, rfl, rfl⟩

theorem placed_cronJob (c : Container) : Yields (Placed c "CronJob") (cronJob c) :=
  .bind fun _ _ => .ok ⟨rfl, rfl⟩

theorem placed_job (c : Container) : Yields (Placed c "Job") (job c) :=
  .bind fun _ _ => .ok ⟨rfl, rfl⟩

theorem placed_service (c : Container) : Yields (fun d => Placed c "Service" d ∧
    (c.service.holds = true → d.at? routedLabels = some (appLabel (dashed c.name)))) (service c) := by
  unfold service
  cases holds : c.service.holds with
  | false => exact .ok ⟨⟨rfl, rfl⟩, by simp⟩
  | true =>
    refine .bind fun config _ => .bind fun annotated _ => .ite (fun _ => ?_) (fun _ => ?_)
    · refine .bind fun _ _ => .bind fun annotations _ => .ite (fun _ => ?_) (fun _ => ?_)
      · exact .bind fun _ _ => .bind fun ports _ => .bind fun type _ => .ok ⟨⟨rfl, rfl⟩, fun _ => rfl⟩
      · exact .bind fun ports _ => .bind fun type _ => .ok ⟨⟨rfl, rfl⟩, fun _ => rfl⟩
    · refine .bind fun annotations _ => .ite (fun _ => ?_) (fun _ => ?_)
      · exact .bind fun _ _ => .bind fun ports _ => .bind fun type _ => .ok ⟨⟨rfl, rfl⟩, fun _ => rfl⟩
      · exact .bind fun ports _ => .bind fun type _ => .ok ⟨⟨rfl, rfl⟩, fun _ => rfl⟩

theorem placed_podAutoscaler (c : Container) : Yields (fun d => Placed c "HorizontalPodAutoscaler" d ∧
    d.at? targetKind = some c.kind ∧ d.at? targetName = some (.str (dashed c.name)))
      (podAutoscaler c) :=
  .bind fun _ _ => .bind fun _ _ => .bind fun _ _ => .bind fun _ _ => .ok ⟨⟨rfl, rfl⟩, rfl, rfl⟩

theorem spread_eq_ok_iff {entries : Assoc Data} : spread d = .ok entries ↔ d = .map entries := by
  cases d <;> simp [spread]

theorem placed_disruptionBudget (c : Container) : Yields (fun d => Placed c "PodDisruptionBudget" d ∧
    (c.disruptionBudget.at? [.key "selector"] = none →
      d.at? selectedLabels = some (appLabel (dashed c.name))))
    (disruptionBudget c) := by
  refine .bind fun budget given => .ok ⟨⟨rfl, rfl⟩, fun own => ?_⟩
  rw [spread_eq_ok_iff.mp given] at own
  have free : get? budget "selector" = none := by
    simpa [Data.at?, Data.step?] using own
  have kept : get? (update [("selector", selector (dashed c.name))] budget) "selector" =
      some (selector (dashed c.name)) := by
    rw [get?_update_of_notMem _ (get?_eq_none_iff.mp free)]
    rfl
  change ((get? (update _ budget) "selector").bind fun d => d.at? [.key "matchLabels"]) = _
  rw [kept]
  rfl

end Forms

theorem kind_dynamicResource (table : DefaultsTable) (kind d : Data) :
    Yields (fun d => d.at? kindField = some kind) (dynamicResource table kind d) :=
  .bind fun _ _ => .bind fun _ _ => .bind fun _ _ => .bind fun _ _ => .bind fun _ _ =>
    .bind fun _ _ =>
    .bind fun _ _ => .ok rfl

theorem kind_otherKind (table : DefaultsTable) (c : Container) :
    Yields (fun d => d.at? kindField = some c.kind) (otherKind table c) :=
  .bind fun _ _ => .bind fun _ _ => kind_dynamicResource table c.kind _

/-- Registered defaults that leave the namespace to the resource. -/
def Neutral (table : DefaultsTable) : Prop := ∀ e ∈ table, e.2.metadata.at? [.key "namespace"] = none

theorem holds_scopeOf (c : Container) : (scopeOf c).holds = true := by
  unfold scopeOf
  split
  · assumption
  · rfl

theorem Neutral.unscoped (neutral : Neutral table) (key : Option String) {metadata : Assoc Data}
    (registered : ((key.bind (get? table)).getD {}).metadata = .map metadata) :
    "namespace" ∉ keys metadata := by
  rw [← get?_eq_none_iff]
  cases found : key.bind (get? table) with
  | none =>
    rw [found] at registered
    cases registered
    rfl
  | some defaults =>
    obtain ⟨name, -, listed⟩ := Option.bind_eq_some_iff.mp found
    have free := neutral _ (mem_of_get? listed)
    rw [found] at registered
    simpa [show defaults.metadata = .map metadata from registered, Data.at?, Data.step?] using free

theorem scope_dynamicResource (neutral : Neutral table) (kind : Data) {d scope : Data}
    (given : d.get "namespace" = .ok scope) (holds : scope.holds = true) :
    Yields (fun r => r.at? scopeField = some scope) (dynamicResource table kind d) := by
  refine .bind fun key _ => .bind fun name _ => .bind fun text _ => .bind fun own read => ?_
  rw [given] at read
  cases read
  refine .bind fun metadata registered => .bind fun base _ => .bind fun fields _ => .ok ?_
  have free := neutral.unscoped key (spread_eq_ok_iff.mp registered)
  change ((get? (update _ metadata) "namespace").bind fun d => d.at? []) = _
  rw [get?_update_of_notMem _ free, if_pos holds]
  rfl

theorem scope_otherKind (neutral : Neutral table) (c : Container) :
    Yields (fun d => d.at? scopeField = some (scopeOf c)) (otherKind table c) :=
  .bind fun _ _ => .bind fun _ _ => scope_dynamicResource neutral c.kind rfl (holds_scopeOf c)

/-- The main document of a container is of its kind and stands in its namespace, unless it makes one
itself. -/
structure Main (table : DefaultsTable) (c : Container) (d : Data) : Prop where
  kind : d.at? kindField = some c.kind
  free : c.kind = .str "Namespace" → d.at? scopeField = none
  placed : c.kind ≠ .str "Namespace" → Neutral table → d.at? scopeField = some (scopeOf c)

theorem Main.of_placed {kind : String} (same : c.kind = .str kind) (other : c.kind ≠ .str "Namespace")
    (h : Placed c kind d) : Main table c d where
  kind := by rw [h.kind, same]
  free makes := absurd makes other
  placed _ _ := h.scope

theorem main_primary (table : DefaultsTable) (c : Container) :
    Yields (Main table c) (primary table c) := by
  refine .bind fun key read => ?_
  by_cases makes : c.kind = .str "Namespace"
  · rw [asKey?_eq_some_iff.mpr makes] at read
    cases read
    exact .ok ⟨by rw [makes]; rfl, fun _ => rfl, fun other => absurd makes other⟩
  -- one case for each kind with a form of its own; forms that need more than a container fail
  split
  all_goals try have placed {d : Data} :=
    @Main.of_placed table d c _ (asKey?_eq_some_iff.mp read) makes
  · exact (deployment_selects c).imp fun d h => placed h.toPlaced
  · exact (statefulSet_selects c).imp fun d h => placed h.toPlaced
  · exact (placed_cronJob c).imp fun d => placed
  · exact (daemonSet_selects c).imp fun d h => placed h.toPlaced
  · exact (placed_job c).imp fun d => placed
  · exact (placed_service c).imp fun d h => placed h.1
  · exact .ok (placed ⟨rfl, rfl⟩)
  · exact .error _
  · exact (placed_podAutoscaler c).imp fun d h => placed h.1
  · exact .ok (placed ⟨rfl, rfl⟩)
  · exact (placed_disruptionBudget c).imp fun d h => placed h.1
  · exact .ok (placed ⟨rfl, rfl⟩)
  · exact .error _
  · exact .ok (placed ⟨rfl, rfl⟩)
  · exact absurd (asKey?_eq_some_iff.mp read) makes
  · intro d made
    exact ⟨kind_otherKind table c d made, fun same => absurd same makes, fun _ neutral =>
      scope_otherKind neutral c d made⟩

theorem primary_selects {kind : String} (pods : kind ∈ podKinds)
    (same : c.kind = .str kind) : Yields (SelectsPods c kind) (primary table c) := by
  simp only [podKinds, List.mem_cons, List.not_mem_nil, or_false] at pods
  unfold primary
  rw [same]
  rcases pods with rfl | rfl | rfl
  · exact deployment_selects c
  · exact statefulSet_selects c
  · exact daemonSet_selects c

def askedBy (d : Data) (x : Outcome Data) : Outcome (Option Data) :=
  if d.holds then some <$> x else .ok none

structure Asked (d : Data) (x : Outcome Data) (made : Option Data) : Prop where
  asked : made.isSome = d.holds
  made : ∀ doc ∈ made, x = .ok doc

theorem asked_of_askedBy {x : Outcome Data} {made : Option Data} (h : askedBy d x = .ok made) :
    Asked d x made := by
  unfold askedBy at h
  cases asks : d.holds with
  | false =>
    simp only [asks, Bool.false_eq_true, if_false] at h
    cases h
    exact ⟨by simp [asks], by simp⟩
  | true =>
    simp only [asks, if_true] at h
    obtain ⟨doc, run, rfl⟩ := map_eq_ok h
    exact ⟨by simp [asks], by simp [run]⟩

theorem resourcesOf_eq (table : DefaultsTable) (c : Container) : resourcesOf table c = do
    let workload ← primary table c
    let service ← askedBy c.service (service c)
    let autoscaler ← askedBy c.autoScaling (podAutoscaler c)
    let budget ← askedBy c.disruptionBudget (disruptionBudget c)
    return Manifest.documents { workload, service, autoscaler, budget } := by
  unfold resourcesOf askedBy
  cases c.service.holds <;> cases c.autoScaling.holds <;> cases c.disruptionBudget.holds <;>
    simp only [if_true, Bool.false_eq_true, if_false, bind_map_left] <;> rfl

/-- What a container stands for in the documents. -/
structure Manifest.Of (c : Container) (m : Manifest) : Prop where
  complete : m.Complete c
  linked : ∀ kind ∈ podKinds, c.kind = .str kind → m.Linked c

theorem exists_parts {docs : List Data} (h : resourcesOf table c = .ok docs) : ∃ m : Manifest,
    docs = m.documents ∧ primary table c = .ok m.workload ∧ Asked c.service (service c) m.service ∧
      Asked c.autoScaling (podAutoscaler c) m.autoscaler ∧
        Asked c.disruptionBudget (disruptionBudget c) m.budget := by
  rw [resourcesOf_eq] at h
  obtain ⟨workload, main, h⟩ := bind_eq_ok h
  obtain ⟨service, routing, h⟩ := bind_eq_ok h
  obtain ⟨autoscaler, scaling, h⟩ := bind_eq_ok h
  obtain ⟨budget, protection, h⟩ := bind_eq_ok h
  cases h
  exact ⟨_, rfl, main, asked_of_askedBy routing, asked_of_askedBy scaling,
    asked_of_askedBy protection⟩

theorem exists_manifest {docs : List Data}
    (h : resourcesOf table c = .ok docs) : ∃ m : Manifest, docs = m.documents ∧ m.Of c := by
  obtain ⟨m, rfl, main, service, autoscaler, budget⟩ := exists_parts h
  have routes (d : Data) (made : d ∈ m.service) := placed_service c d (service.made d made)
  have scales (d : Data) (made : d ∈ m.autoscaler) :=
    placed_podAutoscaler c d (autoscaler.made d made)
  have protects (d : Data) (made : d ∈ m.budget) := placed_disruptionBudget c d (budget.made d made)
  refine ⟨m, rfl, ?_, ?_⟩
  · exact {
      workload := (main_primary table c _ main).kind
      service := service.asked
      autoscaler := autoscaler.asked
      budget := budget.asked
      service_kind := fun d made => (routes d made).1.kind
      autoscaler_kind := fun d made => (scales d made).1.kind
      budget_kind := fun d made => (protects d made).1.kind }
  · intro kind pods same
    have runs : SelectsPods c kind m.workload := primary_selects pods same _ main
    exact {
      selected := runs.selected
      labelled := runs.labelled.trans runs.selected.symm
      routed := by
        intro d made
        have asks : c.service.holds = true := by
          rw [← service.asked]
          exact Option.isSome_of_mem made
        exact ((routes d made).2 asks).trans runs.selected.symm
      protects := fun d made own => ((protects d made).2 own).trans runs.selected.symm
      kind_scaled := fun d made => by rw [(scales d made).2.1, runs.kind, same]
      name_scaled := fun d made => (scales d made).2.2.trans runs.name.symm
      scope := by
        intro d mem
        simp only [Manifest.documents, List.mem_append, List.mem_cons, Option.mem_toList] at mem
        rcases mem with (((rfl | made) | made) | made)
        · exact runs.scope
        · exact (routes d made).1.scope
        · exact (scales d made).1.scope
        · exact (protects d made).1.scope }

theorem exists_manifests {containers : List Container} {lists : List (List Data)}
    (h : List.Forall₂ (fun c docs => resourcesOf table c = .ok docs) containers lists) :
    ∃ ms : List Manifest, List.Forall₂ Manifest.Of containers ms ∧
      lists.flatten = ms.flatMap Manifest.documents := by
  induction h with
  | nil => exact ⟨[], .nil, rfl⟩
  | cons first _ ih =>
    obtain ⟨m, rfl, own⟩ := exists_manifest first
    obtain ⟨ms, rest, same⟩ := ih
    exact ⟨m :: ms, .cons own rest, by rw [List.flatten_cons, same, List.flatMap_cons]⟩

theorem exists_lists {services : List Service} {docs : List Data}
    (h : generate table services = .ok docs) :
    ∃ parts : List (List (List Data)), docs = parts.flatten.flatten ∧
      List.Forall₂ (fun s lists =>
        List.Forall₂ (fun c docs => resourcesOf table c = .ok docs) s.containers lists)
        services parts := by
  obtain ⟨lists, made, last⟩ := bind_eq_ok h
  cases last
  replace made := mapM_eq_ok_iff.mp made
  clear h
  induction made with
  | nil => exact ⟨[], rfl, .nil⟩
  | cons first _ ih =>
    obtain ⟨inner, run, last⟩ := bind_eq_ok first
    cases last
    obtain ⟨parts, same, rest⟩ := ih
    refine ⟨inner :: parts, ?_, .cons (mapM_eq_ok_iff.mp run) rest⟩
    rw [List.flatten_cons, same, List.flatten_cons, List.flatten_append]

/-- The documents are, service by service and container by container, those of one manifest each. -/
theorem generate_lists_manifests {table : DefaultsTable} {services : List Service} {docs : List Data}
    (h : generate table services = .ok docs) :
    ∃ parts : List (List Manifest),
      List.Forall₂ (fun s ms => List.Forall₂ Manifest.Of s.containers ms) services parts ∧
        docs = parts.flatten.flatMap Manifest.documents := by
  obtain ⟨lists, rfl, made⟩ := exists_lists h
  clear h
  induction made with
  | nil => exact ⟨[], .nil, rfl⟩
  | cons first _ ih =>
    obtain ⟨parts, manifests, rest⟩ := ih
    obtain ⟨ms, own, same⟩ := exists_manifests first
    refine ⟨ms :: parts, .cons own manifests, ?_⟩
    rw [List.flatten_cons, List.flatten_append, rest, same, List.flatten_cons, List.flatMap_append]

namespace Sample

/-- A stateful set with all further documents, and a job and a namespace without any of them. -/
def shop : Service := { name := "shop", containers := [
  { name := "web_app", kind := .str "StatefulSet", scope := .str "prod"
    service := .list [.map [("type", .str "NodePort")]], autoScaling :=
      .map [("min_replicas", .int 2)]
    disruptionBudget := .map [("minAvailable", .int 1)] },
  { name := "nightly", kind := .str "Job" }, { name := "room", kind := .str "Namespace" }] }

end Sample

theorem generate_lists_manifests_shop : ∃ docs, generate [] [Sample.shop] = .ok docs ∧
    docs.map (·.at? kindField) =
      ["StatefulSet", "Service", "HorizontalPodAutoscaler", "PodDisruptionBudget", "Job",
      "Namespace"].map (some <| .str ·) ∧
    ∃ parts : List (List Manifest),
      List.Forall₂ (fun s ms => List.Forall₂ Manifest.Of s.containers ms) [Sample.shop] parts ∧
        docs = parts.flatten.flatMap Manifest.documents :=
  ⟨_, rfl, rfl, @generate_lists_manifests [] [Sample.shop] _ rfl⟩

end Stratus.Kubernetes
