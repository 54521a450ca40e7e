import Stratus.Deploy.KeyPair
import Stratus.Deploy.Network
import Stratus.Proofs.Assoc

/-!
Configurations that list resources by type and name. A step on such a configuration is a function on
its resources.
-/
namespace Stratus

open Assoc hiding set

namespace Network

abbrev data (rs : Resources) : Data := table (table .map) rs

/-- The resources of a configuration, none if it has no section for them. -/
def Lists (entries : Assoc Data) (rs : Resources) : Prop :=
  getD entries "resource" (.map []) = data rs

section Table

variable {α : Type} {shape : α → Data} {m : Assoc α} {key : String}

theorem has_table : (table shape m).has key = .ok (contains m key) := by
  simp [table, Data.has, contains, get?_mapValues]

theorem item_table {value : α} (h : get? m key = some value) :
    (table shape m).item key = .ok (shape value) := by
  simp [table, Data.item, get?_mapValues, h]

theorem mapValues_set {β : Type} (f : α → β) (value : α) :
    mapValues f (Assoc.set m key value) = Assoc.set (mapValues f m) key (f value) := by
  induction m with
  | nil => rfl
  | cons e rest ih =>
    by_cases h : e.1 = key
    · simp [Assoc.set, mapValues, h]
    · simpa [Assoc.set, mapValues, h] using ih

theorem put_table (shape : α → Data) {value : α} :
    (table shape m).put key (shape value) = .ok (table shape (Assoc.set m key value)) := by
  rw [table, Data.put, table, mapValues_set]

theorem mapValuesM_table {f : Data → Outcome Data} {change : α → α}
    (step : ∀ a, f (shape a) = .ok (shape (change a)))
    (m : Assoc α) : mapValuesM f (mapValues shape m) =
    .ok (mapValues shape (mapValues change m)) := by
  refine Outcome.mapM_eq_ok_iff.mpr ?_
  simp only [mapValues, List.map_map, List.forall₂_map_left_iff, List.forall₂_map_right_iff,
    List.forall₂_same]
  intro e _
  simp only [Function.comp_apply, step]
  rfl

end Table

def configured (rs : Resources) : Assoc Data := [("resource", data rs)]

variable {entries : Assoc Data} {rs : Resources}

theorem lists_set (entries : Assoc Data) (rs : Resources) :
    Lists (Assoc.set entries "resource" (data rs)) rs := by
  simp [Lists, getD, get?_set]

theorem get?_of_lists (listed : Lists entries rs) (present : contains entries "resource" = true) :
    get? entries "resource" = some (data rs) := by
  obtain ⟨section?, found⟩ := Option.isSome_iff_exists.mp present
  simpa [Lists, getD, found] using listed

theorem eq_nil_of_lists (listed : Lists entries rs) (absent : contains entries "resource" = false) :
    rs = [] := by
  have none : get? entries "resource" = none := by simpa [contains] using absent
  simpa [Lists, getD, none, table, mapValues] using listed.symm

end Network

namespace KeyPair

open Network

variable {entries : Assoc Data} {rs : Resources}

def adjusted (type : String) (change : Assoc Data → Assoc Data) (rs : Resources) : Resources :=
  rs.map fun e => (e.1, if e.1 = type then mapValues change e.2 else e.2)

theorem get?_adjusted (type : String) (change : Assoc Data → Assoc Data) (rs : Resources)
    (t : String) :
    get? (adjusted type change rs) t = (get? rs t).map fun named =>
      if t = type then mapValues change named else named := by
  induction rs with
  | nil => rfl
  | cons e rest ih =>
    by_cases h : e.1 = t
    · simp [adjusted, get?, h]
    · simpa [adjusted, get?, h] using ih

theorem mapInstances_eq (type : String) (f : Data → Outcome Data) (change : Assoc Data → Assoc Data)
    (step : ∀ attributes, f (.map attributes) = .ok (.map (change attributes)))
    (listed : Lists entries rs) :
    ∃ entries', mapInstances type f (.map entries) = .ok (.map entries') ∧
      Lists entries' (adjusted type change rs) ∧
      ∀ key ≠ "resource", get? entries' key = get? entries key := by
  unfold mapInstances
  cases present : contains entries "resource" with
  | false =>
    obtain rfl := eq_nil_of_lists listed present
    exact ⟨entries, by simp [Data.has, present, Outcome.ok_bind, pure, Except.pure], listed,
      fun _ _ => rfl⟩
  | true =>
    refine ⟨_, ?_, lists_set entries _, fun key other => by simp [get?_set, Ne.symm other]⟩
    simp only [Data.has, present, Data.item, get?_of_lists listed present, Outcome.ok_bind]
    refine Outcome.bind_eq_ok_iff.mpr
      ⟨_, rfl, Outcome.bind_eq_ok_iff.mpr ⟨_, Outcome.mapM_eq_ok_iff.mpr ?_, rfl⟩⟩
    simp only [mapValues, adjusted, List.map_map, List.forall₂_map_left_iff,
      List.forall₂_map_right_iff, List.forall₂_same]
    intro e _
    by_cases same : e.1 = type
    · have changed := mapValuesM_table step e.2
      simp only [Function.comp_apply, same, bne_self_eq_false, Bool.false_eq_true, if_false, if_true]
      exact Outcome.bind_eq_ok_iff.mpr ⟨_, rfl, Outcome.bind_eq_ok_iff.mpr ⟨_, changed, rfl⟩⟩
    · simp only [Function.comp_apply, bne_iff_ne.mpr same, if_true, same, if_false]
      rfl

/-- Where a key pair is named in the instances, one that names a pair stays as it is just if it is
this pair. All else stays. -/
theorem enter_keeps_instance_iff (disk : Disk) (key user : String) (listed : Lists entries rs) :
    ∃ entries' rs', enter disk (.map entries) key "aws" user = .ok (.map entries') ∧
      Lists entries' rs' ∧
      (∀ other ≠ "resource", get? entries' other = get? entries other) ∧
      (∀ type ≠ "aws_instance", get? rs' type = get? rs type) ∧
      ∀ instances, get? rs "aws_instance" = some instances → ∃ instances',
        get? rs' "aws_instance" = some instances' ∧
        ∀ name attributes, get? instances name = some attributes → ∃ attributes',
          get? instances' name = some attributes' ∧
          get? attributes' "key_name" = some (nameOf key) ∧
          (∀ other ≠ "key_name", get? attributes' other = get? attributes other) ∧
          ∀ held, get? attributes "key_name" = some held →
            (attributes' = attributes ↔ held = nameOf key) := by
  obtain ⟨entries', entered, listed', rest⟩ :=
    mapInstances_eq "aws_instance" (·.put "key_name" (nameOf key))
    (Assoc.set · "key_name" (nameOf key)) (fun _ => rfl) listed
  refine ⟨entries', _, entered, listed', rest, fun type other => ?_, fun instances found => ?_⟩
  · simp [get?_adjusted, other]
  refine ⟨_, by rw [get?_adjusted, found, Option.map_some, if_pos rfl], fun name attributes own => ?_⟩
  refine ⟨_, by rw [get?_mapValues, own, Option.map_some], ?_, fun other ne =>
    ?_, fun held named => ?_⟩
  · simp [get?_set]
  · simp [get?_set, Ne.symm ne]
  constructor
  · intro same
    have written : get? (Assoc.set attributes "key_name" (nameOf key)) "key_name" =
      some (nameOf key) := by simp [get?_set]
    rw [same, named] at written
    exact Option.some.inj written
  · rintro rfl
    exact set_of_get? named

def sample (web db : String) : Resources :=
  [("aws_instance", [("web", [("key_name", .str web)]), ("db", [("key_name", .str db)])])]

theorem nameOf_sample : nameOf "IaC/.keys/cloud-cli-key" = .str "cloud-cli-key" := by cbv

theorem enter_keeps_instance_sample :
    ∃ entries' rs' instances, enter {}
      (.map (configured (sample "team" "cloud-cli-key"))) "IaC/.keys/cloud-cli-key" "aws" "ubuntu" =
        .ok (.map entries') ∧ Lists entries' rs' ∧ get? rs' "aws_instance" = some instances ∧
      get? instances "db" = some [("key_name", .str "cloud-cli-key")] ∧
      get? instances "web" ≠ some [("key_name", .str "team")] := by
  have listed : Lists (configured (sample "team" "cloud-cli-key"))
    (sample "team" "cloud-cli-key") := rfl
  obtain ⟨entries', rs', run, listed, -, -, each⟩ :=
    enter_keeps_instance_iff {} "IaC/.keys/cloud-cli-key" "ubuntu" listed
  obtain ⟨instances, found, each⟩ := each _ rfl
  obtain ⟨db, atDb, -, -, keeps⟩ := each "db" _ rfl
  obtain ⟨web, atWeb, -, -, changes⟩ := each "web" _ rfl
  refine ⟨entries', rs', instances, run, listed, found, ?_, fun same => ?_⟩
  · rw [atDb, (keeps _ rfl).mpr nameOf_sample.symm]
  · rw [atWeb] at same
    have := (changes _ rfl).mp (Option.some.inj same)
    rw [nameOf_sample] at this
    simp at this

theorem enter_overwrites_key :
    enter {} (.map (configured (sample "team" "team"))) "IaC/.keys/cloud-cli-key" "aws" "ubuntu" =
      .ok (.map (configured (sample "cloud-cli-key" "cloud-cli-key"))) := by
  cbv

end KeyPair

end Stratus
