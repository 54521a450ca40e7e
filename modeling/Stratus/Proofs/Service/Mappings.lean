import Stratus.Proofs.Service.Reading

/-!
The mappings of deployments. A landscape has the mappings of its last service alone, so a mapping of
an earlier service is lost unless the last one maps the same resource.
-/
namespace Stratus.Landscape

open Assoc hiding set
open List

variable {services : List (String × Data)} {key : String}

/-- The mappings of the deployment of a service; of several deployments the first counts. -/
def mappingsIn (content : Data) : Assoc Data := (deploymentOf content).part "mappings"

/-- What the last service that maps a resource maps it to. -/
def lastMapping? (services : List (String × Data)) (key : String) : Option Data :=
  services.reverse.findSome? fun e => get? (mappingsIn e.2) key

/-- No mapping of a service is lost, and the last one counts. -/
def KeepsMappings (services : List (String × Data)) (mappings : Data) : Prop :=
  ∀ key value, lastMapping? services key = some value → mappings.step? (.key key) = some value

theorem step?_mappingsOf {s : Service} {mappings : Data} (h : mappingsOf s = .ok mappings)
    (key : String) :
    mappings.step? (.key key) = get? (s.deployment.part "mappings") key := by
  unfold mappingsOf at h
  split at h
  · next entry entries found =>
      rw [found, Data.part, Data.at?, Data.step?, Data.item_eq_ok_iff.mp h]
      cases mappings <;> rfl
  · next idle =>
      cases h
      cases deployed : s.deployment with
      | map entries =>
        cases entries with
        | nil => rfl
        | cons entry entries => exact absurd deployed (idle entry entries)
      | _ => rfl

/-- The mappings that are read of a tree are those of the last service that it lists. -/
theorem mappings_of_last {tree : Data} {l : Landscape} (read : ofTree tree = .ok l) :
    ∃ front last, described tree = front ++ [last] ∧
      ∀ key, l.mappings.step? (.key key) = get? (mappingsIn last.2) key := by
  obtain ⟨fallback, found, all⟩ := ofTree_eq_ok read
  obtain ⟨s, ends⟩ := all.mappings
  obtain ⟨before, rfl⟩ := getLast?_eq_some_iff.mp ends
  have reversed := forall₂_reverse_iff.mpr all.entries
  rw [reverse_append, reverse_singleton, singleton_append] at reversed
  obtain ⟨last, front, ⟨serves, mapped⟩, -, same⟩ := forall₂_cons_right_iff.mp reversed
  refine ⟨front.reverse, last, ?_, ?_⟩
  · rw [← reverse_reverse (described tree), same, reverse_cons]
  · intro key
    rw [step?_mappingsOf mapped, serves.deployment]
    rfl

theorem lastMapping?_concat (front : List (String × Data)) (last : String × Data) (key : String) :
    lastMapping? (front ++ [last]) key =
      (get? (mappingsIn last.2) key).or (lastMapping? front key) := by
  rw [lastMapping?, reverse_append, reverse_singleton, singleton_append, findSome?_cons]
  cases get? (mappingsIn last.2) key <;> rfl

theorem exists_of_lastMapping? {value : Data}
    (h : lastMapping? services key = some value) : ∃ e ∈ services, key ∈ keys (mappingsIn e.2) := by
  obtain ⟨e, mem, found⟩ := exists_of_findSome?_eq_some h
  exact ⟨e, mem_reverse.mp mem, mem_keys (mem_of_get? found)⟩

theorem lastMapping?_of_mem {e : String × Data} (mem : e ∈ services)
    (mapped : key ∈ keys (mappingsIn e.2)) : ∃ value, lastMapping? services key = some value := by
  apply Option.isSome_iff_exists.mp
  rw [lastMapping?, findSome?_isSome_iff]
  exact ⟨e, mem_reverse.mpr mem, contains_iff.mpr mapped⟩

/-- The mappings that are read are those of the last service, complete exactly if it maps whatever
an earlier one maps. -/
theorem ofTree_keeps_mappings_iff {tree : Data} {l : Landscape} (read : ofTree tree = .ok l) :
    ∃ front last, described tree = front ++ [last] ∧
      (∀ key, l.mappings.step? (.key key) = Assoc.get? (mappingsIn last.2) key) ∧
      (KeepsMappings (described tree) l.mappings ↔
        ∀ e ∈ front, ∀ key ∈ Assoc.keys (mappingsIn e.2), key ∈ Assoc.keys (mappingsIn last.2)) := by
  obtain ⟨front, last, split, mapped⟩ := mappings_of_last read
  refine ⟨front, last, split, mapped, ?_⟩
  rw [split]
  constructor
  · intro keeps e mem key given
    apply Assoc.contains_iff.mp
    obtain ⟨value, found⟩ := lastMapping?_of_mem (mem_append_left [last] mem) given
    have kept := keeps key value found
    rw [mapped] at kept
    exact Assoc.contains_of_get? kept
  · intro covered key value found
    rw [lastMapping?_concat] at found
    rw [mapped]
    rcases Option.or_eq_some_iff.mp found with here | ⟨absent, earlier⟩
    · exact here
    · obtain ⟨e, mem, given⟩ := exists_of_lastMapping? earlier
      exact absurd (covered e mem key given) (Assoc.get?_eq_none_iff.mp absent)

namespace Sample

def deploying (name : String) (mappings : Assoc Data) : Data :=
  .map [(name, .map [("deployment", .list [.map [("mappings", .map mappings)]])])]

def servicesOf (blocks : List Data) : Data := .map [("service", .list blocks)]

def overriding : Data := servicesOf [
  deploying "web" [("compute.a", .str "configuration.b")],
  deploying "db" [("compute.c", .str "configuration.d"), ("compute.a", .str "configuration.e")]]

def disjoint : Data := servicesOf [
  deploying "web" [("compute.a", .str "configuration.b")],
  deploying "db" [("compute.c", .str "configuration.d")]]

end Sample

theorem ofTree_keeps_overridden_mapping : ∃ l, ofTree Sample.overriding = .ok l ∧
    lastMapping? (described Sample.overriding) "compute.a" = some (.str "configuration.e") ∧
    KeepsMappings (described Sample.overriding) l.mappings := by
  have read : ∃ l, ofTree Sample.overriding = .ok l := ⟨_, rfl⟩
  obtain ⟨l, read⟩ := read
  obtain ⟨front, last, split, -, keeps⟩ := ofTree_keeps_mappings_iff read
  refine ⟨l, read, rfl, keeps.mpr ?_⟩
  obtain ⟨rfl, ends⟩ := append_inj' (split.symm : front ++ [last] = [_] ++ [_]) rfl
  obtain rfl := singleton_inj.mp ends
  intro e mem key given
  obtain rfl := mem_singleton.mp mem
  obtain rfl := mem_singleton.mp given
  exact mem_cons_of_mem _ mem_cons_self

/-- The mapping of the first service is lost. -/
theorem ofTree_loses_earlier_mapping : ∃ l, ofTree Sample.disjoint = .ok l ∧
    lastMapping? (described Sample.disjoint) "compute.a" = some (.str "configuration.b") ∧
    l.mappings = .map [("compute.c", .str "configuration.d")] ∧
    ¬ KeepsMappings (described Sample.disjoint) l.mappings := by
  refine ⟨_, rfl, rfl, rfl, ?_⟩
  intro keeps
  cases keeps "compute.a" _ rfl

end Stratus.Landscape
