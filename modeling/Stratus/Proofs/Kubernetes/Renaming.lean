import Stratus.Proofs.Kubernetes.Manifest
import Stratus.Proofs.Service.Reading

/-!
Values of a specification after its keys are renamed. A value can be lost with a handled key, or to
a later entry that is spelled alike; the others land in the resource.
-/
namespace Stratus.Kubernetes

open Assoc hiding set

open Outcome

open Data (Step)

variable {d v : Data} {table : DefaultsTable} {entries : Assoc Data} {name : String} {key : String}

/-- What becomes of an entry: nothing if its key is handled elsewhere. -/
def specEntry (e : String × Data) : Option (String × Data) :=
  if isHandled e.1 then none else some (camelCase e.1, specValue e.2)

theorem specEntry_eq_some_iff {e written : String × Data} :
    specEntry e = some written ↔
      isHandled e.1 = false ∧ (camelCase e.1, specValue e.2) = written := by
  cases handled : isHandled e.1 <;> simp [specEntry, handled]

theorem specEntries_eq (entries : Assoc Data) :
    specEntries entries = entries.filterMap specEntry := by
  induction entries with
  | nil => simp [specEntries]
  | cons e rest ih =>
    obtain ⟨k, d⟩ := e
    cases handled : isHandled k <;> simp [specEntries, specEntry, handled, ih]

theorem mem_keys_specEntries_iff :
    key ∈ keys (entries.filterMap specEntry) ↔
      ∃ e ∈ entries, isHandled e.1 = false ∧ camelCase e.1 = key := by
  simp only [keys, List.mem_map, List.mem_filterMap, specEntry_eq_some_iff]
  constructor
  · rintro ⟨_, ⟨e, mem, free, rfl⟩, rfl⟩
    exact ⟨e, mem, free, rfl⟩
  · rintro ⟨e, mem, free, rfl⟩
    exact ⟨_, ⟨e, mem, free, rfl⟩, rfl⟩

theorem get?_specEntries_iff {value : Data} : get? (ofPairs (specEntries entries)) key = some value ↔
      ∃ before name d after, entries = before ++ (name, d) :: after ∧ isHandled name = false ∧
        camelCase name = key ∧
        specValue d = value ∧ ∀ e ∈ after, isHandled e.1 = false → camelCase e.1 ≠ key := by
  rw [get?_ofPairs_eq_some_iff, specEntries_eq]
  constructor
  · rintro ⟨front, back, split, last⟩
    obtain ⟨before, others, rfl, -, written⟩ := List.filterMap_eq_append_iff.mp split
    obtain ⟨skipped, ⟨name, d⟩, after, rfl, -, made, rfl⟩ := List.filterMap_eq_cons_iff.mp written
    obtain ⟨free, same⟩ := specEntry_eq_some_iff.mp made
    cases same
    refine ⟨before ++ skipped, name, d, after, by rw [List.append_assoc], free, rfl, rfl, ?_⟩
    intro e mem unhandled same
    exact last (mem_keys_specEntries_iff.mpr ⟨e, mem, unhandled, same⟩)
  · rintro ⟨before, name, d, after, rfl, free, rfl, rfl, last⟩
    have written : specEntry (name, d) = some (camelCase name, specValue d) :=
      specEntry_eq_some_iff.mpr ⟨free, rfl⟩
    refine ⟨before.filterMap specEntry, after.filterMap specEntry, ?_, ?_⟩
    · rw [List.filterMap_append, List.filterMap_cons_some written]
    · intro mem
      obtain ⟨e, source, unhandled, same⟩ := mem_keys_specEntries_iff.mp mem
      exact last e source unhandled same

/-- What becomes of an element of a list: lists inside lists stay as they are. -/
def specItem (d : Data) : Data := if d.isList then d else specValue d

theorem specItems_eq (items : List Data) : specItems items = items.map specItem := by
  induction items with
  | nil => simp [specItems]
  | cons d rest ih => cases d <;> simp [specItems, specItem, specValue, Data.isList, ih]

theorem specValue_eq_iff (scalar : v.hashable = true) : specValue d = v ↔ d = v := by
  cases d with
  | map entries =>
    rw [specValue]
    constructor <;> rintro rfl <;> cases scalar
  | list items =>
    rw [specValue]
    constructor <;> rintro rfl <;> cases scalar
  | _ => exact .rfl

/-- What a path leads to stands at a place of the renamed value. An entry does if its key is not
handled elsewhere and no later one is spelled alike; inside a list in a list nothing is renamed. -/
inductive Lands : Data → List Step → List Step → Prop
  | here (d : Data) : Lands d [] []
  | entry {before after : Assoc Data} {name : String} {d : Data} {path place : List Step}
      (free : isHandled name = false)
      (last : ∀ e ∈ after, isHandled e.1 = false → camelCase e.1 ≠ camelCase name)
      (rest : Lands d path place) :
      Lands (.map (before ++ (name, d) :: after)) (.key name :: path) (.key (camelCase name) :: place)
  | item {items : List Data} {i : Nat} {d : Data} {path place : List Step}
      (found : items[i]? = some d)
      (flat : d.isList = false) (rest : Lands d path place) :
      Lands (.list items) (.index i :: path) (.index i :: place)
  | row {items : List Data} {i : Nat} {d : Data} {path : List Step} (found : items[i]? = some d)
      (nested : d.isList = true) : Lands (.list items) (.index i :: path) (.index i :: path)

theorem exists_lands {place : List Step} (distinct : d.distinct = true) (scalar : v.hashable = true)
    (found : (specValue d).at? place = some v) :
    ∃ path, Lands d path place ∧ d.at? path = some v := by
  -- on the place: under each of its keys stands one entry of the value, the last that is spelled so
  induction place generalizing d with
  | nil =>
    have same : d = v := (specValue_eq_iff scalar).mp (Option.some.inj found)
    exact ⟨[], .here d, congrArg some same⟩
  | cons step place ih =>
    rw [Data.at?] at found
    obtain ⟨w, here, there⟩ := Option.bind_eq_some_iff.mp found
    cases d with
    | map entries =>
      rw [specValue] at here
      cases step with
      | index i => cases here
      | key key =>
        obtain ⟨before, name, d, after, rfl, free, rfl, rfl, last⟩ := get?_specEntries_iff.mp here
        obtain ⟨nodup, inside⟩ := Data.distinct_map_iff.mp distinct
        have mem : (name, d) ∈ before ++ (name, d) :: after :=
          List.mem_append_right _ List.mem_cons_self
        obtain ⟨path, lands, leads⟩ := ih (inside name d mem) there
        refine ⟨.key name :: path, .entry free last lands, ?_⟩
        rw [Data.at?, Data.step?, get?_of_mem nodup mem]
        exact leads
    | list items =>
      rw [specValue, specItems_eq] at here
      cases step with
      | key name => cases here
      | index i =>
        rw [Data.step?, List.getElem?_map] at here
        obtain ⟨d, listed, rfl⟩ := Option.map_eq_some_iff.mp here
        have at_item (path : List Step) : (Data.list items).at? (.index i :: path) = d.at? path := by
          rw [Data.at?, Data.step?, listed]
          rfl
        unfold specItem at there
        split at there
        · next nested => exact ⟨.index i :: place, .row listed nested, (at_item place).trans there⟩
        · next flat =>
            have inside := Data.distinct_list_iff.mp distinct d (List.mem_of_getElem? listed)
            obtain ⟨path, lands, leads⟩ := ih inside there
            exact ⟨.index i :: path, .item listed (Bool.eq_false_iff.mpr flat) lands,
              (at_item path).trans leads⟩
    | _ => cases step <;> cases here

theorem Lands.kept {path place : List Step} (h : Lands d path place) (distinct : d.distinct = true)
    (scalar : v.hashable = true)
    (found : d.at? path = some v) : (specValue d).at? place = some v := by
  induction h with
  | here d =>
    cases found
    exact congrArg some ((specValue_eq_iff scalar).mpr rfl)
  | @entry before after name d path place free last rest ih =>
    obtain ⟨nodup, inside⟩ := Data.distinct_map_iff.mp distinct
    have mem : (name, d) ∈ before ++ (name, d) :: after := List.mem_append_right _ List.mem_cons_self
    rw [Data.at?, Data.step?, get?_of_mem nodup mem] at found
    have written := get?_specEntries_iff.mpr ⟨before, name, d, after, rfl, free, rfl, rfl, last⟩
    rw [specValue, Data.at?, Data.step?, written]
    exact ih (inside name d mem) found
  | @item items i d path place listed flat rest ih =>
    rw [Data.at?, Data.step?, listed] at found
    rw [specValue, specItems_eq, Data.at?, Data.step?, List.getElem?_map, listed]
    change (specItem d).at? place = some v
    rw [specItem, if_neg (Bool.eq_false_iff.mp flat)]
    exact ih (Data.distinct_list_iff.mp distinct d (List.mem_of_getElem? listed)) found
  | @row items i d path listed nested =>
    rw [Data.at?, Data.step?, listed] at found
    rw [specValue, specItems_eq, Data.at?, Data.step?, List.getElem?_map, listed]
    change (specItem d).at? path = some v
    rw [specItem, if_pos nested]
    exact found

def camelStep : Step → Step
  | .key name => .key (camelCase name)
  | .index i => .index i

def camelPath (path : List Step) : List Step := path.map camelStep

theorem dynamicResource_spec {kind d r : Data} (made : dynamicResource table kind d = .ok r) :
    ∃ entries base, d = .map entries ∧
      ∀ place, r.at? (.key "spec" :: place) =
        (Data.map (update base (ofPairs (specEntries entries)))).at? place := by
  obtain ⟨key, -, made⟩ := bind_eq_ok made
  obtain ⟨name, -, made⟩ := bind_eq_ok made
  obtain ⟨text, -, made⟩ := bind_eq_ok made
  obtain ⟨scope, -, made⟩ := bind_eq_ok made
  obtain ⟨metadata, -, made⟩ := bind_eq_ok made
  obtain ⟨base, -, made⟩ := bind_eq_ok made
  obtain ⟨fields, written, made⟩ := bind_eq_ok made
  cases made
  cases d with
  | map entries =>
    cases written
    exact ⟨entries, base, rfl, fun _ => rfl⟩
  | _ => cases written

theorem isHandled_iff : isHandled name = true ↔ name ∈ ["name", "namespace", "type"] := by
  simp [isHandled, or_assoc]

/-- Registered defaults do not show where a specification has an entry of its own. -/
theorem at?_spec_of_entry {kind d r : Data} (made : dynamicResource table kind d = .ok r)
    {inner : Data} (free : isHandled name = false) (listed : d.step? (.key name) = some inner)
    (place : List Step) :
    r.at? (.key "spec" :: .key (camelCase name) :: place) =
      (specValue d).at? (.key (camelCase name) :: place) := by
  obtain ⟨entries, base, rfl, spec⟩ := dynamicResource_spec made
  have written : (camelCase name, specValue inner) ∈ specEntries entries := by
    rw [specEntries_eq]
    exact List.mem_filterMap.mpr ⟨_, mem_of_get? listed, specEntry_eq_some_iff.mpr ⟨free, rfl⟩⟩
  obtain ⟨value, stands⟩ := get?_ofPairs_of_mem written
  have kept : get? (update base (ofPairs (specEntries entries))) (camelCase name) = some value := by
    rw [get?_update base (nodup_keys_ofPairs _), stands]
    rfl
  rw [spec, specValue, Data.at?, Data.step?, kept, Data.at?, Data.step?, stands]

/-- A scalar of a specification stands in the resource under the keys in camel case just when a path
lands there that leads to the same scalar. -/
theorem dynamicResource_keeps_iff {table : DefaultsTable} {kind d r : Data}
    (made : dynamicResource table kind d = .ok r)
    (distinct : d.distinct = true) {path : List Step} {v : Data} (scalar : v.hashable = true)
    (found : d.at? path = some v)
    (own : ∀ name ∈ ["name", "namespace", "type"], path.head? ≠ some (.key name)) :
    r.at? (.key "spec" :: camelPath path) = some v ↔
      ∃ source, Lands d source (camelPath path) ∧ d.at? source = some v := by
  have same : r.at? (.key "spec" :: camelPath path) = (specValue d).at? (camelPath path) := by
    obtain ⟨entries, -, rfl, -⟩ := dynamicResource_spec made
    cases path with
    | nil =>
      cases found
      cases scalar
    | cons step rest =>
      cases step with
      | index i => cases found
      | key name =>
        have free : isHandled name = false := Bool.eq_false_iff.mpr fun handled =>
          own name (isHandled_iff.mp handled) rfl
        obtain ⟨inner, listed, -⟩ := Option.bind_eq_some_iff.mp found
        exact at?_spec_of_entry made free listed (camelPath rest)
  rw [same]
  constructor
  · exact exists_lands distinct scalar
  · rintro ⟨source, lands, leads⟩
    exact lands.kept distinct scalar leads

namespace Sample

/-- Two keys that are spelled alike, and a handled key that stands deeper. -/
def canary : Data := .map [
  ("name", .str "web"), ("minReady", .int 3), ("min_ready", .int 5),
  ("template", .map [("pod_spec", .list [.map [("name", .str "app"), ("image_tag", .str "x")]])])]

def imageTag : List Step := [.key "template", .key "pod_spec", .index 0, .key "image_tag"]

end Sample

theorem dynamicResource_keeps_imageTag :
    ∃ r, dynamicResource [] (.str "Rollout") Sample.canary = .ok r ∧
    Sample.canary.distinct = true ∧ Sample.canary.at? Sample.imageTag = some (.str "x") ∧
    r.at? [.key "spec", .key "template", .key "podSpec", .index 0, .key "imageTag"] =
      some (.str "x") := by
  refine ⟨_, rfl, by decide, rfl, ?_⟩
  refine (@dynamicResource_keeps_iff [] (.str "Rollout") Sample.canary _ rfl
    (by decide) Sample.imageTag (.str "x") rfl
    rfl (by simp [Sample.imageTag])).mpr ⟨Sample.imageTag, ?_, rfl⟩
  refine @Lands.entry [("name", .str "web"), ("minReady", .int 3), ("min_ready", .int 5)] []
    "template" _ _ _ rfl
    (by simp) ?_
  refine @Lands.entry [] [] "pod_spec" _ _ _ rfl (by simp) (.item rfl rfl ?_)
  exact @Lands.entry [("name", .str "app")] [] "image_tag" _ _ _ rfl (by simp) (.here _)

namespace Sample

def rollout : Data := .map [
  ("name", .str "web"), ("containers", .list [.map [("name", .str "app"), ("image", .str "nginx")]])]

def containerName : List Step := [.key "containers", .index 0, .key "name"]

end Sample

/-- The name of a container is lost with the handled key that it stands under. -/
theorem containerName_lost : ∃ r, dynamicResource [] (.str "Rollout") Sample.rollout = .ok r ∧
    Sample.rollout.at? Sample.containerName = some (.str "app") ∧
    r.at? (.key "spec" :: camelPath Sample.containerName) = none :=
  ⟨_, rfl, rfl, rfl⟩

end Stratus.Kubernetes
