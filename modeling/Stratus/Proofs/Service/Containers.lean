import Stratus.Proofs.Service.Infrastructure

/-!
Containers of a block: one for each entry, in order, or the fault of the first entry that has
neither data nor an image. A content with data is a config map.
-/
namespace Stratus

open Data hiding getD keys
open Assoc hiding set

open Outcome

/-- The maps that a value is or lists, in lists no deeper than a bound. -/
def Data.mapsWithin : Nat → Data → List (Assoc Data)
  | _, .map entries => [entries]
  | depth + 1, .list items => items.flatMap (mapsWithin depth)
  | _, _ => []

namespace Landscape

open Data (Step)

def contain (e : Listing) : Outcome Container := container e.name e.content

theorem containersNamed_eq (kind : String) (configs : Data) :
    containersNamed configs = (sectionListing kind (configs.mapsWithin 1)).mapM contain := by
  have one (entries : Assoc Data) :
      (entries.mapM fun e => container e.1 e.2) = (sectionListing kind [entries]).mapM contain := by
    simp [sectionListing, List.mapM_map, Function.comp_def, contain]
  cases configs with
  | map entries => exact one entries
  | list items =>
    rw [containersNamed, sectionListing, mapsWithin, List.flatMap_assoc]
    refine flatten_mapM (fun d => ?_) items
    cases d with
    | map entries => exact one entries
    | _ => rfl
  | _ => rfl

theorem containersIn_eq (block : Assoc Data) :
    containersIn block = (block.flatMap fun s =>
      sectionListing s.1 (s.2.mapsWithin 1)).mapM contain := by
  refine flatten_mapM (fun s => ?_) block
  exact containersNamed_eq s.1 s.2

theorem containerBlock_eq (block : Data) :
    containerBlock block = (listing (mapsWithin 1) (mapsWithin 1) block).mapM contain := by
  cases block with
  | map entries => simp [containerBlock, containersIn_eq, listing, mapsWithin]
  | list items =>
    rw [containerBlock, listing, mapsWithin, List.flatMap_assoc]
    refine flatten_mapM (fun d => ?_) items
    cases d with
    | map entries => simp [containersIn_eq, mapsWithin]
    | _ => rfl
  | _ => rfl

theorem containers_eq (block : Data) :
    containers block = (listing (mapsWithin 2) (mapsWithin 1) block).mapM contain := by
  cases block with
  | list items =>
    rw [containers, listing, mapsWithin, List.flatMap_assoc]
    exact flatten_mapM containerBlock_eq items
  | map entries => exact containerBlock_eq (.map entries)
  | _ => rfl

namespace Listing

def data (e : Listing) : Data := getD e.entries "data" .null

/-- An entry with data or an image. -/
def Complete (e : Listing) : Prop := e.data.holds = true ∨ "image" ∈ keys e.entries

instance (e : Listing) : Decidable e.Complete := inferInstanceAs (Decidable (_ ∨ _))

/-- Where a service may list ports: in its map, or in the first of its list. -/
def portPlaces : List (List Step) := [[.key "ports"], [.index 0, .key "ports"]]

/-- The first ports that the service lists, or else those of the container itself. -/
def ports (e : Listing) : Data :=
  ((portPlaces.filterMap (e.content.field "service").at?).find? holds).getD
    (getD e.entries "ports" (.list []))

/-- The container of an entry: a config map of its data, or else what its known fields say. -/
def container (e : Listing) : Container :=
  if e.data.holds then
    { name := e.name, ports := .list [], kind := .str "ConfigMap", attributes := [("data", e.data)] }
  else
    { Container.ofRecord (.map (e.entries.filter fun entry => containerFields.contains entry.1)) with
      name := e.name
      ports := e.ports
      attributes := e.entries.filter fun entry => !containerFields.contains entry.1 }

end Listing

theorem ports_of_service {d : Data} {config : Assoc Data}
    (shape : d = .map config ∨ ∃ rest, d = .list (.map config :: rest)) :
    Listing.portPlaces.filterMap d.at? = (get? config "ports").toList := by
  unfold Listing.portPlaces
  rcases shape with rfl | ⟨rest, rfl⟩
  · cases found : get? config "ports" <;> simp [at?, step?, found]
  · cases found : get? config "ports" <;> simp [at?, step?, found]

theorem containerPorts_map (kind name : String) (entries : Assoc Data) :
    containerPorts (.map entries) = .ok (Listing.ports ⟨kind, name, .map entries⟩) := by
  have preferred (config : Assoc Data) (own : Data) :
      (if (getD config "ports" (.list [])).holds =
        true then getD config "ports" (.list []) else own) =
        ((get? config "ports").toList.find? holds).getD own := by
    unfold getD
    cases get? config "ports" with
    | none => rfl
    | some ports => cases holds : ports.holds <;> simp [holds]
  unfold containerPorts Listing.ports
  simp only [getD_map, ok_bind]
  generalize (map entries).field "service" = d
  cases d with
  | map config =>
    rw [getD_map, ok_bind, preferred, ← ports_of_service (.inl rfl)]
    rfl
  | list items =>
    cases items with
    | nil => rfl
    | cons d rest =>
      cases d with
      | map config =>
        rw [getD_map, ok_bind, preferred, ← ports_of_service (.inr ⟨rest, rfl⟩)]
        rfl
      | _ => rfl
  | _ => rfl

section Contain

variable {e : Listing} {entries : Assoc Data}

theorem contain_of_data (shape : e.content = .map entries) (given : e.data.holds = true) :
    contain e = .ok e.container := by
  obtain ⟨kind, name, content⟩ := e
  cases shape
  have holds : (getD entries "data" .null).holds = true := given
  simp only [contain, container, Data.get, getD_map, ok_bind, holds, if_true,
    Listing.container, given]
  rfl

theorem contain_of_image (shape : e.content = .map entries) (without : e.data.holds = false)
    (given : "image" ∈ keys entries) : contain e = .ok e.container := by
  obtain ⟨kind, name, content⟩ := e
  cases shape
  have holds : (getD entries "data" .null).holds = false := without
  have has : (map entries).has "image" = .ok true := by
    rw [has, contains_iff.mpr given]
  have item : (map entries).item "image" = .ok (getD entries "image" .null) := by
    obtain ⟨image, found⟩ := Option.isSome_iff_exists.mp (contains_iff.mpr given)
    rw [item_eq_ok_iff.mpr found, getD, found]
    rfl
  simp only [contain, container, Data.get, getD_map, ok_bind, holds, has, item,
    containerPorts_map kind name, Bool.false_eq_true, if_false, Bool.not_true]
  simp only [Listing.container, without, Bool.false_eq_true, if_false, Container.ofRecord,
    field, getD, map?, Option.getD_some, get?_filter]
  rfl

theorem contain_of_neither (shape : e.content = .map entries) (incomplete : ¬ e.Complete) :
    contain e = .error (.imageMissing e.name) := by
  obtain ⟨kind, name, content⟩ := e
  cases shape
  obtain ⟨data, image⟩ := not_or.mp incomplete
  have holds : ¬ (getD entries "data" .null).holds = true := data
  have absent : contains entries "image" = false :=
    Bool.eq_false_iff.mpr fun listed => image (contains_iff.mp listed)
  have has : (map entries).has "image" = .ok false := by
    rw [has, absent]
  simp only [contain, container, Data.get, getD_map, ok_bind, holds, has, Bool.not_false, if_true]
  rfl

theorem contain_of_complete (map : e.content.isMap = true) (complete : e.Complete) :
    contain e = .ok e.container := by
  cases content : e.content with
  | map entries =>
    cases data : e.data.holds with
    | true => exact contain_of_data content data
    | false =>
      have image : "image" ∈ keys e.entries := complete.resolve_left (Bool.eq_false_iff.mp data)
      rw [Listing.entries, content] at image
      exact contain_of_image content data image
  | _ =>
    rw [content] at map
    cases map

theorem contain_of_incomplete (map : e.content.isMap = true) (incomplete : ¬ e.Complete) :
    contain e = .error (.imageMissing e.name) := by
  cases content : e.content with
  | map entries => exact contain_of_neither content incomplete
  | _ =>
    rw [content] at map
    cases map

theorem contain_eq_ok_iff (map : e.content.isMap = true) (c : Container) :
    contain e = .ok c ↔ e.Complete ∧ c = e.container := by
  by_cases complete : e.Complete
  · rw [contain_of_complete map complete, Except.ok.injEq, and_iff_right complete, eq_comm]
  · rw [contain_of_incomplete map complete]
    simp [complete]

end Contain

def containerListing (block : Data) : List Listing := listing (mapsWithin 1) (mapsWithin 1) block

/-- A block whose contents are maps gives the containers of its entries in order, or the fault names
the first entry with neither data nor an image. -/
theorem containerBlock_complete_or_first {block : Data}
    (maps : ∀ e ∈ containerListing block, e.content.isMap = true) :
    (∀ e ∈ containerListing block, e.Complete) ∧
        containerBlock block = .ok ((containerListing block).map Listing.container) ∨
      ∃ before e after, containerListing block = before ++ e :: after ∧ (∀ b ∈ before, b.Complete) ∧
        ¬ e.Complete ∧
        ∃ fault, containerBlock block = .error fault ∧ fault.family = .value ∧
          fault.message = "Container " ++ e.name ++ " is missing required 'image' field" := by
  have run : containerBlock block = (containerListing block).mapM contain := containerBlock_eq block
  cases outcome : containerBlock block with
  | ok cs =>
    rw [outcome, eq_comm, mapM_eq_ok_iff_map fun e mem => contain_eq_ok_iff (maps e mem)] at run
    obtain ⟨complete, rfl⟩ := run
    exact .inl ⟨complete, rfl⟩
  | error fault =>
    rw [outcome, eq_comm] at run
    obtain ⟨before, e, after, split, succeeds, failed⟩ := exists_first_of_mapM_error run
    rw [split] at maps
    have here : e.content.isMap = true := maps e (List.mem_append_right _ List.mem_cons_self)
    have incomplete : ¬ e.Complete := by
      intro complete
      rw [contain_of_complete here complete] at failed
      cases failed
    rw [contain_of_incomplete here incomplete] at failed
    cases failed
    refine .inr ⟨before, e, after, split, ?_, incomplete, _, rfl, rfl, rfl⟩
    intro b mem
    obtain ⟨c, made⟩ := succeeds b mem
    exact ((contain_eq_ok_iff (maps b (List.mem_append_left _ mem)) c).mp made).1

namespace Sample

/-- Sections in a list: one lists its containers around a value that is none, one is a map. -/
def stack (worker : Assoc Data) : Data := .list [
  .map [("web", .list [
    .map [("api", .map [("image", .str "nginx"), ("ports", .list [.int 1]), ("tier", .str "a"),
      ("service", .list [.map [("ports", .list [.int 80])]])])],
    .str "note",
    .map [("settings", .map [("data", .map [("k", .str "v")])])]])],
  .map [("jobs", .map [("worker", .map worker)])]]

def worker : Assoc Data :=
  [("image", .str "busybox"), ("ports", .list [.int 9]), ("service", .map [("ports", .list [])])]

end Sample

theorem containerBlock_of_stack :
    containerBlock (Sample.stack Sample.worker) = .ok [
      { name := "api", image := .str "nginx", ports := .list [.int 80],
        attributes := [("tier", .str "a")]
        service := .list [.map [("ports", .list [.int 80])]] },
      { name := "settings", ports := .list [], kind := .str "ConfigMap"
        attributes := [("data", .map [("k", .str "v")])] },
      { name := "worker", image := .str "busybox", ports := .list [.int 9],
        service := .map [("ports", .list [])] }] ∧
    ∃ fault, containerBlock (Sample.stack []) = .error fault ∧
      fault.message = "Container worker is missing required 'image' field" := by
  constructor
  · have complete : ∀ e ∈ containerListing (Sample.stack Sample.worker), e.Complete := by decide
    rcases @containerBlock_complete_or_first (Sample.stack Sample.worker) (by decide) with
      ⟨-, made⟩ | ⟨before, e, after, split, -, incomplete, -⟩
    · exact made
    · refine absurd (complete e ?_) incomplete
      rw [split]
      exact List.mem_append_right _ List.mem_cons_self
  · have first : ∀ e ∈ containerListing (Sample.stack []), ¬ e.Complete →
      e.name = "worker" := by decide
    rcases @containerBlock_complete_or_first (Sample.stack []) (by decide) with
      ⟨complete, -⟩ | ⟨before, e, after, split, -, incomplete, fault, failed, -, message⟩
    · exact absurd complete (by decide)
    · refine ⟨fault, failed, ?_⟩
      rw [message, first e (by rw [split]; exact List.mem_append_right _ List.mem_cons_self)
        incomplete]
      rfl

def containersListed (tree : Data) : List Listing :=
  (described tree).flatMap fun s => listing (mapsWithin 2) (mapsWithin 1) (s.2.field "containers")

theorem listing_of_not_holds {d : Data} (h : d.holds = false) (depth : Nat)
    (sections : Data → List (Assoc Data)) :
    listing (mapsWithin depth) sections d = [] := by
  cases d with
  | map entries =>
    cases entries with
    | nil => cases depth <;> rfl
    | cons e rest => cases h
  | list items =>
    cases items with
    | nil => cases depth <;> rfl
    | cons d rest => cases h
  | _ => cases depth <;> rfl

theorem contained_of_containersOf {content : Data} {cs : List Container}
    (h : containersOf content = .ok cs) :
    List.Forall₂ (fun e c => contain e = .ok c)
      (listing (mapsWithin 2) (mapsWithin 1) (content.field "containers")) cs := by
  unfold containersOf at h
  cases holds : (content.field "containers").holds with
  | true =>
    rw [if_pos holds, containers_eq] at h
    exact mapM_eq_ok_iff.mp h
  | false =>
    rw [if_neg (Bool.eq_false_iff.mp holds)] at h
    cases h
    rw [listing_of_not_holds holds]
    exact .nil

theorem contained_of_ofTree {tree : Data} {l : Landscape} (h : ofTree tree = .ok l) :
    List.Forall₂ (fun e c => contain e = .ok c) (containersListed tree)
      (l.services.flatMap (·.containers)) := by
  obtain ⟨fallback, found, all⟩ := ofTree_eq_ok h
  rw [all.services, List.flatMap_map, List.flatMap_def, containersListed]
  apply forall₂_flatMap
  rw [List.forall₂_map_right_iff]
  exact all.entries.imp fun s r serves => contained_of_containersOf serves.1.containers

end Landscape

end Stratus
