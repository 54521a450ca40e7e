import Stratus.Proofs.Data.Parts
import Stratus.Service.Reader

/-!
What a tree lists and what is read of it: one service and one component of each entry, which keeps
the entries of its content but for those that have a place of their own.
-/
namespace Stratus

open Assoc hiding set
open List

open Outcome

variable {items : List Data}

namespace Data

theorem getD_map (entries : Assoc Data) (key : String) (fallback : Data) :
    (map entries).getD key fallback = .ok (Assoc.getD entries key fallback) := rfl

mutual

/-- No map in a value has a key twice. -/
def distinct : Data → Bool
  | list items => distinctItems items
  | map entries => decide (Assoc.keys entries).Nodup && distinctEntries entries
  | _ => true

def distinctItems : List Data → Bool
  | [] => true
  | d :: rest => d.distinct && distinctItems rest

def distinctEntries : List (String × Data) → Bool
  | [] => true
  | (_, d) :: rest => d.distinct && distinctEntries rest

end

theorem distinct_list_iff : (list items).distinct = true ↔ ∀ d ∈ items, d.distinct = true := by
  rw [distinct]
  induction items with
  | nil => simp [distinctItems]
  | cons d rest ih => simp [distinctItems, ih]

theorem distinct_map_iff {entries : Assoc Data} : (map entries).distinct = true ↔
    (Assoc.keys entries).Nodup ∧ ∀ key d, (key, d) ∈ entries → d.distinct = true := by
  have inside : distinctEntries entries = true ↔
      ∀ key d, (key, d) ∈ entries → d.distinct = true := by
    induction entries with
    | nil => simp [distinctEntries]
    | cons e rest ih =>
      obtain ⟨k, d⟩ := e
      simp only [distinctEntries, Bool.and_eq_true, ih, mem_cons, Prod.mk.injEq]
      constructor
      · rintro ⟨first, later⟩ key d' (⟨rfl, rfl⟩ | mem)
        · exact first
        · exact later key d' mem
      · intro all
        exact ⟨all k d (.inl ⟨rfl, rfl⟩), fun key d' mem => all key d' (.inr mem)⟩
  rw [distinct, Bool.and_eq_true, decide_eq_true_eq, inside]

theorem distinct_field {d : Data} (h : d.distinct = true) (name : String) :
    (d.field name).distinct = true := by
  cases d with
  | map entries =>
    rw [field, Assoc.getD]
    cases found : get? entries name with
    | none => rfl
    | some value => exact (distinct_map_iff.mp h).2 name value (mem_of_get? found)
  | _ => rfl

mutual

theorem nested {P : Data → Prop} (inner : ∀ items, (∀ d ∈ items, P d) → P (list items))
    (outer : ∀ d, d.isList = false → P d) (d : Data) : P d := by
  cases d with
  | list items => exact inner items (nestedItems inner outer items)
  | _ => exact outer _ rfl

theorem nestedItems {P : Data → Prop} (inner : ∀ items, (∀ d ∈ items, P d) → P (list items))
    (outer : ∀ d, d.isList = false → P d) (items : List Data) : ∀ d ∈ items, P d := by
  cases items with
  | nil =>
    intro d mem
    cases mem
  | cons first rest =>
    intro d mem
    rcases mem_cons.mp mem with same | later
    · exact same ▸ nested inner outer first
    · exact nestedItems inner outer rest d later

end

mutual

/-- The maps that a value is or lists, in lists of any depth. -/
def maps : Data → List (Assoc Data)
  | map entries => [entries]
  | list items => mapsOfItems items
  | _ => []

def mapsOfItems : List Data → List (Assoc Data)
  | [] => []
  | d :: rest => d.maps ++ mapsOfItems rest

end

theorem maps_list (items : List Data) : (list items).maps = items.flatMap maps := by
  rw [maps]
  induction items with
  | nil => rfl
  | cons d rest ih => rw [mapsOfItems, ih, flatMap_cons]

theorem distinct_of_mem_maps {d : Data} {entries : Assoc Data} (h : d.distinct = true)
    (mem : entries ∈ d.maps) :
    (map entries).distinct = true := by
  revert h
  induction d using nested with
  | inner items ih =>
    intro h
    obtain ⟨d, inside, mem⟩ := mem_flatMap.mp (maps_list items ▸ mem)
    exact ih d inside mem (distinct_list_iff.mp h d inside)
  | outer d flat =>
    cases d with
    | list items => cases flat
    | map entries => exact mem_singleton.mp mem ▸ id
    | _ => cases mem

/-- What goes through lists, and reads something of maps only, reads the maps in a value. -/
theorem eq_flatMap_maps {α : Type} {f : Data → List α}
    (lists : ∀ items, f (list items) = items.flatMap f)
    (others : ∀ d, d.isList = false → d.isMap = false → f d = []) (d : Data) :
    f d = d.maps.flatMap fun entries => f (map entries) := by
  induction d using nested with
  | inner items ih =>
    rw [lists, maps_list, flatMap_assoc]
    exact flatMap_congr ih
  | outer d flat =>
    cases d with
    | list items => cases flat
    | map entries => simp [maps]
    | _ => exact others _ rfl rfl

end Data

namespace Landscape

variable {kind : String} {l : Landscape}

/-! ### Lists of a tree -/

/-- A component or a container as a tree lists it. -/
structure Listing where
  kind : String
  name : String
  content : Data

mutual

def sectionListings (kind : String) : Data → List Listing
  | .map entries => entries.map fun e => ⟨kind, e.1, e.2⟩
  | .list items => sectionItemListings kind items
  | _ => []

def sectionItemListings (kind : String) : List Data → List Listing
  | [] => []
  | d :: rest => sectionListings kind d ++ sectionItemListings kind rest

end

mutual

def listings : Data → List Listing
  | .map entries => entries.flatMap fun e => sectionListings e.1 e.2
  | .list items => itemListings items
  | _ => []

def itemListings : List Data → List Listing
  | [] => []
  | d :: rest => listings d ++ itemListings rest

end

def serviceBlocks : Data → List Data
  | .list items => items
  | block => [block]

def described (tree : Data) : List (String × Data) :=
  (serviceBlocks (Assoc.getD ((tree.map?).getD []) "service" (.list []))).flatMap fun d =>
    (d.map?).getD []

def listed (tree : Data) : List Listing :=
  (described tree).flatMap fun e => listings (e.2.field "infrastructure")

variable {e : Listing} {d tree : Data}

def sectionListing (kind : String) (maps : List (Assoc Data)) : List Listing :=
  maps.flatMap fun entries => entries.map fun e => ⟨kind, e.1, e.2⟩

/-- The entries of a block, section by section, where `blocks` and `sections` find the maps in the
lists. -/
def listing (blocks sections : Data → List (Assoc Data)) (d : Data) : List Listing :=
  (blocks d).flatMap fun block => block.flatMap fun s => sectionListing s.1 (sections s.2)

theorem sectionListings_eq (kind : String) (d : Data) :
    sectionListings kind d = sectionListing kind d.maps := by
  refine Data.eq_flatMap_maps (fun items => ?_) (fun d _ _ => ?_) d
  · rw [sectionListings]
    induction items with
    | nil => rfl
    | cons d rest ih => rw [sectionItemListings, ih, flatMap_cons]
  · cases d <;> first | rfl | contradiction

theorem listings_eq (d : Data) : listings d = listing Data.maps Data.maps d := by
  rw [Data.eq_flatMap_maps (f := listings) (fun items => ?_) (fun d _ _ => ?_) d]
  · simp only [listings, listing, sectionListings_eq]
  · rw [listings]
    induction items with
    | nil => rfl
    | cons d rest ih => rw [itemListings, ih, flatMap_cons]
  · cases d <;> first | rfl | contradiction

theorem distinct_listings (h : d.distinct = true) (mem : e ∈ listings d) :
    e.content.distinct = true := by
  rw [listings_eq] at mem
  obtain ⟨block, inside, mem⟩ := mem_flatMap.mp mem
  obtain ⟨⟨kind, content⟩, section?, mem⟩ := mem_flatMap.mp mem
  obtain ⟨entries, listed, mem⟩ := mem_flatMap.mp mem
  obtain ⟨⟨name, d⟩, entry, rfl⟩ := mem_map.mp mem
  have whole := (Data.distinct_map_iff.mp (Data.distinct_of_mem_maps h inside)).2 kind
    content section?
  exact (Data.distinct_map_iff.mp (Data.distinct_of_mem_maps whole listed)).2 name d entry

theorem distinct_described (h : tree.distinct = true) {e : String × Data}
    (mem : e ∈ described tree) :
    e.2.distinct = true := by
  obtain ⟨block, inside, mem⟩ := mem_flatMap.mp mem
  have whole : (Assoc.getD ((tree.map?).getD []) "service" (.list [])).distinct = true := by
    unfold Assoc.getD
    cases found : get? ((tree.map?).getD []) "service" with
    | none => rfl
    | some d =>
      cases tree with
      | map entries => exact (Data.distinct_map_iff.mp h).2 _ d (mem_of_get? found)
      | _ => cases found
  have part : block.distinct = true := by
    revert inside
    generalize Assoc.getD ((tree.map?).getD []) "service" (.list []) = d at whole
    intro inside
    cases d with
    | list items => exact Data.distinct_list_iff.mp whole block inside
    | _ => exact mem_singleton.mp inside ▸ whole
  cases block with
  | map entries => exact (Data.distinct_map_iff.mp part).2 e.1 e.2 mem
  | _ => cases mem

theorem distinct_listed (h : tree.distinct = true) (mem : e ∈ listed tree) :
    e.content.distinct = true := by
  obtain ⟨s, source, mem⟩ := mem_flatMap.mp mem
  exact distinct_listings (Data.distinct_field (distinct_described h source) _) mem

/-! ### Components -/

def describe (fallback : Data) (e : Listing) : Outcome Component :=
  component fallback (some e.kind) e.name e.content

def Describes (fallback : Data) (e : Listing) (c : Component) : Prop :=
  component fallback (some e.kind) e.name e.content = .ok c

/-- Entries of a content that are no attributes of its component. -/
def taken : List String :=
  ["count", "for_each", "depends_on", "lifecycle", "provisioners", "providers", "provider",
    "resource_type", "data_source", "module"]

namespace Listing

def entries (e : Listing) : Assoc Data := (e.content.map?).getD []

def system (e : Listing) : Data := Assoc.getD e.entries "os" (.str "")

def component (fallback : Data) (e : Listing) : Component :=
  let read := Assoc.getD e.entries
  {
    name := e.name
    kind := .str e.kind
    attributes := e.entries.filter fun entry => !taken.contains entry.1
    provider := read "provider" (read "providers" fallback)
    resourceType := read "resource_type" .null
    count := read "count" .null
    forEach := read "for_each" .null
    dependsOn := read "depends_on" (.list [])
    lifecycle := read "lifecycle" .null
    provisioners := read "provisioners" .null
    packageManager := .str (packageManager (Text.lower ((e.system.str?).getD "")))
    dataSource := read "data_source" (.bool false)
    module := read "module" (.bool false) }

end Listing

/-- Entries that are taken out of a content: without a section the content may name the kind itself.
-/
def takenFrom (kind : String) : List String :=
  if kind == "" then taken ++ ["component_type"] else taken

/-- Taking entries out one after the other reads each of them as the whole content has it. -/
theorem describe_map (fallback : Data) (kind name : String) (entries : Assoc Data) :
    describe fallback ⟨kind, name, .map entries⟩ = do
      let os ← (Assoc.getD entries "os" (.str "")).lower
      return {
        Listing.component fallback ⟨kind, name, .map entries⟩ with
        kind := if kind == "" then Assoc.getD entries "component_type" .null else .str kind
        attributes := Assoc.without entries (takenFrom kind)
        packageManager := .str (packageManager os) } := by
  unfold describe component takenFrom
  -- no key is taken out twice, so what was taken out before does not matter to a later one
  cases bare : kind == "" with
  | true =>
    simp only [Data.copied, Data.pop, ok_bind, pure_bind, Data.getD_map, bare, if_true]
    simp (disch := decide) only [getD_erase_of_ne]
    rfl
  | false =>
    simp only [Data.copied, Data.pop, ok_bind, pure_bind, Data.getD_map, bare,
      Bool.false_eq_true, if_false]
    simp (disch := decide) only [getD_erase_of_ne]
    rfl

structure Reads (entries : Assoc Data) (c : Component) : Prop where
  count : c.count = Assoc.getD entries "count" .null
  forEach : c.forEach = Assoc.getD entries "for_each" .null
  lifecycle : c.lifecycle = Assoc.getD entries "lifecycle" .null
  provisioners : c.provisioners = Assoc.getD entries "provisioners" .null
  /-- What a content has besides is an attribute, but for the section where the tree has none. -/
  attributes : ∃ names, c.attributes = Assoc.without entries names ∧ (∀ key ∈ taken, key ∈ names) ∧
    ∀ key ∈ names, key ∈ taken ∨ key = "component_type"

theorem reads_of_describes {fallback : Data} {c : Component} (h : Describes fallback e c) :
    ∃ entries, e.content = .map entries ∧ Reads entries c := by
  obtain ⟨kind, name, content⟩ := e
  cases content with
  | map entries =>
    obtain ⟨os, -, h⟩ := bind_eq_ok ((describe_map fallback kind name entries).symm.trans h)
    cases h
    refine ⟨entries, rfl, rfl, rfl, rfl, rfl, takenFrom kind, rfl, ?_⟩
    unfold takenFrom
    cases kind == "" <;> simp +contextual
  | _ => cases h

section Reads

variable {entries : Assoc Data} {c : Component} {key : String} (h : Reads entries c)

include h

theorem Reads.dropped (nodup : (Assoc.keys entries).Nodup) (mem : key ∈ taken) :
    get? c.attributes key = none := by
  obtain ⟨names, same, all, -⟩ := h.attributes
  rw [same]
  exact get?_without_of_mem nodup (all key mem)

theorem Reads.kept (other : key ∉ taken) (named : key ≠ "component_type") :
    get? c.attributes key = get? entries key := by
  obtain ⟨names, same, -, only⟩ := h.attributes
  rw [same]
  apply get?_without_of_notMem
  intro mem
  exact (only key mem).elim other named

theorem Reads.nodup (nodup : (Assoc.keys entries).Nodup) : (Assoc.keys c.attributes).Nodup := by
  obtain ⟨names, same, -⟩ := h.attributes
  rw [same]
  exact nodup_keys_without nodup names

end Reads

/-! ### Services -/

theorem forall₂_flatMap {α β γ : Type} {R : β → γ → Prop} {f : α → List β} {xs : List α}
    {yss : List (List γ)}
    (h : List.Forall₂ (fun x ys => List.Forall₂ R (f x) ys) xs yss) :
    List.Forall₂ R (xs.flatMap f) yss.flatten := by
  induction h with
  | nil => exact .nil
  | cons first _ ih =>
    rw [flatMap_cons, flatten_cons]
    exact rel_append first ih

theorem forall₂_comp {α β γ : Type} {R : α → β → Prop} {S : β → γ → Prop} {xs : List α}
    {ys : List β} {zs : List γ}
    (h : List.Forall₂ R xs ys)
    (h' : List.Forall₂ S ys zs) : List.Forall₂ (fun x z => ∃ y, R x y ∧ S y z) xs zs := by
  induction h generalizing zs with
  | nil =>
    cases h'
    exact .nil
  | cons first _ ih =>
    cases h' with
    | cons second later => exact .cons ⟨_, first, second⟩ (ih later)

variable {fallback : Data} {cs : List Component}

theorem sectionComponents_eq (fallback : Data) (kind : String) (d : Data) :
    sectionComponents fallback kind d = (sectionListings kind d).mapM (describe fallback) := by
  induction d using Data.nested with
  | inner items ih =>
    rw [sectionComponents, sectionListings]
    induction items with
    | nil => rfl
    | cons d rest later =>
      rw [sectionItems, sectionItemListings, mapM_append, ih d mem_cons_self,
        later fun d mem => ih d (mem_cons_of_mem _ mem)]
  | outer d flat =>
    cases d with
    | list items => cases flat
    | map entries =>
      rw [sectionComponents, sectionListings, mapM_map]
      rfl
    | _ => rfl

/-- A block is read entry by entry, whatever lists its entries stand in. -/
theorem infrastructure_eq (fallback d : Data) :
    infrastructure fallback d = (listings d).mapM (describe fallback) := by
  induction d using Data.nested with
  | inner items ih =>
    rw [infrastructure, listings]
    induction items with
    | nil => rfl
    | cons d rest later =>
      rw [infrastructureItems, itemListings, mapM_append, ih d mem_cons_self,
        later fun d mem => ih d (mem_cons_of_mem _ mem)]
  | outer d flat =>
    cases d with
    | list items => cases flat
    | map entries =>
      rw [infrastructure, listings]
      refine flatten_mapM (fun s => ?_) entries
      exact sectionComponents_eq fallback s.1 s.2
    | _ => rfl

theorem infrastructure_describes (h : infrastructure fallback d = .ok cs) :
    List.Forall₂ (Describes fallback) (listings d) cs := by
  rw [infrastructure_eq] at h
  exact mapM_eq_ok_iff.mp h

def setupOf (content : Data) : Outcome (Option Setup) :=
  if (content.field "configuration").holds then some <$> setup (content.field "configuration")
    else pure none

def containersOf (content : Data) : Outcome (List Container) :=
  if (content.field "containers").holds then containers (content.field "containers") else pure []

def deploymentOf (content : Data) : Data :=
  let d := deployment (Assoc.getD ((content.map?).getD []) "deployment" (.map []))
  if d.isMap then d else .null

theorem service_eq (fallback : Data) (name : String) (entries : Assoc Data) :
    service fallback name (.map entries) = do
      let components ← infrastructure fallback ((Data.map entries).field "infrastructure")
      let setup ← setupOf (.map entries)
      let containers ← containersOf (.map entries)
      return {
        name, infrastructure := components, setup, containers
        provider := Assoc.getD entries "provider" fallback
        backend := (Data.map entries).field "backend"
        workspace := (Data.map entries).field "workspace"
        deploymentOrder := Assoc.getD entries "deployment_order" (.list [])
        dependencies := Assoc.getD entries "dependencies" (.list [])
        deployment := deploymentOf (.map entries) } := by
  unfold service setupOf containersOf
  by_cases configured : ((Data.map entries).field "configuration").holds = true <;>
    by_cases contained : ((Data.map entries).field "containers").holds = true <;>
      cases found : (Data.map entries).field "infrastructure" <;>
        simp only [configured, contained, found, if_true, if_false, Bool.false_eq_true] <;> rfl

/-- Reading an entry makes a service. -/
structure Serves (fallback : Data) (e : String × Data) (s : Service) : Prop where
  components : List.Forall₂ (Describes fallback)
    (listings (e.2.field "infrastructure")) s.infrastructure
  containers : containersOf e.2 = .ok s.containers
  deployment : s.deployment = deploymentOf e.2

theorem serves_of_service {e : String × Data} {s : Service} (h : service fallback e.1 e.2 = .ok s) :
    Serves fallback e s := by
  obtain ⟨name, content⟩ := e
  cases content with
  | map entries =>
    rw [service_eq] at h
    obtain ⟨components, read, h⟩ := bind_eq_ok h
    obtain ⟨setup, _, h⟩ := bind_eq_ok h
    obtain ⟨containers, contained, h⟩ := bind_eq_ok h
    cases h
    exact ⟨infrastructure_describes read, contained, rfl⟩
  | _ => cases h

theorem serviceEntries_eq_ok {entries : Assoc Data} {found : List (Service × Data)}
    (h : serviceEntries fallback entries = .ok found) :
    List.Forall₂ (fun e r => Serves fallback e r.1 ∧ mappingsOf r.1 = .ok r.2) entries found := by
  induction entries generalizing found with
  | nil =>
    cases h
    exact .nil
  | cons e rest ih =>
    obtain ⟨name, content⟩ := e
    rw [serviceEntries] at h
    obtain ⟨s, read, h⟩ := bind_eq_ok h
    obtain ⟨mappings, mapped, h⟩ := bind_eq_ok h
    obtain ⟨others, run, last⟩ := bind_eq_ok h
    cases last
    exact .cons ⟨serves_of_service read, mapped⟩ (ih run)

/-! ### Providers -/

def IsProvider (label : String) (info : Data) : Prop :=
  ∃ type version config, info =
    .map [("type", type), ("alias", .str label), ("version", version), ("config", config)]

theorem isProvider_of_provider {label : String} {attributes info : Data}
    (h : provider label attributes = .ok info) :
    IsProvider label info := by
  obtain ⟨type, -, h⟩ := bind_eq_ok h
  obtain ⟨version, -, h⟩ := bind_eq_ok h
  obtain ⟨copy, -, h⟩ := bind_eq_ok h
  obtain ⟨⟨_, rest⟩, -, h⟩ := bind_eq_ok h
  obtain ⟨⟨_, config⟩, -, h⟩ := bind_eq_ok h
  cases h
  exact ⟨type, version, config, rfl⟩

def AllProviders (providers : Assoc Data) : Prop :=
  ∀ label info, (label, info) ∈ providers → IsProvider label info

theorem AllProviders.nil : AllProviders [] := by
  intro label info mem
  cases mem

theorem allProviders_of_providersIn {known entries providers : Assoc Data}
    (start : AllProviders known)
    (h : providersIn known entries = .ok providers) : AllProviders providers := by
  induction entries generalizing known with
  | nil =>
    cases h
    exact start
  | cons e rest ih =>
    obtain ⟨label, attributes⟩ := e
    rw [providersIn, foldlM_cons] at h
    obtain ⟨next, step, h⟩ := bind_eq_ok h
    refine ih ?_ h
    cases given : providerAttributes? attributes with
    | none =>
      simp only [given] at step
      cases step
      exact start
    | some attributes =>
      simp only [given] at step
      obtain ⟨info, read, last⟩ := bind_eq_ok step
      cases last
      intro label' info' mem
      rcases mem_of_mem_set mem with old | new
      · exact start label' info' old
      · cases new
        exact isProvider_of_provider read

theorem allProviders_of_providersOf {blocks : Data} {providers : Assoc Data}
    (h : providersOf blocks = .ok providers) :
    AllProviders providers := by
  cases blocks with
  | list items =>
    rw [providersOf] at h
    have start := AllProviders.nil
    revert start h
    generalize ([] : Assoc Data) = known
    intro h start
    induction items generalizing known with
    | nil =>
      cases h
      exact start
    | cons d rest ih =>
      rw [foldlM_cons] at h
      obtain ⟨next, step, h⟩ := bind_eq_ok h
      refine ih next h ?_
      cases d with
      | map entries => exact allProviders_of_providersIn start step
      | _ =>
        cases step
        exact start
  | map entries => exact allProviders_of_providersIn .nil h
  | _ =>
    cases h
    exact .nil

/-! ### Trees -/

def providersGiven (tree : Data) : Outcome (Assoc Data) := do
  if ← tree.has "providers" then providersOf (← tree.item "providers") else pure []

def onlyLabel : Assoc Data → Data
  | [(label, _)] => .str label
  | _ => .null

def servicesIn (fallback : Data) : Data → Outcome (List (Service × Data))
  | .map entries => serviceEntries fallback entries
  | _ => pure []

def concluded (providers : Assoc Data) (found : List (Service × Data)) : Outcome Landscape :=
  match found.getLast? with
  | some (_, mappings) => return ⟨found.map Prod.fst, providers, mappings⟩
  | none => .error (.unbound "mappings")

theorem ofTree_eq (tree : Data) : ofTree tree = (do
    let providers ← providersGiven tree
    let blocks ← tree.getD "service" (.list [])
    let found ← (serviceBlocks blocks).mapM (servicesIn (onlyLabel providers))
    concluded providers found.flatten) := by
  unfold ofTree providersGiven
  cases tree.has "providers" with
  | error fault => rfl
  | ok given =>
    cases given with
    | false => rfl
    | true =>
      cases tree.item "providers" with
      | error fault => rfl
      | ok blocks => rfl

/-- What is read of a tree: its providers, and one service with its mappings for each entry. -/
structure OfTree (tree : Data) (l : Landscape) (fallback : Data)
    (found : List (Service × Data)) : Prop where
  services : l.services = found.map Prod.fst
  entries : List.Forall₂ (fun e r => Serves fallback e r.1 ∧ mappingsOf r.1 = .ok r.2)
    (described tree) found
  mappings : ∃ s, found.getLast? = some (s, l.mappings)
  providers : providersGiven tree = .ok l.providers

theorem ofTree_eq_ok (h : ofTree tree = .ok l) : ∃ fallback found, OfTree tree l fallback found := by
  rw [ofTree_eq] at h
  obtain ⟨providers, given, h⟩ := bind_eq_ok h
  obtain ⟨blocks, asked, h⟩ := bind_eq_ok h
  obtain ⟨found, run, h⟩ := bind_eq_ok h
  have same : Assoc.getD ((tree.map?).getD []) "service" (.list []) = blocks := by
    cases tree with
    | map entries => exact Except.ok.inj asked
    | _ => cases asked
  have one (d : Data) (rs : List (Service × Data))
    (h : servicesIn (onlyLabel providers) d = .ok rs) :
      List.Forall₂ (fun e r => Serves (onlyLabel providers) e r.1 ∧ mappingsOf r.1 = .ok r.2)
        ((d.map?).getD []) rs := by
    cases d with
    | map entries => exact serviceEntries_eq_ok h
    | _ =>
      cases h
      exact .nil
  have entries : List.Forall₂
    (fun e r => Serves (onlyLabel providers) e r.1 ∧ mappingsOf r.1 = .ok r.2)
      (described tree) found.flatten := by
    rw [described, same]
    apply forall₂_flatMap
    exact (mapM_eq_ok_iff.mp run).imp one
  refine ⟨onlyLabel providers, found.flatten, ?_⟩
  unfold concluded at h
  split at h
  · next s mappings last =>
      cases h
      exact ⟨rfl, entries, ⟨s, last⟩, given⟩
  · cases h

theorem allProviders_of_ofTree (h : ofTree tree = .ok l) : AllProviders l.providers := by
  obtain ⟨fallback, found, all⟩ := ofTree_eq_ok h
  obtain ⟨given, -, h⟩ := bind_eq_ok all.providers
  cases given with
  | false =>
    rw [← Except.ok.inj h]
    exact .nil
  | true =>
    obtain ⟨blocks, -, h⟩ := bind_eq_ok h
    exact allProviders_of_providersOf h

end Landscape

end Stratus
