import Stratus.Data.Access
import Stratus.Data.Tagged
import Stratus.Proofs.Assoc

/-!
Parts of values: what is found along a path, what a walk over an entry of a map visits and how deep
it stands, and the leaves of a value with their paths.
-/
namespace Stratus.Data

open List

inductive Step where
  | key (name : String)
  | index (i : Nat)

def step? : Data → Step → Option Data
  | map entries, .key name => Assoc.get? entries name
  | list items, .index i => items[i]?
  | _, _ => none

def at? : Data → List Step → Option Data
  | d, [] => some d
  | d, step :: path => (d.step? step).bind (at? · path)

theorem at?_append (d : Data) (path rest : List Step) :
    d.at? (path ++ rest) = (d.at? path).bind (at? · rest) := by
  induction path generalizing d with
  | nil => rfl
  | cons step path ih =>
    cases h : d.step? step with
    | none => simp [at?, h]
    | some inner => simp [at?, h, ih]

theorem at?_concat_eq_some_iff {d value : Data} {path : List Step} {step : Step} :
    d.at? (path ++ [step]) = some value ↔
      ∃ inner, d.at? path = some inner ∧ inner.step? step = some value := by
  rw [at?_append, Option.bind_eq_some_iff]
  simp [at?]

/-- The entries of a part of a map that is a map itself; none if there is no such part. -/
def part (d : Data) (name : String) : Assoc Data := ((d.at? [.key name]).bind map?).getD []

theorem at?_part (d : Data) (name key : String) (path : List Step) :
    d.at? (.key name :: .key key :: path) = (Assoc.get? (d.part name) key).bind (at? · path) := by
  unfold part
  simp only [at?]
  cases d.step? (.key name) with
  | none => rfl
  | some inner => cases inner <;> rfl

theorem item_eq_ok_iff {entries : Assoc Data} {key : String} {d : Data} :
    (Data.map entries).item key = .ok d ↔ Assoc.get? entries key = some d := by
  rw [item]
  cases Assoc.get? entries key with
  | none => simp
  | some v => simp

/-- Equality in which the entries of maps have no order, down to a depth. -/
def Alike : Nat → Data → Data → Prop
  | depth + 1, map a, map b => ∀ key, Option.Rel (Alike depth) (Assoc.get? a key) (Assoc.get? b key)
  | _, a, b => a = b

theorem depth_pos (d : Data) : 0 < d.depth := by
  cases d with
  | list items => exact Nat.succ_pos _
  | map entries => exact Nat.succ_pos _
  | _ => exact Nat.one_pos

variable {items : List Data} {entries : Assoc Data} {d : Data} {leaf : List Step × Data}

theorem depth_list_le_iff {n : Nat} : (list items).depth ≤ n ↔ 0 < n ∧ ∀ d ∈ items, d.depth < n := by
  rw [depth, Nat.succ_le_iff]
  induction items with
  | nil => simp [depthItems]
  | cons d rest ih =>
    rw [depthItems, max_lt_iff, ih, forall_mem_cons]
    tauto

theorem depth_lt_of_mem_entries {e : String × Data} (mem : e ∈ entries) :
    e.2.depth < (map entries).depth := by
  rw [depth, Nat.lt_succ_iff]
  induction entries with
  | nil => cases mem
  | cons first rest ih =>
    obtain ⟨key, d⟩ := first
    rw [depthEntries]
    rcases mem_cons.mp mem with rfl | later
    · exact le_max_left _ _
    · exact (ih later).trans (le_max_right _ _)

/-- Induction over the parts of a value. -/
theorem induct {P : Data → Prop} (list : ∀ items, (∀ d ∈ items, P d) → P (list items))
    (map : ∀ entries, (∀ e ∈ entries, P e.2) → P (map entries))
    (scalar : ∀ d, d.isList = false → d.isMap = false → P d) (d : Data) : P d := by
  cases d with
  | list items => exact list items fun d mem => induct list map scalar d
  | map entries => exact map entries fun e mem => induct list map scalar e.2
  | _ => exact scalar _ rfl rfl
termination_by d.depth
decreasing_by
  · exact (depth_list_le_iff.mp le_rfl).2 d mem
  · exact depth_lt_of_mem_entries mem

theorem depth_le_of_mem_elements {x : Data} (walk : d.elements = .ok items) (mem : x ∈ items) :
    x.depth ≤ d.depth := by
  cases d with
  | list own =>
    cases walk
    exact ((depth_list_le_iff.mp le_rfl).2 x mem).le
  | str s =>
    cases walk
    obtain ⟨c, -, rfl⟩ := mem_map.mp mem
    exact le_rfl
  | map entries =>
    cases walk
    obtain ⟨e, -, rfl⟩ := mem_map.mp mem
    exact depth_pos _
  | _ => cases walk

/-- What a walk over the value under a key visits. -/
def walked (d : Data) (key : String) : List Data :=
  ((d.step? (.key key)).bind fun v => v.elements.toOption).getD []

theorem walked_map_of_none {key : String} (absent : Assoc.get? entries key = none) :
    (map entries).walked key = [] := by
  rw [walked, step?, absent]
  rfl

theorem walked_map_of_some {key : String} {v : Data}
    (found : Assoc.get? entries key = some v)
    (walk : v.elements = .ok items) : (map entries).walked key = items := by
  rw [walked, step?, found, Option.bind_some, walk]
  rfl

theorem depth_lt_of_mem_walked {x : Data} {key : String} (mem : x ∈ d.walked key) :
    x.depth < d.depth := by
  cases d with
  | map entries =>
    cases found : Assoc.get? entries key with
    | none =>
      rw [walked_map_of_none found] at mem
      cases mem
    | some v =>
      cases walk : v.elements with
      | error fault =>
        rw [walked, step?, found, Option.bind_some, walk] at mem
        cases mem
      | ok items =>
        rw [walked_map_of_some found walk] at mem
        calc x.depth ≤ v.depth := depth_le_of_mem_elements walk mem
          _ < (map entries).depth := depth_lt_of_mem_entries (Assoc.mem_of_get? found)
  | _ => cases mem

def Step.isKey : Step → Bool
  | key _ => true
  | index _ => false

mutual

/-- The scalars of a value and its empty lists and maps, with their paths and in their order. -/
def leaves : Data → List (List Step × Data)
  | list items => if items.isEmpty then [([], list items)] else itemLeaves 0 items
  | map entries => if entries.isEmpty then [([], map entries)] else entryLeaves entries
  | d => [([], d)]

def itemLeaves (i : Nat) : List Data → List (List Step × Data)
  | [] => []
  | d :: rest =>
    (leaves d).map (fun leaf => (.index i :: leaf.1, leaf.2)) ++ itemLeaves (i + 1) rest

def entryLeaves : List (String × Data) → List (List Step × Data)
  | [] => []
  | (key, d) :: rest =>
    (leaves d).map (fun leaf => (.key key :: leaf.1, leaf.2)) ++ entryLeaves rest

end

theorem forall_leaves_list_iff {P : Data → Prop} (filled : items ≠ []) :
    (∀ leaf ∈ (list items).leaves, P leaf.2) ↔ ∀ d ∈ items, ∀ leaf ∈ d.leaves, P leaf.2 := by
  have each (i : Nat) : (∀ leaf ∈ itemLeaves i items, P leaf.2) ↔
      ∀ d ∈ items, ∀ leaf ∈ d.leaves, P leaf.2 := by
    clear filled
    induction items generalizing i with
    | nil => simp [itemLeaves]
    | cons d rest ih =>
      simp only [itemLeaves, forall_mem_append, forall_mem_map, ih, forall_mem_cons]
  rw [leaves, if_neg (by simpa using filled), each]

theorem forall_leaves_map_iff {P : Data → Prop} (filled : entries ≠ []) :
    (∀ leaf ∈ (map entries).leaves, P leaf.2) ↔ ∀ e ∈ entries, ∀ leaf ∈ e.2.leaves, P leaf.2 := by
  have each : (∀ leaf ∈ entryLeaves entries, P leaf.2) ↔
      ∀ e ∈ entries, ∀ leaf ∈ e.2.leaves, P leaf.2 := by
    clear filled
    induction entries with
    | nil => simp [entryLeaves]
    | cons e rest ih =>
      simp only [entryLeaves, forall_mem_append, forall_mem_map, ih, forall_mem_cons]
  rw [leaves, if_neg (by simpa using filled), each]

def onText (change : String → String) : Data → Data
  | str s => str (change s)
  | d => d

section Texts

variable {f : Bool → String → String} {g h : String → String}

theorem mapItems_eq (items : List Data) : mapItems f items = items.map (mapTexts f false) := by
  induction items with
  | nil => rfl
  | cons d rest ih => rw [mapItems, ih, map_cons]

theorem mapEntries_eq (entries : Assoc Data) :
    mapEntries f entries = Assoc.mapValues (mapTexts f true) entries := by
  induction entries with
  | nil => rfl
  | cons e rest ih =>
    rw [mapEntries, ih]
    rfl

/-- The leaves stay in their places. -/
theorem leaves_mapTexts (keyed : Bool) (d : Data) : (mapTexts f keyed d).leaves =
    d.leaves.map fun leaf => (leaf.1, leaf.2.onText (f (leaf.1.getLast?.elim keyed Step.isKey))) := by
  have below (step : Step) (path : List Step) (keyed : Bool) :
      (step :: path).getLast?.elim keyed Step.isKey = path.getLast?.elim step.isKey Step.isKey := by
    cases path <;> rfl
  induction d using induct generalizing keyed with
  | list items ih =>
    have each (i : Nat) : itemLeaves i (mapItems f items) = (itemLeaves i items).map fun leaf =>
        (leaf.1, leaf.2.onText (f (leaf.1.getLast?.elim keyed Step.isKey))) := by
      induction items generalizing i with
      | nil => rfl
      | cons d rest later =>
        obtain ⟨here, others⟩ := forall_mem_cons.mp ih
        simp [mapItems, itemLeaves, here, later others, below, Step.isKey]
    cases items with
    | nil => rfl
    | cons first rest => exact each 0
  | map entries ih =>
    have each : entryLeaves (mapEntries f entries) = (entryLeaves entries).map fun leaf =>
        (leaf.1, leaf.2.onText (f (leaf.1.getLast?.elim keyed Step.isKey))) := by
      induction entries with
      | nil => rfl
      | cons e rest later =>
        obtain ⟨here, others⟩ := forall_mem_cons.mp ih
        simp [mapEntries, entryLeaves, here, later others, below, Step.isKey]
    cases entries with
    | nil => rfl
    | cons first rest => exact each
  | scalar d flat flat' =>
    cases d with
    | list => cases flat
    | map => cases flat'
    | _ => rfl

theorem mapTexts_list (keyed : Bool) :
    mapTexts f keyed (list items) = list (items.map (mapTexts f false)) := by
  rw [mapTexts, mapItems_eq]

/-- A change that is the same everywhere does not ask for a key. -/
theorem mapTexts_keyed (keyed : Bool) :
    mapTexts (fun _ => g) keyed = mapTexts (fun _ => g) false := by
  funext d
  cases d <;> rfl

theorem mapTexts_map (keyed : Bool) :
    mapTexts (fun _ => g) keyed (map entries) =
      map (Assoc.mapValues (mapTexts (fun _ => g) false) entries) := by
  rw [mapTexts, mapEntries_eq, mapTexts_keyed]

theorem mapTexts_mapTexts (d : Data) :
    mapTexts (fun _ => g) false (mapTexts (fun _ => h) false d) =
      mapTexts (fun _ => g ∘ h) false d := by
  induction d using induct with
  | list items ih =>
    simp only [mapTexts_list, map_map, list.injEq]
    exact map_congr_left ih
  | map entries ih =>
    simp only [mapTexts_map, Assoc.mapValues, map_map, map.injEq]
    exact map_congr_left fun e mem => Prod.ext rfl (ih e mem)
  | scalar d flat flat' => cases d <;> simp_all [mapTexts, isList, isMap]

theorem mapTexts_congr {d : Data} (same : ∀ leaf ∈ d.leaves, leaf.2.onText g = leaf.2.onText h) :
    mapTexts (fun _ => g) false d = mapTexts (fun _ => h) false d := by
  induction d using induct with
  | list items ih =>
    cases items with
    | nil => rfl
    | cons first rest =>
      have same := (forall_leaves_list_iff (P := fun v => v.onText g = v.onText h)
        (cons_ne_nil _ _)).mp same
      rw [mapTexts_list, mapTexts_list]
      exact congrArg list (map_congr_left fun d mem => ih d mem (same d mem))
  | map entries ih =>
    cases entries with
    | nil => rfl
    | cons first rest =>
      have same := (forall_leaves_map_iff (P := fun v => v.onText g = v.onText h)
        (cons_ne_nil _ _)).mp same
      rw [mapTexts_map, mapTexts_map]
      exact congrArg map (map_congr_left fun e mem => Prod.ext rfl (ih e mem (same e mem)))
  | scalar d flat flat' =>
    cases d with
    | list => cases flat
    | map => cases flat'
    | str s => exact same ([], .str s) (mem_singleton_self _)
    | _ => rfl

end Texts

end Stratus.Data
