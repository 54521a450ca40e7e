import Stratus.Ansible.Plays
import Stratus.Proofs.Data.Parts

/-!
Tasks and blocks of plays. Writing a list makes one task or block of each entry that is not empty,
at all depths. A task keeps what its source says; a block keeps its sections and its name.
-/
namespace Stratus.Ansible.Plays

open Data hiding getD keys
open Assoc hiding set
open Outcome

def taskOf (source : Assoc Data) : Assoc Data :=
  ("name", getD source "name" (.str "Unnamed task")) ::
    (mapValues parameters (source.filter fun e => e.1 != "name" && !attributes.contains e.1) ++
      select source attributes)

theorem task?_map {source : Assoc Data} (filled : source ≠ []) :
    task? (.map source) = .ok (some (taskOf source)) := by
  cases source with
  | nil => exact absurd rfl filled
  | cons e rest => rfl

theorem holds_of_task? {d : Data} {t : Option (Assoc Data)} (run : task? d = .ok t) :
    d.holds = t.isSome := by
  unfold task? at run
  cases holds : d.holds with
  | false =>
    rw [holds] at run
    cases run
    rfl
  | true =>
    rw [holds] at run
    obtain ⟨name, -, run⟩ := Outcome.bind_eq_ok run
    obtain ⟨entries, -, run⟩ := Outcome.bind_eq_ok run
    cases run
    rfl

theorem exists_of_task? {d : Data} {t : Assoc Data} (run : task? d = .ok (some t)) :
    ∃ source, d = .map source ∧ t = taskOf source := by
  have holds : d.holds = true := holds_of_task? run
  cases d with
  | map source =>
    have filled : source ≠ [] := by
      rintro rfl
      cases holds
    rw [task?_map filled] at run
    cases run
    exact ⟨source, rfl, rfl⟩
  | _ =>
    unfold task? at run
    rw [holds] at run
    cases run

theorem get?_taskOf (source : Assoc Data) (key : String) : get? (taskOf source) key =
    if key = "name" then some (getD source "name" (.str "Unnamed task"))
    else if key ∈ attributes then get? source key else (get? source key).map parameters := by
  by_cases named : key = "name"
  · subst named
    rfl
  · rw [taskOf, get?, if_neg (by simpa using Ne.symm named), if_neg named, get?_append,
      get?_mapValues, get?_filter (fun k => k != "name" && !attributes.contains k), get?_select]
    by_cases own : key ∈ attributes
    · simp [own]
    · simp [own, named]

/-- A key of a task's module, which is neither its name nor one of its attributes. -/
def IsModule (key : String) : Prop := key ≠ "name" ∧ key ∉ attributes

/-- A written task has the keys of its source and a name, with the same values but for the one map
that a list of a module holds, which takes the place of the list. -/
structure Carries (source written : Assoc Data) : Prop where
  keys : ∀ key, key ∈ Assoc.keys written ↔ key = "name" ∨ key ∈ Assoc.keys source
  nodup : (Assoc.keys source).Nodup → (Assoc.keys written).Nodup
  kept : ∀ key v, get? source key = some v → (IsModule key → ∀ m, v ≠ .list [.map m]) →
    get? written key = some v
  opened : ∀ key m, IsModule key → get? source key = some (.list [.map m]) →
    get? written key = some (.map m)
  unnamed : "name" ∉ Assoc.keys source → get? written "name" = some (.str "Unnamed task")

theorem parameters_of_ne {v : Data} (other : ∀ m, v ≠ .list [.map m]) : parameters v = v := by
  unfold parameters
  split
  · next m => exact absurd rfl (other m)
  · rfl

theorem nodup_keys_taskOf {source : Assoc Data} (nodup : (Assoc.keys source).Nodup) :
    (Assoc.keys (taskOf source)).Nodup := by
  have modules : Assoc.keys (mapValues parameters
      (source.filter fun e => e.1 != "name" && !attributes.contains e.1)) =
      (Assoc.keys source).filter fun k => k != "name" && !attributes.contains k := by
    simp only [Assoc.keys, mapValues, List.map_map, List.filter_map]
    rfl
  rw [taskOf, keys_cons, Assoc.keys, List.map_append]
  change ("name" :: (Assoc.keys _ ++ Assoc.keys _)).Nodup
  rw [modules, keys_select, List.nodup_cons, List.nodup_append]
  refine ⟨by simp [attributes], nodup.filter _, List.Nodup.filter _ (by decide), ?_⟩
  intro key ours other given same
  subst same
  have free := (List.mem_filter.mp ours).2
  simp [(List.mem_filter.mp given).1] at free

theorem carries_taskOf (source : Assoc Data) : Carries source (taskOf source) where
  keys key := by
    rw [← contains_iff, ← contains_iff, contains, contains, get?_taskOf]
    by_cases named : key = "name"
    · simp [named]
    · by_cases own : key ∈ attributes <;> simp [named, own]
  nodup := nodup_keys_taskOf
  kept key v found other := by
    rw [get?_taskOf]
    by_cases named : key = "name"
    · subst named
      simp [getD, found]
    · by_cases own : key ∈ attributes
      · rw [if_neg named, if_pos own, found]
      · rw [if_neg named, if_neg own, found, Option.map_some, parameters_of_ne (other ⟨named, own⟩)]
  opened key m own found := by
    rw [get?_taskOf, if_neg own.1, if_neg own.2, found]
    rfl
  unnamed absent := by
    rw [get?_taskOf, if_pos rfl, getD, get?_eq_none_iff.mpr absent]
    rfl

variable {o : Option (List Data)} {inner : List Data}

abbrev Reader := List Data → Outcome (List Data)

def part (r : Reader) (entries : Assoc Data) (key : String) (read : Data → Outcome (List Data)) :
    Outcome (Option (List Data)) :=
  (get? entries key).elim (.ok none) fun v => do return some (← r (← read v))

def blockOf (name : Data) (inner rescue always : Option (List Data)) : Data :=
  let section_ (key : String) (items : Option (List Data)) :=
    (items.map fun items => (key, list items)).toList
  .map ([("name", name)] ++ section_ "block" inner ++ section_ "rescue" rescue ++
    section_ "always" always)

variable {r : Reader} {entries : Assoc Data} {key : String} {read : Data → Outcome (List Data)}

theorem block_map (r : Reader) (entries : Assoc Data) : block r (.map entries) = do
    let inner ← part r entries "block" blockTasks
    let rescue ← part r entries "rescue" elements
    let always ← part r entries "always" elements
    return blockOf (getD entries "name" (.str "Unnamed block")) inner rescue always := by
  have section_eq (key : String) (read : Data → Outcome (List Data)) :
      (do if ← (map entries).has key
          then return [(key, list (← r (← read (← (map entries).item key))))] else return []) =
        (fun o => (Option.map (fun items => (key, list items)) o).toList) <$>
          part r entries key read := by
    unfold part
    cases found : get? entries key with
    | none =>
      simp [Data.has, contains, found]
      rfl
    | some v =>
      simp [Data.has, contains, found, Data.item]
      rfl
  unfold block
  simp only [section_eq, bind_map_left]
  rfl

theorem part_eq_ok_iff : part r entries key read = .ok o ↔ get? entries key = none ∧ o = none ∨
      ∃ v inner out, get? entries key = some v ∧ read v = .ok inner ∧ r inner = .ok out ∧
        some out = o := by
  unfold part
  cases get? entries key with
  | none => simp [eq_comm]
  | some v => simp [bind_eq_ok_iff, map_eq_ok_iff]

variable {r' : Reader} {d b : Data} {items out : List Data}

theorem part_congr (same : ∀ v inner, get? entries key = some v → read v = .ok inner →
      r inner = r' inner) :
    part r entries key read = part r' entries key read := by
  unfold part
  cases found : get? entries key with
  | none => rfl
  | some v =>
    cases run : read v with
    | error fault =>
      simp only [Option.elim_some, run]
      rfl
    | ok inner => simp only [Option.elim_some, run, ok_bind, same v inner found run]

theorem walked_of_task (run :
      (do if ← d.has "task" then (← d.item "task").elements else return []) = .ok items) :
    items = d.walked "task" := by
  obtain ⟨named, has, run⟩ := bind_eq_ok run
  cases named with
  | false =>
    cases run
    cases d with
    | map entries =>
      cases found : get? entries "task" with
      | none => exact (walked_map_of_none found).symm
      | some v => simp [Data.has, contains, found] at has
    | _ => rfl
  | true =>
    obtain ⟨v, item, walk⟩ := bind_eq_ok run
    cases d with
    | map entries => exact (walked_map_of_some (item_eq_ok_iff.mp item) walk).symm
    | _ => cases item

theorem blockTasks_eq_ok (run : blockTasks d = .ok inner) :
    ∃ items, d.elements = .ok items ∧ inner = items.flatMap (·.walked "task") := by
  obtain ⟨items, walk, rest⟩ := bind_eq_ok run
  obtain ⟨found, each, last⟩ := bind_eq_ok rest
  cases last
  refine ⟨items, walk, ?_⟩
  rw [List.flatMap_def]
  congr 1
  replace each := (mapM_eq_ok_iff.mp each).imp fun d l => walked_of_task
  clear run rest walk
  induction each with
  | nil => rfl
  | cons first _ ih => rw [List.map_cons, first, ih]

/-! ### Depth of a run -/

/-- One entry of a task list, given how to read the tasks inside it. -/
def entry (r : Reader) (d : Data) : Outcome (List Data) := do
  if ← d.has "block" then return [← block r d]
  else return (← task? d).toList.map map

theorem block_congr (same : ∀ inner, (list inner).depth ≤ d.depth → r inner = r' inner) :
    block r d = block r' d := by
  cases d with
  | map entries =>
    have inside (key : String) {read : Data → Outcome (List Data)}
        (shallow : ∀ v inner, read v = .ok inner → ∀ x ∈ inner, x.depth ≤ v.depth) :
        part r entries key read = part r' entries key read := by
      refine part_congr fun v inner found run => same inner ?_
      refine depth_list_le_iff.mpr ⟨depth_pos _, fun x mem => ?_⟩
      exact (shallow v inner run x mem).trans_lt (depth_lt_of_mem_entries (mem_of_get? found))
    have walks (v : Data) (inner : List Data) (run : v.elements = .ok inner) :
        ∀ x ∈ inner, x.depth ≤ v.depth := fun x => depth_le_of_mem_elements run
    have lists (v : Data) (inner : List Data) (run : blockTasks v = .ok inner) :
        ∀ x ∈ inner, x.depth ≤ v.depth := by
      intro x mem
      obtain ⟨items, walk, rfl⟩ := blockTasks_eq_ok run
      obtain ⟨d, listed, below⟩ := List.mem_flatMap.mp mem
      exact (depth_lt_of_mem_walked below).le.trans (depth_le_of_mem_elements walk listed)
    rw [block_map, block_map, inside "block" lists, inside "rescue" walks, inside "always" walks]
  | _ => rfl

theorem entry_congr (same : ∀ inner, (list inner).depth ≤ d.depth → r inner = r' inner) :
    entry r d = entry r' d := by
  unfold entry
  rw [block_congr same]

/-- Depth beyond that of the list changes nothing. -/
theorem tasksWithin_congr {n m : Nat} (hn : (list items).depth ≤ n)
    (hm : (list items).depth ≤ m) : tasksWithin n items = tasksWithin m items := by
  induction n generalizing m items with
  | zero => exact absurd hn (Nat.not_le.mpr (depth_pos _))
  | succ n ih =>
    cases m with
    | zero => exact absurd hm (Nat.not_le.mpr (depth_pos _))
    | succ m =>
      have each : ∀ d ∈ items, entry (tasksWithin n) d = entry (tasksWithin m) d := by
        intro d mem
        refine entry_congr fun inner shallow => ih (shallow.trans ?_) (shallow.trans ?_)
        · exact Nat.lt_succ_iff.mp ((depth_list_le_iff.mp hn).2 d mem)
        · exact Nat.lt_succ_iff.mp ((depth_list_le_iff.mp hm).2 d mem)
      change (do return (← items.mapM (entry (tasksWithin n))).flatten) =
        (do return (← items.mapM (entry (tasksWithin m))).flatten)
      rw [mapM_congr each]

/-- The depth never runs out: tasks inside blocks are read as the tasks of any list. -/
theorem tasksIn_eq (items : List Data) :
    tasksIn items = do return (← items.mapM (entry tasksIn)).flatten := by
  have each : ∀ d ∈ items, entry (tasksWithin (list items).depth) d = entry tasksIn d := by
    intro d mem
    refine entry_congr fun inner shallow => tasksWithin_congr ?_ (Nat.le_succ _)
    exact shallow.trans ((depth_list_le_iff.mp le_rfl).2 d mem).le
  rw [← mapM_congr each]
  rfl

theorem tasksIn_eq_ok_iff : tasksIn items = .ok out ↔
    ∃ found, List.Forall₂ (fun d l => entry tasksIn d = .ok l) items found ∧ found.flatten = out := by
  rw [tasksIn_eq, bind_eq_ok_iff]
  simp only [mapM_eq_ok_iff, pure_eq_ok_iff]

theorem tasksIn_append {items' out' : List Data} (h : tasksIn items = .ok out)
    (h' : tasksIn items' = .ok out') : tasksIn (items ++ items') = .ok (out ++ out') := by
  obtain ⟨found, run, rfl⟩ := tasksIn_eq_ok_iff.mp h
  obtain ⟨found', run', rfl⟩ := tasksIn_eq_ok_iff.mp h'
  exact tasksIn_eq_ok_iff.mpr ⟨found ++ found', List.rel_append run run', List.flatten_append⟩

/-! ### Entries at all depths -/

/-- Whether an entry of a task list is a block. -/
def isBlock (d : Data) : Bool := (d.step? (.key "block")).isSome

theorem holds_of_isBlock (h : isBlock d = true) : d.holds = true := by
  cases d with
  | map entries =>
    cases entries with
    | nil => cases h
    | cons e rest => rfl
  | _ => cases h

/-- Where the entries inside a block stand. -/
structure Layout where
  below : Data → List Data
  shallower : ∀ {d x : Data}, x ∈ below d → x.depth < d.depth

namespace Layout

/-- An entry and all entries inside it, each block before what stands in it. -/
def walk (l : Layout) (d : Data) : List Data :=
  d :: if isBlock d then (l.below d).attach.flatMap fun x => l.walk x.1 else []
termination_by d.depth
decreasing_by exact l.shallower x.2

theorem walk_block (l : Layout) {d : Data} (h : isBlock d = true) :
    l.walk d = d :: (l.below d).flatMap l.walk := by
  rw [walk, if_pos h]
  simp

theorem walk_task (l : Layout) {d : Data} (h : isBlock d = false) : l.walk d = [d] := by
  rw [walk, if_neg (Bool.eq_false_iff.mp h)]

def walkAll (l : Layout) (items : List Data) : List Data := items.flatMap l.walk

def description : Layout where
  below d := (d.walked "block").flatMap (·.walked "task") ++ d.walked "rescue" ++ d.walked "always"
  shallower {d x} mem := by
    simp only [List.mem_append, List.mem_flatMap] at mem
    rcases mem with (⟨p, listed, below⟩ | below) | below
    · exact (depth_lt_of_mem_walked below).trans (depth_lt_of_mem_walked listed)
    · exact depth_lt_of_mem_walked below
    · exact depth_lt_of_mem_walked below

def playbook : Layout where
  below d := d.walked "block" ++ d.walked "rescue" ++ d.walked "always"
  shallower {d x} mem := by
    simp only [List.mem_append] at mem
    rcases mem with (below | below) | below <;> exact depth_lt_of_mem_walked below

end Layout

open Layout

/-- What is written for an entry: a block with all that is written for its sections, or a task. -/
inductive Written : Data → Data → Prop
  | block {d b : Data} (opens : isBlock d = true) (run : block tasksIn d = .ok b) : Written d b
  | task {d : Data} {t : Assoc Data} (plain : isBlock d = false) (run : task? d = .ok (some t)) :
      Written d (.map t)

theorem exists_of_block (run : block r d = .ok b) :
    ∃ entries inner rescue always, d = .map entries ∧ part r entries "block" blockTasks = .ok inner ∧
      part r entries "rescue" elements = .ok rescue ∧ part r entries "always" elements = .ok always ∧
      b = blockOf (getD entries "name" (.str "Unnamed block")) inner rescue always := by
  cases d with
  | map entries =>
    rw [block_map] at run
    obtain ⟨inner, inners, run⟩ := bind_eq_ok run
    obtain ⟨rescue, rescues, run⟩ := bind_eq_ok run
    obtain ⟨always, finals, run⟩ := bind_eq_ok run
    cases run
    exact ⟨entries, inner, rescue, always, rfl, inners, rescues, finals, rfl⟩
  | _ => cases run

theorem tasksIn_of_part (run : part tasksIn entries key read = .ok o)
    (absent : get? entries key = none → inner = [])
    (present : ∀ v items, get? entries key = some v → read v = .ok items → inner = items) :
    tasksIn inner = .ok (o.getD []) := by
  rcases part_eq_ok_iff.mp run with ⟨missing, rfl⟩ | ⟨v, items, out, found, walk, inside, rfl⟩
  · rw [absent missing]
    rfl
  · rw [present v items found walk, inside]
    rfl

theorem walked_blockOf (name : Data) (inner rescue always : Option (List Data)) :
    (blockOf name inner rescue always).walked "block" = inner.getD [] ∧
    (blockOf name inner rescue always).walked "rescue" = rescue.getD [] ∧
    (blockOf name inner rescue always).walked "always" = always.getD [] := by
  cases inner <;> cases rescue <;> cases always <;> exact ⟨rfl, rfl, rfl⟩

theorem tasksIn_below (run : block tasksIn d = .ok b) :
    tasksIn (description.below d) = .ok (playbook.below b) := by
  obtain ⟨entries, inner, rescue, always, rfl, inners, rescues, finals, rfl⟩ := exists_of_block run
  obtain ⟨hi, hr, ha⟩ := walked_blockOf
    (getD entries "name" (.str "Unnamed block")) inner rescue always
  simp only [description, playbook, hi, hr, ha]
  refine tasksIn_append (tasksIn_append ?_ ?_) ?_
  · refine tasksIn_of_part inners (fun missing => by rw [walked_map_of_none missing]; rfl)
      fun v items found listed => ?_
    obtain ⟨parts, walk, rfl⟩ := blockTasks_eq_ok listed
    rw [walked_map_of_some found walk]
  · exact tasksIn_of_part rescues walked_map_of_none fun v items => walked_map_of_some
  · exact tasksIn_of_part finals walked_map_of_none fun v items => walked_map_of_some

theorem isBlock_of_block (run : block r d = .ok b) : isBlock b = isBlock d := by
  obtain ⟨entries, inner, rescue, always, rfl, inners, -, -, rfl⟩ := exists_of_block run
  rcases part_eq_ok_iff.mp inners with ⟨missing, rfl⟩ | ⟨v, items, out, found, -, -, rfl⟩
  · cases rescue <;> cases always <;> simp [isBlock, step?, missing, blockOf, get?]
  · simp [isBlock, step?, found, blockOf, get?]

theorem isBlock_of_task? {t : Assoc Data} (plain : isBlock d = false) (run : task? d = .ok (some t)) :
    isBlock (.map t) = false := by
  obtain ⟨source, rfl, rfl⟩ := exists_of_task? run
  have absent : get? source "block" = none := by simpa [isBlock, step?] using plain
  simp [isBlock, step?, get?_taskOf, absent, attributes]

theorem Written.isBlock_eq {x : Data} (h : Written d x) : isBlock x = isBlock d := by
  cases h with
  | block _ run => exact isBlock_of_block run
  | task plain run => rw [plain, isBlock_of_task? plain run]

theorem entry_eq_ok {found : List Data} (run : entry r d = .ok found) :
    (isBlock d = true ∧ ∃ b, block r d = .ok b ∧ found = [b]) ∨
    (isBlock d = false ∧ ∃ t, task? d = .ok t ∧ found = t.toList.map map) := by
  obtain ⟨known, has, run⟩ := bind_eq_ok run
  cases known with
  | true =>
    obtain ⟨b, made, last⟩ := bind_eq_ok run
    cases last
    refine .inl ⟨?_, b, made, rfl⟩
    obtain ⟨entries, -, -, -, rfl, -⟩ := exists_of_block made
    exact Except.ok.inj has
  | false =>
    obtain ⟨t, made, last⟩ := bind_eq_ok run
    cases last
    refine .inr ⟨?_, t, made, rfl⟩
    cases d with
    | map entries => exact Except.ok.inj has
    | _ => rfl

theorem written_of_entry {found : List Data} (run : entry tasksIn d = .ok found)
    (inside : ∀ {items out}, (list items).depth ≤ d.depth → tasksIn items = .ok out →
      List.Forall₂ Written ((description.walkAll items).filter holds) (playbook.walkAll out)) :
    List.Forall₂ Written ((description.walk d).filter holds) (playbook.walkAll found) := by
  rcases entry_eq_ok run with ⟨opens, b, made, rfl⟩ | ⟨plain, t, made, rfl⟩
  · have shallow : (list (description.below d)).depth ≤ d.depth :=
      depth_list_le_iff.mpr ⟨depth_pos d, fun x => description.shallower⟩
    rw [walkAll, List.flatMap_singleton, walk_block _ opens,
      walk_block _ ((isBlock_of_block made).trans opens),
      List.filter_cons_of_pos (holds_of_isBlock opens)]
    exact .cons (.block opens made) (inside shallow (tasksIn_below made))
  · rw [walk_task _ plain]
    cases t with
    | none =>
      rw [List.filter_cons_of_neg (by simp [holds_of_task? made])]
      exact .nil
    | some t =>
      rw [List.filter_cons_of_pos (holds_of_task? made), walkAll, Option.toList_some,
        List.map_singleton, List.flatMap_singleton, walk_task _ (isBlock_of_task? plain made)]
      exact .cons (.task plain made) .nil

/-- All entries of a list are written in order, at all depths; those that are empty are left out. -/
theorem written_of_tasksIn (run : tasksIn items = .ok out) :
    List.Forall₂ Written ((description.walkAll items).filter holds) (playbook.walkAll out) := by
  -- on the depth of the list: what a block holds is a list of less depth
  induction bound : (list items).depth using Nat.strong_induction_on generalizing items out with
  | _ n ih =>
    obtain ⟨found, each, rfl⟩ := tasksIn_eq_ok_iff.mp run
    have shallow : ∀ d ∈ items, d.depth < n := (depth_list_le_iff.mp bound.le).2
    have entries : List.Forall₂ (fun d l =>
        List.Forall₂ Written ((description.walk d).filter holds) (playbook.walkAll l))
          items found := by
      refine ((List.forall₂_and_left items found).mpr ⟨shallow, each⟩).imp fun d l ⟨less, made⟩ =>
        written_of_entry made ?_
      intro items out smaller run
      exact ih _ (smaller.trans_lt less) run rfl
    clear run each shallow bound
    induction entries with
    | nil => exact .nil
    | cons first _ ih =>
      rw [walkAll, List.flatMap_cons, List.filter_append, List.flatten_cons, walkAll,
        List.flatMap_append]
      exact List.rel_append first ih

namespace Layout

def tasks (l : Layout) (items : List Data) : List Data := (l.walkAll items).filter fun d => !isBlock d

def blocks (l : Layout) (items : List Data) : List Data := (l.walkAll items).filter isBlock

end Layout

/-- Blocks are written for blocks and tasks for tasks, so either kind has its own correspondence. -/
theorem Written.filter {xs ys : List Data} (h : List.Forall₂ Written xs ys) (kind : Bool → Bool) :
    List.Forall₂ (fun d x => kind (isBlock d) = true ∧ Written d x)
      (xs.filter fun d => kind (isBlock d)) (ys.filter fun x => kind (isBlock x)) := by
  induction h with
  | nil => exact .nil
  | @cons d x _ _ first _ ih =>
    cases keep : kind (isBlock d) with
    | false =>
      rw [List.filter_cons_of_neg (by simp [keep]),
        List.filter_cons_of_neg (by simp [first.isBlock_eq, keep])]
      exact ih
    | true =>
      rw [List.filter_cons_of_pos (by simp [keep]),
        List.filter_cons_of_pos (by simp [first.isBlock_eq, keep])]
      exact .cons ⟨keep, first⟩ ih

/-- The plain tasks that are written for a list are, in order, those of its plain tasks that are not
empty, and each carries what its source says. -/
theorem tasksIn_keeps_tasks {items out : List Data} (run : tasksIn items = .ok out) :
    ((description.tasks items).filter holds).mapM task? = .ok ((playbook.tasks out).map map?) ∧
    List.Forall₂ (fun d x => ∃ source written, d = .map source ∧ x = .map written ∧
      Carries source written)
      ((description.tasks items).filter holds) (playbook.tasks out) := by
  have tasks : List.Forall₂ (fun d x => ∃ t, task? d = .ok (some t) ∧ x = .map t)
      ((description.tasks items).filter holds) (playbook.tasks out) := by
    rw [Layout.tasks, List.filter_comm]
    refine (Written.filter (written_of_tasksIn run) Bool.not).imp ?_
    rintro d x ⟨plain, written⟩
    cases written with
    | block opens => simp [opens] at plain
    | task _ made => exact ⟨_, made, rfl⟩
  constructor
  · rw [mapM_eq_ok_iff, List.forall₂_map_right_iff]
    refine tasks.imp ?_
    rintro d x ⟨t, made, rfl⟩
    exact made
  · refine tasks.imp ?_
    rintro d x ⟨t, made, rfl⟩
    obtain ⟨source, rfl, rfl⟩ := exists_of_task? made
    exact ⟨source, _, rfl, rfl, carries_taskOf source⟩

namespace Sample

/-- A block inside a block, empty tasks, parts without tasks and a module with a list of one map. -/
def release : List Data := [
  .map [("block", .list [
      .map [("task", .list [.map [("name", .str "install"),
        ("package", .list [.map [("name", .str "nginx")]]),
        ("when", .list [.map []])], .map []])],
      .str "gap",
      .map [("task", .list [.map [("block", .str ""),
        ("always", .list [.map [("debug", .int 1)]])]])]]),
    ("rescue", .list [.map [("command", .str "undo")]])],
  .map [("shell", .str "ls"), ("rescue", .null)]]

end Sample

theorem tasksIn_keeps_release : ∃ out, tasksIn Sample.release = .ok out ∧
    ((description.tasks Sample.release).filter holds).map Data.keys =
      [.ok ["name", "package", "when"], .ok ["debug"], .ok ["command"], .ok ["shell", "rescue"]] ∧
    ((description.tasks Sample.release).filter holds).mapM task? =
      .ok ((playbook.tasks out).map map?) ∧
    List.Forall₂ (fun d x => ∃ source written, d = .map source ∧ x = .map written ∧
      Carries source written)
      ((description.tasks Sample.release).filter holds) (playbook.tasks out) :=
  ⟨_, rfl, by cbv, tasksIn_keeps_tasks rfl⟩

/-! ### Attributes of blocks -/

/-- The keys of a block under which further entries stand. -/
def sections : List String := ["block", "rescue", "always"]

/-- Of the entries of a block that are no sections, just the name is written. -/
def KeepsName (d b : Data) : Prop := ∀ key v, key ∉ sections → d.at? [.key key] = some v →
  (b.at? [.key key] = some v ↔ key = "name")

theorem at?_blockOf {key : String} (other : key ∉ sections) (name : Data)
    (inner rescue always : Option (List Data)) :
    (blockOf name inner rescue always).at? [.key key] = if key = "name" then some name else none := by
  simp only [sections, List.mem_cons, List.not_mem_nil, or_false, not_or] at other
  obtain ⟨hb, hr, ha⟩ := other
  by_cases named : key = "name"
  · subst named
    rfl
  · have absent : get? ([("name", name)] ++ (inner.map fun items => ("block", list items)).toList ++
        (rescue.map fun items => ("rescue", list items)).toList ++
        (always.map fun items => ("always", list items)).toList) key = none := by
      rw [get?_eq_none_iff]
      cases inner <;> cases rescue <;> cases always <;> simp [keys, named, hb, hr, ha]
    rw [if_neg named, Data.at?, blockOf, step?, absent]
    rfl

theorem keepsName_of_block (run : block r d = .ok b) : KeepsName d b := by
  obtain ⟨entries, inner, rescue, always, rfl, -, -, -, rfl⟩ := exists_of_block run
  intro key v other found
  rw [at?_blockOf other]
  constructor
  · intro written
    by_contra unnamed
    rw [if_neg unnamed] at written
    cases written
  · rintro rfl
    have given : get? entries "name" = some v := by simpa [Data.at?, step?] using found
    rw [if_pos rfl, getD, given]
    rfl

/-- A block keeps of its attributes just the name, and so does each block of a list, at all depths.
-/
theorem block_keeps_iff_name (r : Reader) (d : Data) (items : List Data) :
    (∀ b, block r d = .ok b → KeepsName d b) ∧
    ∀ out, tasksIn items = .ok out →
      List.Forall₂ KeepsName (description.blocks items) (playbook.blocks out) := by
  refine ⟨fun b => keepsName_of_block, fun out run => ?_⟩
  have filled : (description.blocks items).filter holds = description.blocks items :=
    List.filter_eq_self.mpr fun d mem => holds_of_isBlock (List.mem_filter.mp mem).2
  rw [← filled, blocks, List.filter_comm]
  refine (Written.filter (written_of_tasksIn run) id).imp ?_
  rintro d x ⟨kind, written⟩
  cases written with
  | block _ made => exact keepsName_of_block made
  | task plain => simp [plain] at kind

namespace Sample

def guarded : Data := .map [
  ("name", .str "outer"), ("when", .str "ready"), ("block", .list [.map [("task", .list [
    .map [("name", .str "inner"), ("become", .bool true), ("block", .list [])]])]])]

end Sample

theorem tasksIn_keeps_names : ∃ out, tasksIn [Sample.guarded] = .ok out ∧
    (description.blocks [Sample.guarded]).map Data.keys =
    [.ok ["name", "when", "block"], .ok ["name", "become", "block"]] ∧
    List.Forall₂ KeepsName (description.blocks [Sample.guarded]) (playbook.blocks out) :=
  ⟨_, rfl, by cbv, (block_keeps_iff_name tasksIn Sample.guarded [Sample.guarded]).2 _ rfl⟩

/-- The condition of a block is lost. -/
theorem condition_lost : ∃ b, block tasksIn Sample.guarded = .ok b ∧
    Sample.guarded.at? [.key "when"] = some (.str "ready") ∧ b.at? [.key "when"] = none :=
  ⟨_, rfl, rfl, rfl⟩

end Stratus.Ansible.Plays
