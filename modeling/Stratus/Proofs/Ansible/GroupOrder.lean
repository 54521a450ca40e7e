import Stratus.Proofs.Data.Parts
import Stratus.Ansible.Grouped

/-!
The order of grouped tasks. Each group that is named gives a block with its tasks, and one more
block has the tasks of all other groups.
-/
namespace Stratus.Ansible.Grouped

open List Outcome

section

variable {α κ : Type} (same : α → κ → Bool)

theorem flatMap_filter_singleton (x : α) (keys : List κ) :
    keys.flatMap (fun k => [x].filter (same · k)) = replicate (keys.countP (same x)) x := by
  induction keys with
  | nil => rfl
  | cons k keys ih =>
    rw [flatMap_cons, ih]
    cases here : same x k <;> simp [here, replicate_succ]

theorem replicate_append_filter (x : α) (keys : List κ) :
    replicate (keys.countP (same x)) x ++ [x].filter (fun x => !keys.any (same x)) =
      replicate (max 1 (keys.countP (same x))) x := by
  cases named : keys.any (same x) with
  | false =>
    have zero : keys.countP (same x) = 0 := countP_eq_zero.mpr (by simpa using named)
    simp [named, zero]
  | true =>
    have pos : 0 < keys.countP (same x) := countP_pos_iff.mpr (by simpa using named)
    rw [max_eq_right pos]
    simp [named]

/-- Elements taken key by key, those without a key last, occur as often as their key does, or once.
-/
theorem perm_replicate (xs : List α) (keys : List κ) :
    (keys.flatMap (fun k => xs.filter (same · k)) ++ xs.filter fun x => !keys.any (same x)).Perm
      (xs.flatMap fun x => replicate (max 1 (keys.countP (same x))) x) := by
  induction xs with
  | nil => simp
  | cons x xs ih =>
    have split := (flatMap_append_perm keys (fun k => [x].filter (same · k)) fun k =>
      xs.filter (same · k)).symm
    rw [flatMap_filter_singleton] at split
    simp only [← singleton_append (l := xs), filter_append, flatMap_append, flatMap_singleton]
    rw [← replicate_append_filter same x keys]
    refine (split.append_right _).trans ?_
    rw [append_assoc, append_assoc]
    exact ((perm_append_comm_assoc _ _ _).append_left _).trans ((ih.append_left _).append_left _)

end

def ofGroup (tasks : List GroupedTask) (g : Data) : List Data :=
  (tasks.filter fun t => t.1.same g).map Prod.snd

def unnamed (tasks : List GroupedTask) (groups : List Data) : List Data :=
  (tasks.filter fun t => !groups.any (Data.same t.1)).map Prod.snd

def blockOf (name : String) (tasks : List Data) : List Data :=
  if tasks.isEmpty then [] else [.map [("name", .str name), ("block", .list tasks)]]

theorem flatMap_walked_blockOf (name : String) (tasks : List Data) :
    (blockOf name tasks).flatMap (·.walked "block") = tasks := by
  cases tasks with
  | nil => rfl
  | cons first rest =>
    rw [blockOf, if_neg (by simp), flatMap_singleton]
    rfl

def title (g : Data) : String := Text.capitalize (Text.replace ((g.str?).getD "") "_" " ") ++ " tasks"

/-- All groups can be keys, and those that are named and have tasks are texts. -/
structure Sortable (tasks : List GroupedTask) (groups : List Data) : Prop where
  keys : ∀ g ∈ groups, g.hashable = true
  grouped : ∀ t ∈ tasks, t.1.hashable = true
  named : ∀ g ∈ groups, ofGroup tasks g = [] ∨ g.isStr = true

theorem Sortable.of_texts {tasks : List GroupedTask} {groups : List Data}
    (grouped : ∀ t ∈ tasks, t.1.hashable = true)
    (texts : ∀ g ∈ groups, g.isStr = true) : Sortable tasks groups where
  keys g mem := by
    have text := texts g mem
    cases g with
    | str s => rfl
    | _ => cases text
  grouped := grouped
  named g mem := .inr (texts g mem)

theorem forM_needHashable_iff {α : Type} {f : α → Data} {xs : List α} {u : Unit} :
    xs.forM (fun x => needHashable (f x)) = .ok u ↔ ∀ x ∈ xs, (f x).hashable = true := by
  induction xs with
  | nil => exact ⟨fun _ => by simp, fun _ => rfl⟩
  | cons x xs ih =>
    change (needHashable (f x) >>= fun _ => xs.forM fun x => needHashable (f x)) = .ok u ↔ _
    rw [bind_eq_ok_iff, forall_mem_cons, ← ih, needHashable]
    cases (f x).hashable <;> simp

def named (tasks : List GroupedTask) (g : Data) : Outcome (List Data) := do
  if (ofGroup tasks g).isEmpty then return []
  else
    let word := Text.capitalize (Text.replace (← g.strFor "replace") "_" " ")
    return [.map [("name", .str (word ++ " tasks")), ("block", .list (ofGroup tasks g))]]

theorem named_eq_ok_iff {tasks : List GroupedTask} {g : Data} {found : List Data} :
    named tasks g = .ok found ↔
    (ofGroup tasks g = [] ∨ g.isStr = true) ∧ found = blockOf (title g) (ofGroup tasks g) := by
  unfold named blockOf
  cases ofGroup tasks g with
  | nil =>
    constructor
    · intro run
      cases run
      exact ⟨.inl rfl, rfl⟩
    · rintro ⟨-, rfl⟩
      rfl
  | cons first rest =>
    cases g with
    | str s =>
      constructor
      · intro run
        cases run
        exact ⟨.inr rfl, rfl⟩
      · rintro ⟨-, rfl⟩
        rfl
    | _ =>
      constructor
      · intro run
        cases run
      · rintro ⟨impossible | impossible, -⟩ <;> cases impossible

theorem order_eq_ok_iff {tasks : List GroupedTask} {groups blocks : List Data} :
    order tasks (.list groups) = .ok blocks ↔ Sortable tasks groups ∧
      blocks = groups.flatMap (fun g => blockOf (title g) (ofGroup tasks g)) ++
        blockOf "Other tasks" (unnamed tasks groups) := by
  have each {found : List (List Data)} :=
    @Outcome.mapM_eq_ok_iff_map _ _ (named tasks) groups found _ _
    (fun g _ found => named_eq_ok_iff)
  constructor
  · intro run
    obtain ⟨_, walk, run⟩ := bind_eq_ok run
    cases walk
    obtain ⟨_, keys, run⟩ := bind_eq_ok run
    obtain ⟨_, grouped, run⟩ := bind_eq_ok run
    obtain ⟨found, made, last⟩ := bind_eq_ok run
    cases last
    obtain ⟨texts, rfl⟩ := each.mp made
    exact ⟨⟨forM_needHashable_iff.mp keys, forM_needHashable_iff.mp grouped,
      texts⟩, by rw [flatMap_def]; rfl⟩
  · rintro ⟨sortable, rfl⟩
    refine bind_eq_ok_iff.mpr ⟨groups, rfl, ?_⟩
    refine bind_eq_ok_iff.mpr ⟨(), forM_needHashable_iff.mpr sortable.keys, ?_⟩
    refine bind_eq_ok_iff.mpr ⟨(), forM_needHashable_iff.mpr sortable.grouped, ?_⟩
    refine bind_eq_ok_iff.mpr ⟨_, each.mpr ⟨sortable.named, rfl⟩, ?_⟩
    rw [flatMap_def]
    rfl

/-- Tasks can be ordered just if their groups allow it; the blocks hold, for each group in turn, its
tasks, and behind them the tasks of all other groups, so each task occurs as often as its group is
named, or once. -/
theorem order_keeps_tasks (tasks : List GroupedTask) (groups : List Data) :
    ((∃ blocks, order tasks (.list groups) = .ok blocks) ↔ Sortable tasks groups) ∧
    ∀ blocks, order tasks (.list groups) = .ok blocks →
      blocks.flatMap (·.walked "block") = groups.flatMap (ofGroup tasks) ++ unnamed tasks groups ∧
      (blocks.flatMap (·.walked "block")).Perm
        (tasks.flatMap fun t => replicate (max 1 (groups.countP t.1.same)) t.2) := by
  refine ⟨⟨?_, ?_⟩, ?_⟩
  · rintro ⟨blocks, run⟩
    exact (order_eq_ok_iff.mp run).1
  · intro sortable
    exact ⟨_, order_eq_ok_iff.mpr ⟨sortable, rfl⟩⟩
  · intro blocks run
    obtain ⟨-, rfl⟩ := order_eq_ok_iff.mp run
    have flat : (groups.flatMap (fun g => blockOf (title g) (ofGroup tasks g)) ++
        blockOf "Other tasks" (unnamed tasks groups)).flatMap (·.walked "block") =
        groups.flatMap (ofGroup tasks) ++ unnamed tasks groups := by
      rw [flatMap_append, flatMap_assoc]
      simp only [flatMap_walked_blockOf]
    refine ⟨flat, ?_⟩
    rw [flat]
    have perm := (perm_replicate (fun (t : GroupedTask) g => t.1.same g) tasks groups).map Prod.snd
    simp only [map_append, map_flatMap, map_replicate] at perm
    exact perm

namespace Sample

/-- Two tasks of a group that is named twice, between them one of a group that is not named. -/
def tasks : List GroupedTask := [
  (.str "setup", .map [("command", .str "a")]), (.null, .map [("command", .str "b")]),
  (.str "setup", .map [("command", .str "c")])]

def groups : List Data := [.str "setup", .str "checks", .str "setup"]

end Sample

theorem order_keeps_sample : Sortable Sample.tasks Sample.groups ∧
    ∃ blocks, order Sample.tasks (.list Sample.groups) = .ok blocks ∧
      (blocks.flatMap (·.walked "block")).map (·.at? [.key "command"]) =
        ["a", "c", "a", "c", "b"].map (some <| .str ·) ∧
      (blocks.flatMap (·.walked "block")).Perm
        (Sample.tasks.flatMap fun t => replicate (max 1 (Sample.groups.countP t.1.same)) t.2) :=
  ⟨.of_texts (by decide) (by decide), _, rfl, rfl,
    ((order_keeps_tasks Sample.tasks Sample.groups).2 _ rfl).2⟩

end Stratus.Ansible.Grouped
