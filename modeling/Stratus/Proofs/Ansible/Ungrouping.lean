import Stratus.Proofs.Ansible.GroupOrder
import Stratus.Proofs.Text.Split

/-!
Groups are left out of playbooks. Tasks carry their group until they are in order, under a key that
modules use for parameters of their own.
-/
namespace Stratus.Ansible.Grouped

open List hiding contains getD keys keys_cons
open Assoc hiding set

open Outcome

variable {tasks : List GroupedTask} {key : String}

def sections : List String := ["block", "rescue", "always"]

mutual

/-- The tasks of a value that stands where tasks do, with all tasks inside them. A map there counts
as a task. -/
def allTasks : Data → List (Assoc Data)
  | .list items => itemTasks items
  | .map t => t :: sectionTasks t
  | _ => []

def itemTasks : List Data → List (Assoc Data)
  | [] => []
  | d :: rest => (if d.isMap then allTasks d else []) ++ itemTasks rest

def sectionTasks : List (String × Data) → List (Assoc Data)
  | [] => []
  | (key, d) :: rest => (if key ∈ sections then allTasks d else []) ++ sectionTasks rest

end

variable {u entries p : Assoc Data} {m : String} {params d : Data} {s : Service}

theorem mem_itemTasks_iff {items : List Data} :
    u ∈ itemTasks items ↔ ∃ t, .map t ∈ items ∧ u ∈ allTasks (.map t) := by
  induction items with
  | nil => simp [itemTasks]
  | cons d rest ih =>
    rw [itemTasks, mem_append, ih]
    cases d <;> simp [Data.isMap, or_and_right, exists_or]

theorem mem_sectionTasks_iff :
    u ∈ sectionTasks entries ↔ ∃ e ∈ entries, e.1 ∈ sections ∧ u ∈ allTasks e.2 := by
  induction entries with
  | nil => simp [sectionTasks]
  | cons e rest ih =>
    obtain ⟨key, d⟩ := e
    rw [sectionTasks, mem_append, ih]
    by_cases known : key ∈ sections <;> simp [known]

theorem sectionTasks_eq_nil (plain : ∀ e ∈ entries, e.1 ∉ sections) : sectionTasks entries = [] := by
  rw [eq_nil_iff_forall_not_mem]
  intro u mem
  obtain ⟨e, inside, known, -⟩ := mem_sectionTasks_iff.mp mem
  exact plain e inside known

/-! ### What is left out -/

/-- What an entry becomes: only the tasks inside it can change. -/
def Kept (e e' : String × Data) : Prop := e'.1 = e.1 ∧ (e.1 ∉ sections → e'.2 = e.2)

theorem keys_of_kept {m m' : Assoc Data} (h : List.Forall₂ Kept m m') : keys m' = keys m := by
  induction h with
  | nil => rfl
  | cons first _ ih => rw [keys_cons, keys_cons, first.1, ih]

theorem get?_of_kept {m m' : Assoc Data} (h : List.Forall₂ Kept m m') (own : key ∉ sections) :
    get? m' key = get? m key := by
  induction h with
  | nil => rfl
  | @cons e e' rest rest' first _ ih =>
    obtain ⟨k, v⟩ := e
    obtain ⟨k', v'⟩ := e'
    obtain ⟨rfl, kept⟩ := first
    rw [get?, get?, ih]
    by_cases here : k' = key
    · subst here
      have value : v' = v := kept own
      rw [value]
    · simp [here]

/-- A task before and after its group is left out. All other entries are kept in their order. -/
def Cleared (t t' : Assoc Data) : Prop := List.Forall₂ Kept (t.filter (·.1 != "group")) t'

namespace Cleared

variable {t : Assoc Data}

theorem group_notMem {t' : Assoc Data} (h : Cleared t t') : "group" ∉ keys t' := by
  rw [keys_of_kept h]
  simp [keys]

theorem get? {t' : Assoc Data} (h : Cleared t t') {key : String} (other : key ≠ "group")
    (own : key ∉ sections) :
    get? t' key = get? t key := by
  rw [get?_of_kept h own, get?_filter (· != "group"), if_pos (by simpa using other)]

theorem refl_of_clear (clear : "group" ∉ keys t) : Cleared t t := by
  have all : t.filter (·.1 != "group") = t := by
    rw [filter_eq_self]
    intro e mem
    rw [bne_iff_ne]
    intro same
    exact clear (same ▸ mem_map_of_mem mem)
  rw [Cleared, all]
  exact forall₂_same.mpr fun e _ => ⟨rfl, fun _ => rfl⟩

end Cleared

theorem refuseParts_eq_ok {parts : List String} {u : Unit} (run : refuseParts parts = .ok u) :
    ∀ part ∈ parts, part ≠ "group" ∧ part ∉ sections := by
  induction parts with
  | nil => simp
  | cons part rest ih =>
    obtain ⟨_, here, later⟩ := bind_eq_ok run
    refine forall_mem_cons.mpr ⟨⟨?_, ?_⟩, ih later⟩
    · rintro rfl
      cases here
    · intro known
      simp only [sections, mem_cons, not_mem_nil, or_false] at known
      rcases known with rfl | rfl | rfl <;> cases here

/-- An entry with what became of its value. -/
def Gives (e : String × Outcome Data) (e' : String × Data) : Prop := e.1 = e'.1 ∧ e.2 = .ok e'.2

theorem gives_of_inOrder {results : Assoc (Outcome Data)} (run : inOrder results = .ok entries) :
    List.Forall₂ Gives results entries := by
  obtain ⟨_, -, run⟩ := bind_eq_ok run
  refine (mapM_eq_ok_iff.mp run).imp fun e e' one => ?_
  obtain ⟨d, given, last⟩ := bind_eq_ok one
  cases last
  exact ⟨rfl, given⟩

mutual

theorem cleared_of_ungroup {d d' : Data} (run : ungroup d = .ok d') :
    List.Forall₂ Cleared (allTasks d) (allTasks d') := by
  cases d with
  | list items =>
    rw [ungroup] at run
    obtain ⟨items', each, rfl⟩ := map_eq_ok run
    exact cleared_of_ungroupItems each
  | str s =>
    rw [ungroup] at run
    obtain ⟨_, -, last⟩ := bind_eq_ok run
    cases last
    exact .nil
  | map entries =>
    -- The map is walked as a sequence of its keys, so that it stays as it is, and is refused if it
    -- has a group.
    rw [ungroup] at run
    obtain ⟨_, parts, last⟩ := bind_eq_ok run
    cases last
    have plain := refuseParts_eq_ok parts
    have none := sectionTasks_eq_nil fun e mem => (plain e.1 (mem_map_of_mem mem)).2
    rw [allTasks, none]
    exact .cons (.refl_of_clear fun mem => (plain _ mem).1 rfl) .nil
  | _ => cases run

theorem cleared_of_ungroupItems {items items' : List Data} (run : ungroupItems items = .ok items') :
    List.Forall₂ Cleared (itemTasks items) (itemTasks items') := by
  cases items with
  | nil =>
    cases run
    exact .nil
  | cons d rest =>
    cases d with
    | map entries =>
      rw [ungroupItems] at run
      obtain ⟨entries', first, run⟩ := bind_eq_ok run
      obtain ⟨rest', later, last⟩ := bind_eq_ok run
      cases last
      obtain ⟨own, inner⟩ := cleared_of_ungroupEntries (gives_of_inOrder first)
      exact rel_append (.cons own inner) (cleared_of_ungroupItems later)
    | _ =>
      obtain ⟨_, -, run⟩ := bind_eq_ok run
      obtain ⟨rest', later, last⟩ := bind_eq_ok run
      cases last
      have tasks := cleared_of_ungroupItems later
      exact tasks

theorem cleared_of_ungroupEntries {entries entries' : Assoc Data}
    (run : List.Forall₂ Gives (ungroupEntries entries) entries') :
    Cleared entries entries' ∧ List.Forall₂ Cleared (sectionTasks entries)
      (sectionTasks entries') := by
  cases entries with
  | nil =>
    cases run
    exact ⟨.nil, .nil⟩
  | cons e rest =>
    obtain ⟨key, d⟩ := e
    rw [ungroupEntries] at run
    by_cases marker : key = "group"
    · subst marker
      rw [if_pos (by simp)] at run
      have tasks := cleared_of_ungroupEntries run
      exact tasks
    rw [if_neg (by simpa using marker)] at run
    by_cases known : key ∈ sections
    · rw [if_pos (by simpa [sections, or_assoc] using known)] at run
      obtain ⟨⟨_, d'⟩, rest', ⟨rfl, inside⟩, later, rfl⟩ := forall₂_cons_left_iff.mp run
      obtain ⟨own, inner⟩ := cleared_of_ungroupEntries later
      rw [sectionTasks, sectionTasks, if_pos known, if_pos known]
      refine ⟨?_, rel_append (cleared_of_ungroup inside) inner⟩
      rw [Cleared, filter_cons_of_pos (by simpa using marker)]
      exact .cons ⟨rfl, fun own => absurd known own⟩ own
    · rw [if_neg (by simpa [sections, or_assoc] using known)] at run
      obtain ⟨⟨_, d'⟩, rest', ⟨rfl, same⟩, later, rfl⟩ := forall₂_cons_left_iff.mp run
      obtain rfl : d = d' := Except.ok.inj same
      obtain ⟨own, inner⟩ := cleared_of_ungroupEntries later
      rw [sectionTasks, sectionTasks, if_neg known]
      refine ⟨?_, inner⟩
      rw [Cleared, filter_cons_of_pos (by simpa using marker)]
      exact .cons ⟨rfl, fun _ => rfl⟩ own

end

theorem mem_allTasks_blockOf {tasks : List Data} {t : Assoc Data} (mem : .map t ∈ tasks)
    (inside : u ∈ allTasks (.map t)) (name : String) : u ∈ itemTasks (blockOf name tasks) := by
  rw [blockOf, if_neg (by simpa using ne_nil_of_mem mem), mem_itemTasks_iff]
  refine ⟨_, mem_singleton_self _, mem_cons_of_mem _ ?_⟩
  refine mem_sectionTasks_iff.mpr ⟨("block", .list tasks), by simp, mem_cons_self, ?_⟩
  exact mem_itemTasks_iff.mpr ⟨t, mem, inside⟩

theorem itemTasks_append (items items' : List Data) :
    itemTasks (items ++ items') = itemTasks items ++ itemTasks items' := by
  induction items with
  | nil => rfl
  | cons d rest ih => rw [cons_append, itemTasks, ih, itemTasks, append_assoc]

theorem mem_itemTasks_of_order {groups : Data} {blocks : List Data}
    (run : order tasks groups = .ok blocks) {g : Data} {t : Assoc Data} (mem : (g, .map t) ∈ tasks)
    (inside : u ∈ allTasks (.map t)) : u ∈ itemTasks blocks := by
  obtain ⟨names, walk, run⟩ := bind_eq_ok run
  have listed : order tasks (.list names) = .ok blocks := run
  obtain ⟨-, rfl⟩ := order_eq_ok_iff.mp listed
  rw [itemTasks_append, mem_append]
  cases known : names.any (Data.same g) with
  | true =>
    obtain ⟨name, here, same⟩ := any_eq_true.mp known
    have own : .map t ∈ ofGroup tasks name :=
      mem_map.mpr ⟨(g, .map t), mem_filter.mpr ⟨mem, same⟩, rfl⟩
    obtain ⟨b, block, within⟩ := mem_itemTasks_iff.mp (mem_allTasks_blockOf own inside (title name))
    exact .inl (mem_itemTasks_iff.mpr ⟨b, mem_flatMap.mpr ⟨name, here, block⟩, within⟩)
  | false =>
    have own : .map t ∈ unnamed tasks names :=
      mem_map.mpr ⟨(g, .map t), mem_filter.mpr ⟨mem, by simp [known]⟩, rfl⟩
    exact .inr (mem_allTasks_blockOf own inside _)

/-! ### Tasks of a set-up -/

/-- The parameters that a set-up gives to modules: those of its copies, of its own tasks and those
inside them, of its verifications and its commands. -/
inductive Uses (s : Setup) : String → Data → Prop
  | file {files content : Assoc Data} {path : String} (listed : s.files = .map files)
      (mem : (path, .map content) ∈ files) :
      Uses s "copy" (.map (("dest", .str path) ::
        select content ["content", "template", "mode", "owner", "group"]))
  | task {items : List Data} {t : Assoc Data} {m : String} {params : Data}
      (listed : s.tasks = .list items)
      (mem : t ∈ itemTasks items) (found : get? t m = some params) (other : m ≠ "group")
      (own : m ∉ sections) : Uses s m params
  | verification {items : List Data} {v : Assoc Data} {m : String}
      (listed : s.verifications = .list items)
      (mem : .map v ∈ items) (module : getD v "module" (.str "command") = .str m)
      (other : m ∉ verificationKeys) (own : m ∉ sections) :
      Uses s m (.map (v.filter fun e => !verificationKeys.contains e.1))
  | command {items : List Data} {c : Assoc Data} {params : Data} (listed : s.commands = .list items)
      (mem : .map c ∈ items) (found : get? c "command" = some params) : Uses s "command" params

theorem Uses.isModule {s : Setup} (uses : Uses s m params) : m ≠ "group" ∧ m ∉ sections := by
  cases uses with
  | file | command => decide
  | task _ _ _ other own => exact ⟨other, own⟩
  | verification _ _ _ other own =>
    refine ⟨?_, own⟩
    rintro rfl
    exact other (by decide)

theorem present_map (entries : Assoc Data) (keys : List String) :
    present (.map entries) keys = .ok (select entries keys) := by
  rw [select, filterMap_eq_flatMap_toList, flatMap_def]
  refine bind_eq_ok_iff.mpr ⟨_,
    (mapM_eq_ok_iff_map fun key _ y => ?_).mpr ⟨fun _ _ => trivial, rfl⟩, rfl⟩
  simp only [Data.has, Data.item, contains, ok_bind]
  cases get? entries key with
  | none => exact ⟨fun run => by cases run; exact ⟨trivial, rfl⟩, fun same => same.2 ▸ rfl⟩
  | some d => exact ⟨fun run => by cases run; exact ⟨trivial, rfl⟩, fun same => same.2 ▸ rfl⟩

theorem get?_dropNulls (found : get? entries key = some d)
    (filled : d.isNull = false) : get? (Data.dropNulls entries) key = some d := by
  induction entries with
  | nil => cases found
  | cons e rest ih =>
    obtain ⟨k, v⟩ := e
    rw [get?] at found
    by_cases here : k = key
    · subst here
      rw [if_pos (by simp), Option.some.injEq] at found
      subst found
      simp [Data.dropNulls, filled, get?]
    · rw [if_neg (by simpa using here)] at found
      rw [Data.dropNulls, filter_cons]
      split
      · rw [get?, if_neg (by simpa using here)]
        exact ih found
      · exact ih found

theorem get?_file {path : String} {content : Assoc Data} (run : file path (.map content) = .ok d) :
    ∃ t, d = .map t ∧ get? t "copy" = some (.map (("dest", .str path) ::
      select content ["content", "template", "mode", "owner", "group"])) := by
  rw [file] at run
  simp only [present_map] at run
  cases run
  exact ⟨_, rfl, rfl⟩

theorem get?_command {c : Assoc Data} (run : command (.map c) = .ok d)
    (found : get? c "command" = some params) : ∃ t, d = .map t ∧ get? t "command" = some params := by
  obtain ⟨name, -, run⟩ := bind_eq_ok run
  obtain ⟨params', given, run⟩ := bind_eq_ok run
  rw [Data.item, found] at given
  cases given
  obtain ⟨changed, -, run⟩ := bind_eq_ok run
  obtain ⟨failed, -, run⟩ := bind_eq_ok run
  obtain ⟨ignored, -, run⟩ := bind_eq_ok run
  obtain ⟨more, -, run⟩ := bind_eq_ok run
  obtain ⟨again, -, run⟩ := bind_eq_ok run
  cases again with
  | false =>
    cases run
    exact ⟨_, rfl, rfl⟩
  | true =>
    obtain ⟨retries, -, run⟩ := bind_eq_ok run
    obtain ⟨delay, -, run⟩ := bind_eq_ok run
    obtain ⟨ends, -, last⟩ := bind_eq_ok run
    cases last
    exact ⟨_, rfl, rfl⟩

theorem get?_verification {v : Assoc Data} (run : verification (.map v) = .ok d)
    (module : getD v "module" (.str "command") = .str m) (other : m ∉ verificationKeys) :
    ∃ t, d = .map t ∧ get? t m = some (.map (v.filter fun e => !verificationKeys.contains e.1)) := by
  obtain ⟨named, -, run⟩ := bind_eq_ok run
  obtain ⟨name, -, run⟩ := bind_eq_ok run
  obtain ⟨register, -, run⟩ := bind_eq_ok run
  obtain ⟨word, asked, run⟩ := bind_eq_ok run
  cases asked
  obtain ⟨entries, walk, run⟩ := bind_eq_ok run
  cases walk
  obtain ⟨key, text, run⟩ := bind_eq_ok run
  change (getD v "module" (.str "command")).keyText = _ at text
  rw [module] at text
  cases text
  obtain ⟨failed, -, run⟩ := bind_eq_ok run
  obtain ⟨changed, -, run⟩ := bind_eq_ok run
  obtain ⟨retries, -, run⟩ := bind_eq_ok run
  obtain ⟨delay, -, run⟩ := bind_eq_ok run
  obtain ⟨ends, -, run⟩ := bind_eq_ok run
  obtain ⟨group, -, last⟩ := bind_eq_ok run
  cases last
  refine ⟨_, rfl, ?_⟩
  have marker : "group" ≠ m := by
    rintro rfl
    exact other (by decide)
  rw [get?_set, if_neg marker]
  -- The entries behind the module's would replace it, but their keys are none of modules.
  have later : ["register", "failed_when", "changed_when", "retries", "delay", "until"] ⊆
    verificationKeys := by decide
  exact get?_dropNulls (get?_ofPairs_eq_some_iff.mpr ⟨[_], _, rfl, fun mem => other (later mem)⟩) rfl

theorem exists_mem_of_task {source : Assoc Data} (run : task (.map source) = .ok d)
    (inside : u ∈ allTasks (.map source)) (found : get? u m = some params) :
    ∃ t, d = .map t ∧ ∃ u' ∈ allTasks (.map t), get? u' m = some params := by
  cases run
  refine ⟨_, rfl, ?_⟩
  rw [allTasks, mem_cons] at inside
  rcases inside with rfl | deeper
  · refine ⟨_, mem_cons_self, ?_⟩
    rw [get?, get?_filter (· != "name")]
    by_cases name : m = "name"
    · subst name
      simp [getD, found]
    · simp [name, Ne.symm name, found]
  · obtain ⟨e, mem, known, within⟩ := mem_sectionTasks_iff.mp deeper
    refine ⟨u, mem_cons_of_mem _ (mem_sectionTasks_iff.mpr
      ⟨e, mem_cons_of_mem _ ?_, known, within⟩), found⟩
    refine mem_filter.mpr ⟨mem, bne_iff_ne.mpr ?_⟩
    intro name
    rw [name] at known
    exact absurd known (by decide)

theorem snd_of_inGroup {t : Data} {x : GroupedTask} (run : inGroup t = .ok x) : x.2 = t := by
  obtain ⟨g, -, last⟩ := bind_eq_ok run
  cases last
  rfl

theorem exists_mem_of_build {build : Data → Outcome Data} {items : List Data}
    {found : List GroupedTask}
    (run : items.mapM (fun d => do inGroup (← build d)) = .ok found) (mem : d ∈ items) :
    ∃ g t, build d = .ok t ∧ (g, t) ∈ found := by
  obtain ⟨x, made, step⟩ := exists_mem_of_mapM run mem
  obtain ⟨t, built, grouped⟩ := bind_eq_ok step
  exact ⟨x.1, t, built, snd_of_inGroup grouped ▸ made⟩

/-- A module that a set-up uses is in one of its tasks, with its parameters. -/
theorem Uses.exists_mem {s : Setup} (uses : Uses s m params)
    {handlers : List Data} (run : setupTasks s = .ok (tasks, handlers)) :
    ∃ g t, (g, .map t) ∈ tasks ∧ ∃ u ∈ allTasks (.map t), get? u m = some params := by
  obtain ⟨paths, entries, run⟩ := bind_eq_ok run
  obtain ⟨files, filed, run⟩ := bind_eq_ok run
  obtain ⟨_, -, run⟩ := bind_eq_ok run
  obtain ⟨services, -, run⟩ := bind_eq_ok run
  obtain ⟨given, walk, run⟩ := bind_eq_ok run
  obtain ⟨own, made, run⟩ := bind_eq_ok run
  obtain ⟨checks, checkWalk, run⟩ := bind_eq_ok run
  obtain ⟨checked, checkMade, run⟩ := bind_eq_ok run
  obtain ⟨commands, commandWalk, run⟩ := bind_eq_ok run
  obtain ⟨commanded, commandMade, last⟩ := bind_eq_ok run
  cases last
  cases uses with
  | file listed mem =>
    rw [listed] at entries
    cases entries
    obtain ⟨x, kept, step⟩ := exists_mem_of_mapM filed mem
    obtain ⟨d, built, step⟩ := bind_eq_ok step
    obtain ⟨grouped, group, step⟩ := bind_eq_ok step
    obtain ⟨_, -, last⟩ := bind_eq_ok step
    cases last
    obtain ⟨t, rfl, found⟩ := get?_file built
    refine ⟨grouped.1, t, ?_, t, mem_cons_self, found⟩
    have here : grouped ∈ files.map Prod.fst := mem_map.mpr ⟨_, kept, rfl⟩
    rw [← snd_of_inGroup group]
    simp [here]
  | task listed mem found other own =>
    rw [listed] at walk
    cases walk
    obtain ⟨source, element, inside⟩ := mem_itemTasks_iff.mp mem
    obtain ⟨g, d, built, kept⟩ := exists_mem_of_build made element
    obtain ⟨t, rfl, taken⟩ := exists_mem_of_task built inside found
    exact ⟨g, t, by simp [kept], taken⟩
  | verification listed mem module other own =>
    rw [listed] at checkWalk
    cases checkWalk
    obtain ⟨g, d, built, kept⟩ := exists_mem_of_build checkMade mem
    obtain ⟨t, rfl, found⟩ := get?_verification built module other
    exact ⟨g, t, by simp [kept], t, mem_cons_self, found⟩
  | command listed mem found =>
    rw [listed] at commandWalk
    cases commandWalk
    obtain ⟨g, d, built, kept⟩ := exists_mem_of_build commandMade mem
    obtain ⟨t, rfl, found⟩ := get?_command built found
    exact ⟨g, t, by simp [kept], t, mem_cons_self, found⟩

/-! ### Plays -/

def playOf (name : String) (tasks handlers : Data) (vars : Assoc Data) : Assoc Data := [
  ("name", .str ("Configure " ++ name)),
    ("hosts", .str "\x7b\x7b target_servers | default('all') \x7d\x7d"),
  ("become", .bool true), ("tasks", tasks), ("handlers", handlers), ("vars", .map vars)]

def playTasks (play : Assoc Data) : List (Assoc Data) :=
  allTasks (getD play "tasks" .null) ++ allTasks (getD play "handlers" .null)

theorem play_eq_ok (run : play s = .ok p) : ∃ blocks handlers vars,
    p = playOf s.name (.list blocks) (.list handlers) vars ∧ ∀ setup, s.setup = some setup →
      ∃ tasks, setupTasks setup = .ok (tasks, handlers) ∧
        order tasks setup.taskOrder = .ok blocks := by
  unfold play at run
  cases given : s.setup with
  | none =>
    rw [given] at run
    cases run
    exact ⟨_, _, _, rfl, by simp⟩
  | some setup =>
    have rest : ∃ vars, (do
        let found ← setupTasks setup
        return playOf s.name (.list (← order found.1 setup.taskOrder)) (.list found.2) vars) =
          .ok p := by
      cases more : setup.vars.holds with
      | false =>
        simp only [given, more, Bool.false_eq_true, ↓reduceIte] at run
        exact ⟨_, run⟩
      | true =>
        simp only [given, more, ↓reduceIte] at run
        obtain ⟨vars, -, run⟩ := bind_eq_ok run
        exact ⟨vars, run⟩
    obtain ⟨vars, run⟩ := rest
    obtain ⟨found, collected, run⟩ := bind_eq_ok run
    obtain ⟨blocks, ordered, last⟩ := bind_eq_ok run
    cases last
    refine ⟨blocks, found.2, vars, rfl, ?_⟩
    rintro _ ⟨⟩
    exact ⟨found.1, collected, ordered⟩

theorem ungroupPlay_playOf (name : String) (tasks handlers : Data) (vars : Assoc Data) :
    ungroupPlay (playOf name tasks handlers vars) =
      do return .map (playOf name (← ungroup tasks) (← ungroup handlers) vars) := by
  simp only [ungroupPlay, playOf, mapM_cons, mapM_nil]
  cases ungroup tasks with
  | error fault => rfl
  | ok tasks' => cases ungroup handlers <;> rfl

theorem cleared_of_ungroupPlay {name : String} {tasks handlers : Data} {vars : Assoc Data}
    (run : ungroupPlay (playOf name tasks handlers vars) = .ok d) :
    ∃ p, d = .map p ∧ get? p "name" = some (.str ("Configure " ++ name)) ∧
      List.Forall₂ Cleared (allTasks tasks ++ allTasks handlers) (playTasks p) := by
  rw [ungroupPlay_playOf] at run
  obtain ⟨tasks', first, run⟩ := bind_eq_ok run
  obtain ⟨handlers', second, last⟩ := bind_eq_ok run
  cases last
  exact ⟨_, rfl, rfl, rel_append (cleared_of_ungroup first) (cleared_of_ungroup second)⟩

def planned (p : Assoc Data) : Bool := (getD p "tasks" .null).holds

theorem plays_of_foldlM {step : List (Assoc Data) × Data → Service →
      Outcome (List (Assoc Data) × Data)}
    (each : ∀ state s state', step state s = .ok state' →
      ∃ p, play s = .ok p ∧ state'.1 = if planned p then state.1 ++ [p] else state.1)
    {services : List Service} {state state' : List (Assoc Data) × Data}
    (run : services.foldlM step state = .ok state') :
    ∃ built, services.mapM play = .ok built ∧ state'.1 = state.1 ++ built.filter planned := by
  induction services generalizing state with
  | nil =>
    cases run
    exact ⟨[], rfl, by simp⟩
  | cons s rest ih =>
    obtain ⟨next, first, later⟩ := bind_eq_ok run
    obtain ⟨p, made, added⟩ := each _ _ _ first
    obtain ⟨built, all, whole⟩ := ih later
    refine ⟨p :: built, ?_, ?_⟩
    · rw [mapM_cons, made, all]
      rfl
    · rw [whole, added]
      cases known : planned p <;> simp [known]

theorem generate_eq_ok {services : List Service} {playbook inventory : Data}
    (run : generate services = .ok (playbook, inventory)) :
    ∃ built items, services.mapM play = .ok built ∧
      (built.filter planned).mapM ungroupPlay = .ok items ∧ playbook = .list items := by
  obtain ⟨steps, walk, run⟩ := bind_eq_ok run
  obtain ⟨items, cleared, last⟩ := bind_eq_ok run
  cases last
  obtain ⟨built, all, whole⟩ := plays_of_foldlM (fun state s state' step => by
    obtain ⟨p, made, step⟩ := bind_eq_ok step
    obtain ⟨_, -, last⟩ := bind_eq_ok step
    cases last
    exact ⟨p, made, rfl⟩) walk
  rw [nil_append] at whole
  exact ⟨built, items, all, whole ▸ cleared, rfl⟩

theorem Uses.exists_mem_play (made : play s = .ok p) {setup : Setup}
    (given : s.setup = some setup) (uses : Uses setup m params) :
    planned p = true ∧ ∃ t ∈ playTasks p, get? t m = some params := by
  obtain ⟨blocks, handlers, vars, rfl, own⟩ := play_eq_ok made
  obtain ⟨tasks, collected, ordered⟩ := own setup given
  obtain ⟨g, t, mem, u, inside, found⟩ := uses.exists_mem collected
  have kept := mem_itemTasks_of_order ordered mem inside
  refine ⟨?_, u, mem_append_left _ kept, found⟩
  obtain ⟨b, block, -⟩ := mem_itemTasks_iff.mp kept
  change (!blocks.isEmpty) = true
  simpa using ne_nil_of_mem block

theorem cleared_of_play (made : play s = .ok p)
    (run : ungroupPlay p = .ok d) :
    ∃ p', d = .map p' ∧ get? p' "name" = some (.str ("Configure " ++ s.name)) ∧
      List.Forall₂ Cleared (playTasks p) (playTasks p') := by
  obtain ⟨blocks, handlers, vars, rfl, -⟩ := play_eq_ok made
  exact cleared_of_ungroupPlay run

/-- A playbook has a group in none of its tasks and handlers, at whatever depth. All the same each
module that a set-up uses is in a task of the play, with the parameters it has there, a group among
them. -/
theorem generate_leaves_groups_out {services : List Service} {playbook inventory : Data}
    (run : generate services = .ok (playbook, inventory)) :
    ∃ plays, playbook = .list plays ∧
      (∀ d ∈ plays, ∃ p, d = .map p ∧ ∀ t ∈ playTasks p, "group" ∉ Assoc.keys t) ∧
      ∀ s ∈ services, ∀ setup, s.setup = some setup → ∀ m params, Uses setup m params →
        ∃ p, .map p ∈ plays ∧ Assoc.get? p "name" = some (.str ("Configure " ++ s.name)) ∧
          ∃ t ∈ playTasks p, Assoc.get? t m = some params := by
  obtain ⟨built, plays, made, ungrouped, rfl⟩ := generate_eq_ok run
  refine ⟨plays, rfl, ?_, ?_⟩
  · intro d mem
    obtain ⟨p, source, step⟩ := exists_of_mem_mapM ungrouped mem
    obtain ⟨s, -, own⟩ := exists_of_mem_mapM made (mem_of_mem_filter source)
    obtain ⟨p', rfl, -, cleared⟩ := cleared_of_play own step
    refine ⟨p', rfl, ?_⟩
    intro t inside
    obtain ⟨_, -, same⟩ := exists_of_mem_forall₂ cleared inside
    exact same.group_notMem
  · intro s mem setup given m params uses
    obtain ⟨p, source, own⟩ := exists_mem_of_mapM made mem
    obtain ⟨filled, t, inside, found⟩ := uses.exists_mem_play own given
    obtain ⟨d, kept, step⟩ := exists_mem_of_mapM ungrouped (mem_filter.mpr ⟨source, filled⟩)
    obtain ⟨p', rfl, name, cleared⟩ := cleared_of_play own step
    obtain ⟨t', inside', same⟩ := exists_of_mem_forall₂ cleared.flip inside
    refine ⟨p', kept, name, t', inside', ?_⟩
    rw [Cleared.get? same uses.isModule.1 uses.isModule.2, found]

namespace Sample

/-- A file with an owner group and a group of tasks, and a task of a group around another one. -/
def setup : Setup where
  files := .map [("/srv/page",
    .map [("content", .str "hello"), ("group", .str "www"), ("task_group", .str "content")])]
  tasks := .list [.map [
    ("name", .str "Prepare"), ("group", .str "setup"),
    ("block", .list [.map [("group", .str "setup"),
      ("user", .map [("name", .str "app"), ("group", .str "staff")])]])]]

def services : List Service := [{ name := "web", setup := some setup }]

end Sample

theorem generate_leaves_sample_groups_out :
    ∃ playbook inventory, generate Sample.services = .ok (playbook, inventory) ∧
    ∃ plays, playbook = .list plays ∧
      (∀ d ∈ plays, ∃ p, d = .map p ∧ ∀ t ∈ playTasks p, "group" ∉ Assoc.keys t) ∧
      (∃ p, .map p ∈ plays ∧ ∃ t ∈ playTasks p, Assoc.get? t "copy" = some (.map [
        ("dest", .str "/srv/page"), ("content", .str "hello"), ("group", .str "www")])) ∧
      ∃ p, .map p ∈ plays ∧ ∃ t ∈ playTasks p, Assoc.get? t "user" = some (.map [
        ("name", .str "app"), ("group", .str "staff")]) := by
  have run : ∃ playbook inventory, generate Sample.services = .ok (playbook, inventory) := ⟨_, _, rfl⟩
  obtain ⟨playbook, inventory, run⟩ := run
  obtain ⟨plays, listed, clear, kept⟩ := generate_leaves_groups_out run
  have own := kept _ mem_cons_self Sample.setup rfl
  obtain ⟨p, mem, -, copied⟩ := own "copy" _ (.file rfl mem_cons_self)
  obtain ⟨q, member', -, added⟩ := own "user" _
    (.task rfl (mem_cons_of_mem _ mem_cons_self) rfl (by decide) (by decide))
  exact ⟨playbook, inventory, run, plays, listed, clear, ⟨p, mem, copied⟩, q, member', added⟩

end Stratus.Ansible.Grouped
