import Stratus.Proofs.Deploy.Resources
import Stratus.Proofs.Data.Parts

/-!
Repair of a network. Each step adds what is missing, so a second repair finds nothing to add. What
it adds refers to other resources by fixed names, right only where these are there.
-/
namespace Stratus.Network

open List hiding contains
open Assoc (get? contains mapValues setDefault)
open Outcome

section Steps

variable {α : Type} {m : Assoc α} {key : String}

theorem get?_setDefault (m : Assoc α) (key : String) (value : α) (k : String) :
    get? (setDefault m key value) k = (get? m k).or (if key = k then some value else none) := by
  cases found : get? m key with
  | none =>
    rw [setDefault, contains, found, if_neg (by simp), Assoc.get?_set]
    by_cases same : key = k
    · simp [← same, found]
    · simp [same]
  | some old =>
    rw [setDefault, contains, found, if_pos Option.isSome_some]
    by_cases same : key = k
    · simp [← same, found]
    · simp [same]

theorem setDefault_of_contains (held : contains m key = true) (value : α) :
    setDefault m key value = m := if_pos held

theorem addMissing_map (m : Assoc Data) (key : String) (value : Data) :
    addMissing (.map m) key value = .ok (.map (setDefault m key value)) := by
  unfold addMissing setDefault
  rw [show (Data.map m).has key = .ok (contains m key) from rfl, ok_bind]
  split
  · rfl
  · rfl

theorem addMissing_table (shape : α → Data) (value : α) :
    addMissing (table shape m) key (shape value) = .ok (table shape (setDefault m key value)) := by
  rw [table, addMissing_map, setDefault, setDefault, contains, Assoc.get?_mapValues,
    Option.isSome_map, ← contains]
  split
  · rfl
  · rw [← mapValues_set]
    rfl

def added (missing rs : Resources) : Resources :=
  missing.foldl (fun rs e => setDefault rs e.1 e.2) rs

theorem addAll_eq (missing rs : Resources) :
    addAll (data rs) missing = .ok (data (added missing rs)) := by
  induction missing generalizing rs with
  | nil => rfl
  | cons e rest ih =>
    change (addMissing (data rs) e.1 (table .map e.2) >>= fun d => addAll d rest) = _
    rw [addMissing_table, ok_bind, ih]
    rfl

theorem get?_added (missing rs : Resources) (type : String) :
    get? (added missing rs) type = (get? rs type).or (get? missing type) := by
  induction missing generalizing rs with
  | nil => simp [added, get?]
  | cons e rest ih =>
    rw [added, foldl_cons, ← added, ih, get?_setDefault, Option.or_assoc]
    by_cases same : e.1 = type
    · simp [get?, same]
    · simp [get?, same]

theorem added_self {missing rs : Resources} (held : ∀ e ∈ missing, contains rs e.1 = true) :
    added missing rs = rs := by
  induction missing with
  | nil => rfl
  | cons e rest ih =>
    rw [added, foldl_cons, setDefault_of_contains (held e mem_cons_self)]
    exact ih fun e mem => held e (mem_cons_of_mem _ mem)

def changed (type : String) (change : Assoc Data → Assoc Data) (rs : Resources) : Resources :=
  (get? rs type).elim rs fun named => Assoc.set rs type (mapValues change named)

variable {rs : Resources} {type : String} {change : Assoc Data → Assoc Data}

theorem mapResources_eq {f : Data → Outcome Data}
    (step : ∀ attributes, f (.map attributes) = .ok (.map (change attributes)))
    (held : contains rs type = true) :
    mapResources (data rs) type f = .ok (data (changed type change rs)) := by
  obtain ⟨named, found⟩ := Option.isSome_iff_exists.mp held
  unfold mapResources
  rw [item_table found, ok_bind]
  refine bind_eq_ok_iff.mpr ⟨_, rfl, bind_eq_ok_iff.mpr ⟨_, mapValuesM_table step named, ?_⟩⟩
  rw [changed, found]
  exact put_table (table .map)

theorem get?_changed (t : String) : get? (changed type change rs) t =
    (get? rs t).map fun named => if t = type then mapValues change named else named := by
  cases found : get? rs type with
  | none =>
    rw [changed, found]
    by_cases same : t = type
    · simp [same, found]
    · simp [same]
  | some named =>
    rw [changed, found]
    by_cases same : t = type
    · simp [same, found, Assoc.get?_set]
    · simp [same, Ne.symm same, Assoc.get?_set]

theorem changed_self (h : ∀ named, get? rs type = some named → ∀ e ∈ named, change e.2 = e.2) :
    changed type change rs = rs := by
  cases found : get? rs type with
  | none => simp [changed, found]
  | some named =>
    have same : mapValues change named = named := by
      conv_rhs => rw [← map_id named]
      exact map_congr_left fun e mem => Prod.ext rfl (h named found e mem)
    rw [changed, found, Option.elim_some, same, Assoc.set_of_get? found]

end Steps

section Repairs

variable {vpc subnet : Data} {entries : Assoc Data} {rs : Resources}

def shelled (vpc : Data) (rs : Resources) : Resources :=
  if contains rs "aws_security_group" then rs
  else changed "aws_instance"
    (Assoc.set · "vpc_security_group_ids" (.list [reference "aws_security_group" "allow_ssh"]))
    (Assoc.set rs "aws_security_group" [("allow_ssh", sshGroup vpc)])

theorem openShell_eq (vpc : Data) (rs : Resources) :
    openShell vpc (data rs) = .ok (data (shelled vpc rs)) := by
  unfold openShell shelled
  rw [has_table, ok_bind]
  split
  · rfl
  rw [put_table (table .map), ok_bind, has_table, ok_bind]
  split
  · next held => exact mapResources_eq (fun _ => rfl) held
  · next absent =>
      rw [changed_self fun named found => absurd (Assoc.contains_of_get? found) absent]
      rfl

def balanced (vpc : Data) (rs : Resources) : Resources :=
  if contains rs "aws_lb" then
    changed "aws_lb" (setDefault · "security_groups" (.list [reference "aws_security_group" "alb"]))
      (Assoc.set rs "aws_security_group"
        (setDefault (Assoc.getD rs "aws_security_group" []) "alb" (balancerGroup vpc)))
  else rs

theorem openBalancers_eq {groups : Assoc (Assoc Data)}
    (found : get? rs "aws_security_group" = some groups) :
    openBalancers vpc (data rs) = .ok (data (balanced vpc rs)) := by
  unfold openBalancers balanced
  rw [has_table, ok_bind]
  cases held : contains rs "aws_lb" with
  | false => rfl
  | true =>
    have grouped : Assoc.getD rs "aws_security_group" [] = groups := by simp [Assoc.getD, found]
    rw [item_table found, grouped]
    refine bind_eq_ok_iff.mpr ⟨_, rfl,
      bind_eq_ok_iff.mpr ⟨_, addMissing_table .map (balancerGroup vpc), ?_⟩⟩
    refine bind_eq_ok_iff.mpr ⟨_, put_table (table .map),
      mapResources_eq (fun _ => addMissing_map _ _ _) ?_⟩
    simpa [contains, Assoc.get?_set] using held

def opened (vpc subnet : Data) (rs : Resources) : Resources :=
  balanced vpc (added (routing vpc subnet) (shelled vpc rs))

/-- The attributes of a resource after a repair. -/
def opening (rs : Resources) (type : String) (attributes : Assoc Data) : Assoc Data :=
  if type = "aws_instance" ∧ contains rs "aws_security_group" = false then
    Assoc.set attributes "vpc_security_group_ids"
      (.list [reference "aws_security_group" "allow_ssh"])
  else if type = "aws_lb" then setDefault attributes "security_groups"
    (.list [reference "aws_security_group" "alb"])
  else attributes

/-- The security groups after a repair. -/
def groups (vpc : Data) (rs : Resources) : Assoc (Assoc Data) :=
  let held := (get? rs "aws_security_group").getD [("allow_ssh", sshGroup vpc)]
  if contains rs "aws_lb" then setDefault held "alb" (balancerGroup vpc) else held

theorem get?_shelled (t : String) : get? (shelled vpc rs) t =
    if t = "aws_security_group" then some ((get? rs t).getD [("allow_ssh", sshGroup vpc)])
    else (get? rs t).map fun named => if t = "aws_instance" then mapValues (opening rs t) named
      else named := by
  cases found : get? rs "aws_security_group" with
  | none =>
    rw [shelled, if_neg (by simp [contains, found]), get?_changed, Assoc.get?_set]
    by_cases group : t = "aws_security_group"
    · simp [group, found]
    have fresh : opening rs "aws_instance" =
        (Assoc.set · "vpc_security_group_ids"
          (.list [reference "aws_security_group" "allow_ssh"])) := by
      funext attributes
      simp [opening, contains, found]
    by_cases machine : t = "aws_instance"
    · simp [machine, fresh]
    · simp [group, machine, Ne.symm group]
  | some groups =>
    have settled : mapValues (opening rs "aws_instance") = id := by
      funext named
      simp [opening, contains, found, mapValues]
    rw [shelled, if_pos (by simp [contains, found])]
    by_cases group : t = "aws_security_group"
    · simp [group, found]
    by_cases machine : t = "aws_instance"
    · simp [machine, settled]
    · simp [group, machine]

theorem mapValues_opening {t : String} (other : t ≠ "aws_instance") (other' : t ≠ "aws_lb") :
    mapValues (opening rs t) = id := by
  funext named
  simp [opening, other, other', mapValues]

theorem get?_opened (t : String) : get? (opened vpc subnet rs) t =
    if t = "aws_security_group" then some (groups vpc rs)
    else ((get? rs t).map (mapValues (opening rs t))).or (get? (routing vpc subnet) t) := by
  have others : get? (routing vpc subnet) "aws_instance" = none ∧
    get? (routing vpc subnet) "aws_lb" = none := ⟨rfl, rfl⟩
  have held : get? (added (routing vpc subnet) (shelled vpc rs)) "aws_security_group" =
      some ((get? rs "aws_security_group").getD [("allow_ssh", sshGroup vpc)]) := by
    rw [get?_added, get?_shelled, if_pos rfl, Option.some_or]
  have balancers : contains (added (routing vpc subnet) (shelled vpc rs)) "aws_lb" =
      contains rs "aws_lb" := by
    simp [contains, get?_added, get?_shelled, others]
  have balancing : opening rs "aws_lb" =
      (setDefault · "security_groups" (.list [reference "aws_security_group" "alb"])) := by
    funext attributes
    simp [opening]
  rw [opened, balanced, balancers]
  cases lb : contains rs "aws_lb" with
  | false =>
    have none : get? rs "aws_lb" = none := by simpa [contains] using lb
    rw [if_neg (by simp), get?_added, get?_shelled]
    by_cases group : t = "aws_security_group"
    · simp [group, groups, lb]
    by_cases machine : t = "aws_instance"
    · simp [machine]
    by_cases balancer : t = "aws_lb"
    · simp [balancer, none, others]
    · simp [group, machine, mapValues_opening machine balancer]
  | true =>
    rw [if_pos rfl, get?_changed, Assoc.get?_set, Assoc.getD, held, get?_added, get?_shelled]
    by_cases group : t = "aws_security_group"
    · simp [group, groups, lb]
    by_cases machine : t = "aws_instance"
    · simp [machine]
    by_cases balancer : t = "aws_lb"
    · simp [balancer, others, balancing]
    · simp [group, Ne.symm group, machine, balancer, mapValues_opening machine balancer]

theorem get?_opened_group : get? (opened vpc subnet rs) "aws_security_group" =
    some (groups vpc rs) := by
  rw [get?_opened, if_pos rfl]

theorem contains_groups_alb (balancers : contains rs "aws_lb" = true) :
    contains (groups vpc rs) "alb" = true := by
  rw [groups, if_pos balancers]
  simp [contains, get?_setDefault]

theorem opened_opened : opened vpc subnet (opened vpc subnet rs) = opened vpc subnet rs := by
  have grouped := @get?_opened_group vpc subnet rs
  have shell : shelled vpc (opened vpc subnet rs) = opened vpc subnet rs :=
    if_pos (Assoc.contains_of_get? grouped)
  have routes : added (routing vpc subnet) (opened vpc subnet rs) = opened vpc subnet rs := by
    refine added_self fun e mem => ?_
    have known := Assoc.contains_iff.mpr (Assoc.mem_keys mem)
    rw [contains] at known ⊢
    rw [get?_opened]
    split
    · rfl
    · rw [Option.isSome_or, known, Bool.or_true]
  have listed : get? (opened vpc subnet rs) "aws_lb" =
      (get? rs "aws_lb").map (mapValues (opening rs "aws_lb")) := by
    rw [get?_opened, if_neg (by decide)]
    exact Option.or_none
  rw [opened, shell, routes, balanced]
  split
  · next held =>
      have balancers : contains rs "aws_lb" = true := by simpa [contains, listed] using held
      rw [Assoc.getD, grouped, Option.getD_some,
        setDefault_of_contains (contains_groups_alb balancers), Assoc.set_of_get? grouped]
      refine changed_self fun named found e mem => setDefault_of_contains ?_ _
      obtain ⟨old, -, rfl⟩ := Option.map_eq_some_iff.mp (listed.symm.trans found)
      obtain ⟨_, -, rfl⟩ := mem_map.mp mem
      simp [opening, contains, get?_setDefault]
  · rfl

/-! ### Configurations -/

/-- The data sources of a configuration are a map. -/
def Sourced (entries : Assoc Data) : Prop :=
  ∃ sources, Assoc.getD entries "data" (.map []) = .map sources ∧ (Assoc.keys sources).Nodup

def Cleared (entries : Assoc Data) : Prop :=
  ∀ d, get? entries "data" = some d → d.has "aws_route_table" = .ok false

theorem get?_withResources (listed : Lists entries rs) :
    get? (setDefault entries "resource" (.map [])) "resource" = some (data rs) := by
  rw [get?_setDefault, if_pos rfl, ← listed, Assoc.getD]
  cases get? entries "resource" <;> rfl

theorem dropLookups_self (h : Cleared entries) :
    dropLookups (.map entries) = .ok (.map entries) := by
  unfold dropLookups
  rw [show (Data.map entries).has "data" = .ok (contains entries "data") from rfl, contains]
  cases found : get? entries "data" with
  | none => rfl
  | some d =>
    simp only [ok_bind, Option.isSome_some, Bool.not_true, Bool.false_eq_true, if_false, Data.item,
      found, h d found]
    rfl

theorem dropLookups_eq (sourced : Sourced entries) :
    ∃ entries', dropLookups (.map entries) = .ok (.map entries') ∧
    (∀ key ≠ "data", get? entries' key = get? entries key) ∧ Cleared entries' := by
  obtain ⟨sources, section?, distinct⟩ := sourced
  by_cases clear : Cleared entries
  · exact ⟨entries, dropLookups_self clear, fun _ _ => rfl, clear⟩
  unfold Cleared at clear
  push Not at clear
  obtain ⟨d, found, listed⟩ := clear
  obtain rfl : d = .map sources := by simpa [Assoc.getD, found] using section?
  have held : contains sources "aws_route_table" = true := by simpa [Data.has] using listed
  refine ⟨Assoc.set entries "data" (.map (Assoc.erase sources "aws_route_table")), ?_,
    fun key other => ?_, fun d cut => ?_⟩
  · have known : (Data.map entries).has "data" = .ok true := by simp [Data.has, contains, found]
    have item : (Data.map entries).item "data" = .ok (.map sources) := by simp [Data.item, found]
    have looked : (Data.map sources).has "aws_route_table" = .ok true := by rw [Data.has, held]
    unfold dropLookups
    simp only [known, item, looked, ok_bind]
    rfl
  · simp [Assoc.get?_set, Ne.symm other]
  · obtain rfl : _ = d := by simpa [Assoc.get?_set] using cut
    have gone := Assoc.not_mem_keys_erase distinct "aws_route_table"
    rw [← Assoc.contains_iff, Bool.not_eq_true] at gone
    exact congrArg Except.ok gone

theorem connect_eq (vpc subnet : Data) (listed : Lists entries rs)
    (sourced : Sourced entries) : ∃ entries',
    connect (.map entries) vpc subnet = .ok (.map entries') ∧
      get? entries' "resource" = some (data (added (routing vpc subnet) rs)) ∧
      Cleared entries' := by
  have sourced' : Sourced (setDefault entries "resource" (.map [])) := by
    obtain ⟨sources, section?, distinct⟩ := sourced
    refine ⟨sources, ?_, distinct⟩
    rw [← section?, Assoc.getD, Assoc.getD, get?_setDefault]
    simp
  obtain ⟨cleared, dropped, kept, clear⟩ := dropLookups_eq sourced'
  refine ⟨Assoc.set cleared "resource" (data (added (routing vpc subnet) rs)),
    ?_, by simp [Assoc.get?_set], ?_⟩
  · unfold connect withResources
    rw [addMissing_map, ok_bind, dropped, ok_bind, Data.item, kept "resource" (by simp),
      get?_withResources listed]
    simp only [ok_bind, addAll_eq]
    rfl
  · intro d found
    exact clear d (by simpa [Assoc.get?_set] using found)

theorem openUp_eq (listed : Lists entries rs) : openUp (.map entries) vpc subnet =
    .ok (.map (Assoc.set (setDefault entries "resource" (.map [])) "resource"
      (data (opened vpc subnet rs)))) := by
  obtain ⟨groups, grouped⟩ : ∃ groups,
  get? (added (routing vpc subnet) (shelled vpc rs)) "aws_security_group" = some groups :=
    ⟨_, by rw [get?_added, get?_shelled, if_pos rfl, Option.some_or]⟩
  unfold openUp withResources
  rw [addMissing_map, ok_bind, Data.item, get?_withResources listed]
  simp only [ok_bind, openShell_eq, addAll_eq, openBalancers_eq grouped]
  rfl

theorem lists_of_get? (found : get? entries "resource" = some (data rs)) :
    Lists entries rs := by rw [Lists, Assoc.getD, found]; rfl

theorem setDefault_of_lists (found : get? entries "resource" = some (data rs)) :
    Assoc.set (setDefault entries "resource" (.map [])) "resource" (data rs) = entries := by
  rw [setDefault_of_contains (Assoc.contains_of_get? found), Assoc.set_of_get? found]

theorem connect_self (found : get? entries "resource" = some (data rs)) (clear : Cleared entries)
    (settled : added (routing vpc subnet) rs = rs) :
    connect (.map entries) vpc subnet = .ok (.map entries) := by
  unfold connect withResources
  rw [addMissing_map, setDefault_of_contains (Assoc.contains_of_get? found), ok_bind,
    dropLookups_self clear, ok_bind, Data.item, found]
  simp only [ok_bind, addAll_eq, settled, Data.put, Assoc.set_of_get? found]

/-- Every resource stays, with its attributes but for those that may change. -/
def Extends (may : String → Assoc Data → String → Prop) (rs rs' : Resources) : Prop :=
  ∀ type named, get? rs type = some named → ∃ named', get? rs' type = some named' ∧
    ∀ name attributes, get? named name = some attributes → ∃ attributes',
    get? named' name = some attributes' ∧
      ∀ key, ¬ may type attributes key → get? attributes' key = get? attributes key

/-- The attributes that an opening repair changes. -/
def MayOpen (rs : Resources) (type : String) (attributes : Assoc Data) (key : String) : Prop :=
  type = "aws_instance" ∧ key = "vpc_security_group_ids" ∧
    contains rs "aws_security_group" = false ∨
    type = "aws_lb" ∧ key = "security_groups" ∧ contains attributes "security_groups" = false

theorem extends_added : Extends (fun _ _ _ => False) rs (added (routing vpc subnet) rs) := by
  intro type named found
  refine ⟨named, by rw [get?_added, found, Option.some_or], fun name attributes own =>
    ⟨attributes, own, fun _ _ => rfl⟩⟩

theorem extends_opened : Extends (MayOpen rs) rs (opened vpc subnet rs) := by
  intro type named found
  by_cases group : type = "aws_security_group"
  · subst group
    refine ⟨groups vpc rs, get?_opened_group, fun name attributes own =>
      ⟨attributes, ?_, fun _ _ => rfl⟩⟩
    rw [groups, found, Option.getD_some]
    split
    · rw [get?_setDefault, own, Option.some_or]
    · exact own
  · refine ⟨_, by rw [get?_opened, if_neg group, found, Option.map_some, Option.some_or],
      fun name attributes own => ?_⟩
    refine ⟨opening rs type attributes, by rw [Assoc.get?_mapValues, own, Option.map_some],
      fun key outside => ?_⟩
    unfold opening
    split
    · next fresh =>
        have other : "vpc_security_group_ids" ≠ key :=
          fun same => outside (.inl ⟨fresh.1, same.symm, fresh.2⟩)
        rw [Assoc.get?_set, if_neg other]
    · split
      · next balancer =>
          cases held : contains attributes "security_groups" with
          | true => rw [setDefault_of_contains held]
          | false =>
            have other : "security_groups" ≠ key :=
              fun same => outside (.inr ⟨balancer, same.symm, held⟩)
            rw [get?_setDefault, if_neg other, Option.or_none]
      · rfl

/-- A repair keeps all resources and their attributes but for the groups that instances and load
balancers lack, and a second one changes nothing. -/
theorem repairs_extend_once (vpc subnet : Data) (listed : Lists entries rs)
    (sourced : Sourced entries) :
    (∃ entries' rs', connect (.map entries) vpc subnet = .ok (.map entries') ∧ Lists entries' rs' ∧
      Extends (fun _ _ _ => False) rs rs' ∧
        connect (.map entries') vpc subnet = .ok (.map entries')) ∧
    ∃ entries' rs', openUp (.map entries) vpc subnet = .ok (.map entries') ∧ Lists entries' rs' ∧
      Extends (MayOpen rs) rs rs' ∧ openUp (.map entries') vpc subnet = .ok (.map entries') := by
  constructor
  · obtain ⟨entries', connected, found, clear⟩ := connect_eq vpc subnet listed sourced
    refine ⟨entries', _, connected, lists_of_get? found, extends_added,
      connect_self found clear (added_self fun e mem => ?_)⟩
    rw [contains, get?_added, Option.isSome_or, Bool.or_eq_true]
    exact .inr (Assoc.contains_iff.mpr (Assoc.mem_keys mem))
  · refine ⟨_, opened vpc subnet rs, openUp_eq listed, lists_set _ _, extends_opened, ?_⟩
    rw [openUp_eq (lists_set _ _), opened_opened, setDefault_of_lists (by simp [Assoc.get?_set])]

def sample : Resources := [("aws_instance", [("web", [])]), ("aws_lb", [("front", [])])]

theorem repairs_extend_sample :
    Lists (configured sample) sample ∧ Sourced (configured sample) ∧
      ∃ entries' rs', openUp (.map (configured sample)) (.str "vpc-1") (.str "subnet-1") =
        .ok (.map entries') ∧
        Lists entries' rs' ∧ Extends (MayOpen sample) sample rs' ∧
        openUp (.map entries') (.str "vpc-1") (.str "subnet-1") = .ok (.map entries') := by
  have listed : Lists (configured sample) sample := rfl
  have sourced : Sourced (configured sample) := ⟨[], rfl, nodup_nil⟩
  exact ⟨listed, sourced, (repairs_extend_once _ _ listed sourced).2⟩

/-! ### References -/

def Mentions (d : Data) (type name : String) : Prop :=
  ∃ leaf ∈ d.leaves, leaf.2 = reference type name

/-- Values such as the answers of a cloud service. -/
def Plain (d : Data) : Prop := ∀ type name, ¬ Mentions d type name

theorem toList_reference (type name : String) : reference type name =
    .str (.ofList ("$\x7b".toList ++ (type.toList ++ '.' :: name.toList) ++ ".id\x7d".toList)) := by
  rw [reference, Data.str.injEq, ← String.toList_inj]
  simp [toString]

theorem reference_inj {type name type' name' : String} (whole : '.' ∉ type.toList)
    (whole' : '.' ∉ name.toList) :
    reference type name = reference type' name' ↔ type = type' ∧ name = name' := by
  rw [toList_reference, toList_reference, Data.str.injEq, String.ofList_inj, append_left_inj,
    append_right_inj, append_cons_inj_of_notMem whole whole', String.toList_inj, String.toList_inj]
  tauto

theorem mentions_reference_iff {type name type' name' : String} (whole : '.' ∉ type.toList)
    (whole' : '.' ∉ name.toList) :
    Mentions (reference type name) type' name' ↔ type = type' ∧ name = name' := by
  rw [← reference_inj whole whole']
  exact ⟨fun ⟨leaf, mem, refers⟩ => by cases mem_singleton.mp mem; exact refers, fun same =>
    ⟨_, .head _, same⟩⟩

def startsPlainly : Data → Bool
  | .str s => s.toList.head? != some '$'
  | _ => true

theorem plain_of_leaves {d : Data} (h : d.leaves.all (fun leaf => startsPlainly leaf.2) = true) :
    Plain d := by
  rintro type name ⟨leaf, mem, refers⟩
  have plain := all_eq_true.mp h leaf mem
  rw [refers, toList_reference, startsPlainly] at plain
  simp at plain

def value? (rs : Resources) (type name key : String) : Option Data :=
  ((get? rs type).bind (get? · name)).bind (get? · key)

/-- A value that is not in `rs` mentions a resource. -/
def Refers (rs rs' : Resources) (place : String) (type name : String) : Prop := ∃ own key value,
  value? rs' place own key = some value ∧ value? rs place own key ≠ some value ∧
    Mentions value type name

def Resolves (rs : Resources) (type name : String) : Prop :=
  ∃ named, get? rs type = some named ∧ contains named name = true

/-- The resource under the fixed name, if there are any of the type. -/
def Main (rs : Resources) (type : String) : Prop :=
  ∀ named, get? rs type = some named → contains named "main" = true

def Backed (rs : Resources) : Prop :=
  (get? rs "aws_route" = none → Main rs "aws_route_table" ∧ Main rs "aws_internet_gateway") ∧
    (get? rs "aws_route_table_association" = none → Main rs "aws_route_table")

def altered : List String := ["aws_security_group", "aws_instance", "aws_lb"]

theorem get?_routing_of_altered {place : String} (special : place ∈ altered) :
    get? (routing vpc subnet) place = none := by
  simp only [altered, mem_cons, not_mem_nil, or_false] at special
  rcases special with rfl | rfl | rfl <;> rfl

section Routing

variable {rs' : Resources} (plainVpc : Plain vpc) (plainSubnet : Plain subnet)

include plainVpc plainSubnet

theorem mentions_of_routing {place own key type name : String} {value : Data}
    (found : value? (routing vpc subnet) place own key = some value)
    (mentions : Mentions value type name) :
    name = "main" ∧ (place = "aws_route" ∧
      (type = "aws_route_table" ∨ type = "aws_internet_gateway") ∨
      place = "aws_route_table_association" ∧ type = "aws_route_table") := by
  obtain ⟨attributes, found, here⟩ := Option.bind_eq_some_iff.mp found
  obtain ⟨named, found, there⟩ := Option.bind_eq_some_iff.mp found
  have main := Assoc.mem_of_get? here
  replace there := Assoc.mem_of_get? there
  replace found := Assoc.mem_of_get? found
  have table : Mentions (reference "aws_route_table" "main") type name ↔ _ :=
    mentions_reference_iff (by decide) (by decide)
  have gateway : Mentions (reference "aws_internet_gateway" "main") type name ↔ _ :=
    mentions_reference_iff (by decide) (by decide)
  have block : ¬ Mentions (.str "0.0.0.0/0") type name := plain_of_leaves rfl type name
  have tagged : ¬ Mentions (tags "main") type name := plain_of_leaves rfl type name
  simp only [routing, inNetwork, mem_cons, not_mem_nil, or_false, Prod.mk.injEq] at found
  rcases found with ⟨rfl, rfl⟩ | ⟨rfl, rfl⟩ | ⟨rfl, rfl⟩ | ⟨rfl, rfl⟩
  all_goals
    simp only [mem_cons, not_mem_nil, or_false, Prod.mk.injEq] at there
    obtain ⟨rfl, rfl⟩ := there
    simp only [mem_cons, not_mem_nil, or_false, Prod.mk.injEq] at main
  · rcases main with ⟨-, rfl⟩ | ⟨-, rfl⟩
    · exact (plainVpc _ _ mentions).elim
    · exact (tagged mentions).elim
  · rcases main with ⟨-, rfl⟩ | ⟨-, rfl⟩
    · exact (plainVpc _ _ mentions).elim
    · exact (tagged mentions).elim
  · rcases main with ⟨-, rfl⟩ | ⟨-, rfl⟩ | ⟨-, rfl⟩
    · obtain ⟨rfl, rfl⟩ := table.mp mentions
      simp
    · exact (block mentions).elim
    · obtain ⟨rfl, rfl⟩ := gateway.mp mentions
      simp
  · rcases main with ⟨-, rfl⟩ | ⟨-, rfl⟩
    · exact (plainSubnet _ _ mentions).elim
    · obtain ⟨rfl, rfl⟩ := table.mp mentions
      simp

theorem refers_resolve_iff (same : ∀ t ∉ altered,
      get? rs' t = (get? rs t).or (get? (routing vpc subnet) t))
    (rest : ∀ place ∈ altered, ∀ type name, Refers rs rs' place type name →
      Resolves rs' type name) :
    (∀ place type name, Refers rs rs' place type name → Resolves rs' type name) ↔ Backed rs := by
  have main (type : String) (other : type ∉ altered)
    (fixed : get? (routing vpc subnet) type = some (inNetwork vpc)) :
      Resolves rs' type "main" ↔ Main rs type := by
    rw [Resolves, Main, same type other, fixed]
    cases get? rs type with
    | none => simp [inNetwork, contains, get?]
    | some named => simp
  have table := main "aws_route_table" (by decide) rfl
  have gateway := main "aws_internet_gateway" (by decide) rfl
  have fresh (own key : String) {place type name : String} (other : place ∉ altered)
    (missing : get? rs place = none)
      (written : value? (routing vpc subnet) place own key = some (reference type name)) :
        Refers rs rs' place type name := by
    refine ⟨own, key, reference type name, ?_, ?_, ([], reference type name), .head _, rfl⟩
    · rw [value?, same place other, missing, Option.none_or]
      exact written
    · simp [value?, missing]
  constructor
  · intro resolves
    refine ⟨fun missing => ⟨?_, ?_⟩, fun missing => ?_⟩
    · exact table.mp (resolves _ _ _ (fresh "internet_access" "route_table_id"
        (by decide) missing rfl))
    · exact gateway.mp (resolves _ _ _ (fresh "internet_access" "gateway_id"
        (by decide) missing rfl))
    · exact table.mp (resolves _ _ _ (fresh "main" "route_table_id" (by decide) missing rfl))
  · intro backed place type name refers
    by_cases special : place ∈ altered
    · exact rest place special type name refers
    obtain ⟨own, key, value, found, new, mentions⟩ := refers
    have kept := same place special
    cases missing : get? rs place with
    | some named =>
      rw [missing, Option.some_or, ← missing] at kept
      rw [value?, kept] at found
      exact (new found).elim
    | none =>
      rw [missing, Option.none_or] at kept
      rw [value?, kept] at found
      obtain ⟨rfl, ⟨rfl, rfl | rfl⟩ | ⟨rfl, rfl⟩⟩ :=
        mentions_of_routing plainVpc plainSubnet found mentions
      · exact table.mpr (backed.1 missing).1
      · exact gateway.mpr (backed.1 missing).2
      · exact table.mpr (backed.2 missing)

theorem refers_resolve_added :
    (∀ place type name, Refers rs (added (routing vpc subnet) rs) place type name →
    Resolves (added (routing vpc subnet) rs) type name) ↔ Backed rs := by
  refine refers_resolve_iff plainVpc plainSubnet (fun t _ => get?_added _ _ t) ?_
  rintro place special type name ⟨own, key, value, found, new, -⟩
  rw [value?, get?_added, get?_routing_of_altered special, Option.or_none] at found
  exact (new found).elim

omit plainSubnet in
theorem plain_of_groups {own key : String} {attributes : Assoc Data} {value : Data}
    (found : get? (groups vpc rs) own = some attributes) (here : get? attributes key = some value) :
    value? rs "aws_security_group" own key = some value ∨ Plain value := by
  have plain : (∀ e ∈ sshGroup vpc, Plain e.2) ∧ ∀ e ∈ balancerGroup vpc, Plain e.2 := by
    have fixed {d : Data} (h : d.leaves.all (fun leaf => startsPlainly leaf.2) = true) :=
      plain_of_leaves h
    simp only [sshGroup, balancerGroup, securityGroup, forall_mem_cons, not_mem_nil, false_imp_iff,
      implies_true, and_true]
    exact ⟨⟨fixed rfl, fixed rfl, plainVpc, fixed rfl, fixed rfl, fixed rfl⟩,
      fixed rfl, fixed rfl, plainVpc, fixed rfl, fixed rfl, fixed rfl⟩
  have held : get? ((get? rs "aws_security_group").getD [("allow_ssh", sshGroup vpc)]) own =
    some attributes →
      value? rs "aws_security_group" own key = some value ∨ Plain value := by
    intro found
    cases group : get? rs "aws_security_group" with
    | some groups =>
      rw [group, Option.getD_some] at found
      exact .inl (by rw [value?, group, Option.bind_some, found, Option.bind_some, here])
    | none =>
      rw [group] at found
      obtain ⟨rfl, rfl⟩ : _ ∧ _ := by simpa [get?] using found
      exact .inr (plain.1 _ (Assoc.mem_of_get? here))
  unfold groups at found
  split at found
  · rw [get?_setDefault] at found
    rcases Option.or_eq_some_iff.mp found with found | ⟨-, found⟩
    · exact held found
    · obtain ⟨rfl, rfl⟩ : _ ∧ _ := by simpa using found
      exact .inr (plain.2 _ (Assoc.mem_of_get? here))
  · exact held found

omit plainVpc plainSubnet in
variable (vpc) in
theorem opening_cases {type key : String} {attributes : Assoc Data} {value : Data}
    (known : contains rs type = true)
    (found : get? (opening rs type attributes) key = some value) :
    get? attributes key = some value ∨
      ∃ name, value = .list [reference "aws_security_group" name] ∧ '.' ∉ name.toList ∧
        contains (groups vpc rs) name = true := by
  unfold opening at found
  split at found
  · next fresh =>
      rw [Assoc.get?_set] at found
      split at found
      · have none : get? rs "aws_security_group" = none := by simpa [contains] using fresh.2
        refine .inr ⟨"allow_ssh", (Option.some.inj found).symm, by decide, ?_⟩
        rw [groups, none]
        split <;> simp [contains, get?_setDefault, get?]
      · exact .inl found
  · split at found
    · next balancer =>
        subst balancer
        rw [get?_setDefault] at found
        rcases Option.or_eq_some_iff.mp found with old | ⟨-, new⟩
        · exact .inl old
        · obtain ⟨-, rfl⟩ : _ ∧ _ := by simpa using new
          exact .inr ⟨"alb", rfl, by decide, contains_groups_alb known⟩
    · exact .inl found

theorem refers_resolve_opened :
    (∀ place type name, Refers rs (opened vpc subnet rs) place type name →
    Resolves (opened vpc subnet rs) type name) ↔ Backed rs := by
  refine refers_resolve_iff plainVpc plainSubnet (fun t other => ?_) ?_
  · simp only [altered, mem_cons, not_mem_nil, or_false, not_or] at other
    rw [get?_opened, if_neg other.1, mapValues_opening other.2.1 other.2.2, Option.map_id, id_eq]
  rintro place special type name ⟨own, key, value, found, new, mentions⟩
  obtain ⟨attributes, found, here⟩ := Option.bind_eq_some_iff.mp found
  obtain ⟨named, found, there⟩ := Option.bind_eq_some_iff.mp found
  by_cases group : place = "aws_security_group"
  · subst group
    cases get?_opened_group.symm.trans found
    exact ((plain_of_groups plainVpc there here).resolve_left new _ _ mentions).elim
  · rw [get?_opened, if_neg group, get?_routing_of_altered special, Option.or_none] at found
    obtain ⟨old, listed, rfl⟩ := Option.map_eq_some_iff.mp found
    rw [Assoc.get?_mapValues] at there
    obtain ⟨attributes, own, rfl⟩ := Option.map_eq_some_iff.mp there
    rcases opening_cases vpc (Assoc.contains_of_get? listed) here with kept | ⟨name', rfl,
      whole, known⟩
    · exact (new (by rw [value?, listed, Option.bind_some, own, Option.bind_some, kept])).elim
    · obtain ⟨leaf, mem, refers⟩ := mentions
      cases mem_singleton.mp mem
      obtain ⟨rfl, rfl⟩ := (reference_inj (by decide) whole).mp refers
      exact ⟨_, get?_opened_group, known⟩

end Routing

/-- All references that a repair writes lead to resources just if the types that are there have a
resource of the fixed name wherever one refers to them. -/
theorem repairs_resolve_iff_backed (plainVpc : Plain vpc) (plainSubnet : Plain subnet)
    (listed : Lists entries rs) (sourced : Sourced entries) :
    (∃ entries' rs', connect (.map entries) vpc subnet = .ok (.map entries') ∧ Lists entries' rs' ∧
      ((∀ place type name, Refers rs rs' place type name → Resolves rs' type name) ↔ Backed rs)) ∧
    ∃ entries' rs', openUp (.map entries) vpc subnet = .ok (.map entries') ∧ Lists entries' rs' ∧
      ((∀ place type name, Refers rs rs' place type name → Resolves rs' type name) ↔
        Backed rs) := by
  constructor
  · obtain ⟨entries', connected, found, -⟩ := connect_eq vpc subnet listed sourced
    exact ⟨entries', _, connected, lists_of_get? found, refers_resolve_added plainVpc plainSubnet⟩
  · exact ⟨_, _, openUp_eq listed, lists_set _ _, refers_resolve_opened plainVpc plainSubnet⟩

theorem repairs_resolve_sample :
    Plain (.str "vpc-1") ∧ Plain (.str "subnet-1") ∧ Lists (configured sample) sample ∧
      Sourced (configured sample) ∧
      ∃ entries' rs', openUp (.map (configured sample)) (.str "vpc-1") (.str "subnet-1") =
        .ok (.map entries') ∧
        Lists entries' rs' ∧ ∀ place type name, Refers sample rs' place type name →
          Resolves rs' type name := by
  have plainVpc : Plain (.str "vpc-1") := plain_of_leaves rfl
  have plainSubnet : Plain (.str "subnet-1") := plain_of_leaves rfl
  have listed : Lists (configured sample) sample := rfl
  have sourced : Sourced (configured sample) := ⟨[], rfl, nodup_nil⟩
  have backed : Backed sample := by simp [Backed, Main, sample, get?]
  obtain ⟨-, entries', rs', opened, listed', resolves⟩ :=
    repairs_resolve_iff_backed plainVpc plainSubnet listed sourced
  exact ⟨plainVpc, plainSubnet, listed, sourced, entries', rs', opened, listed',
    resolves.mpr backed⟩

/-- The only route table has another name than the one that the new route refers to. -/
theorem connect_refers_to_nothing :
    ∃ entries' rs', connect (.map (configured [("aws_route_table", [("public", [])])]))
      (.str "vpc-1") (.str "subnet-1") =
        .ok (.map entries') ∧ Lists entries' rs' ∧
      Refers [("aws_route_table", [("public", [])])] rs' "aws_route" "aws_route_table" "main" ∧
      ¬ Resolves rs' "aws_route_table" "main" := by
  refine ⟨_, added (routing (.str "vpc-1") (.str "subnet-1"))
    [("aws_route_table", [("public", [])])], rfl, rfl, ?_, ?_⟩
  · exact ⟨"internet_access", "route_table_id", _, rfl, by simp [value?, get?], ⟨_, .head _, rfl⟩⟩
  · rintro ⟨named, found, held⟩
    cases found
    cases held

end Repairs

end Stratus.Network
