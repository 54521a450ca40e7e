import Stratus.Diagnosis.Difference
import Stratus.Proofs.Service.Reading

/-!
The difference of two states of the resources. Each pair of a type and a name is listed once, as
added, removed or modified, and the states are the same just if nothing is listed.
-/
namespace Stratus

open Assoc hiding set

namespace Data

theorem sameNumber_comm (a b : Data) : sameNumber a b = sameNumber b a := by
  have floats (x y : Binary64) : (x.compare? y == some .eq) = (y.compare? x == some .eq) := by
    unfold Binary64.compare? Binary64.compareQuotients
    generalize x.toQuotient = p, y.toQuotient = q
    rw [Bool.or_comm, Bool.eq_iff_iff]
    split
    · rfl
    · simp only [beq_iff_eq, Option.some.injEq, compare_eq_iff_eq]
      exact eq_comm
  cases a with
  | float x => cases b with
    | float y => exact floats x y
    | _ => rfl
  | _ => cases b with
    | float y => rfl
    | _ => simp only [sameNumber, int?, Bool.beq_comm]; try rfl

theorem sameItems_iff {a b : List Data} :
    sameItems a b = true ↔ List.Forall₂ (fun x y => same x y = true) a b := by
  induction a generalizing b with
  | nil => cases b <;> simp [sameItems]
  | cons x a ih => cases b <;> simp [sameItems, ih]

theorem sameEntries_iff {a b : Assoc Data} :
    sameEntries a b = true ↔ ∀ e ∈ a, ∃ v, get? b e.1 = some v ∧ same e.2 v = true := by
  induction a with
  | nil => simp [sameEntries]
  | cons e a ih =>
    rw [sameEntries, Bool.and_eq_true, ih, List.forall_mem_cons]
    cases get? b e.1 <;> simp

theorem same_symm {a b : Data} (left : a.distinct = true) (right : b.distinct = true)
    (h : same a b = true) : same b a = true := by
  induction a using induct generalizing b with
  | list items ih =>
    cases b with
    | list others =>
      rw [same, sameItems_iff] at h ⊢
      rw [distinct_list_iff] at left right
      refine List.forall₂_iff_get.mpr ⟨h.length_eq.symm, fun i here there => ?_⟩
      exact ih _ (List.get_mem _ _) (left _ (List.get_mem _ _)) (right _ (List.get_mem _ _))
        (h.get there here)
    | _ => simp [same, sameNumber, int?] at h
  | map entries ih =>
    cases b with
    | map others =>
      obtain ⟨nodup, inner⟩ := distinct_map_iff.mp left
      obtain ⟨nodup', inner'⟩ := distinct_map_iff.mp right
      simp only [same, Bool.and_eq_true, beq_iff_eq, sameEntries_iff] at h ⊢
      refine ⟨h.1.symm, fun e member => ?_⟩
      have covered : Assoc.keys entries ⊆ Assoc.keys others := by
        intro key member
        obtain ⟨e, known, rfl⟩ := List.mem_map.mp member
        obtain ⟨v, found, -⟩ := h.2 e known
        exact mem_keys (mem_of_get? found)
      have covers := ((List.subperm_of_subset nodup covered).perm_of_length_le
        (by simp [Assoc.keys, h.1])).symm.subset
      obtain ⟨⟨key, v⟩, known, rfl⟩ := List.mem_map.mp (covers (mem_keys member))
      obtain ⟨w, found, equal⟩ := h.2 _ known
      cases (get?_of_mem nodup' member).symm.trans found
      exact ⟨v, get?_of_mem nodup known, ih _ known (inner _ _ known) (inner' _ _ member) equal⟩
    | _ => simp [same, sameNumber, int?] at h
  | scalar a flat flat' =>
    cases a with
    | list => cases flat
    | map => cases flat'
    | _ => cases b <;> simp_all [same, sameNumber_comm]

end Data

namespace Change

/-- Resources by type and name. -/
abbrev State := Assoc (Assoc Data)

def State.data (s : State) : Data := .map (mapValues .map s)

def State.ofType (s : State) (type : String) : Assoc Data := getD s type []

def State.resource? (s : State) (type name : String) : Option Data := get? (s.ofType type) name

/-- What a change says about two states. -/
def Holds (before after : State) : Change → Prop
  | added type name => before.resource? type name = none ∧ (after.resource? type name).isSome
  | removed type name => (before.resource? type name).isSome ∧ after.resource? type name = none
  | modified type name =>
    ∃ old new, before.resource? type name = some old ∧ after.resource? type name = some new ∧
      (old == new) = false

def swap : Change → Change
  | added type name => removed type name
  | removed type name => added type name
  | modified type name => modified type name

def type : Change → String
  | added type _ | removed type _ | modified type _ => type

def ofNamed (type : String) (before after : Assoc Data) : List Change :=
  (after.filter fun e => !contains before e.1).map (.added type ·.1) ++
    (before.filter fun e => !contains after e.1).map (.removed type ·.1) ++
    (before.filter fun e => (get? after e.1).any fun v => !(e.2 == v)).map (.modified type ·.1)

variable {before after : State}

theorem getD_data (s : State) (type : String) :
    getD (mapValues Data.map s) type (.map []) = .map (s.ofType type) := by
  rw [getD, get?_mapValues, State.ofType, getD]
  cases get? s type <;> rfl

theorem between_eq : between before.data after.data =
    .ok ((keys before ++ (keys after).filter fun type => !contains before type).flatMap fun type =>
      ofNamed type (before.ofType type) (after.ofType type)) := by
  have held (s : State) (type : String) : contains (mapValues Data.map s) type = contains s type := by
    simp [contains, get?_mapValues]
  have each (types : List String) :
    types.mapM (fun type => ofType type (.map (before.ofType type)) (.map (after.ofType type))) =
      .ok (types.map fun type => ofNamed type (before.ofType type) (after.ofType type)) :=
    Outcome.mapM_eq_ok_iff.mpr (List.forall₂_map_right_iff.mpr (List.forall₂_same.mpr fun _ _ => rfl))
  unfold between State.data
  simp only [Data.entriesFor, Outcome.ok_bind, getD_data, keys_mapValues, held, each]
  rfl

section Distinct

variable {s : State} {type name : String} {d : Data} (h : s.data.distinct = true)

include h

theorem distinct_ofType (type : String) : (Data.map (s.ofType type)).distinct = true := by
  rw [State.ofType, getD]
  cases found : get? s type with
  | none => rfl
  | some named =>
    have member : (type, Data.map named) ∈ mapValues .map s :=
      mem_of_get? (by rw [get?_mapValues, found]; rfl)
    exact (Data.distinct_map_iff.mp h).2 _ _ member

theorem nodup_keys_ofType (type : String) : (keys (s.ofType type)).Nodup :=
  (Data.distinct_map_iff.mp (distinct_ofType h type)).1

theorem distinct_of_resource? (known : s.resource? type name = some d) : d.distinct = true :=
  (Data.distinct_map_iff.mp (distinct_ofType h type)).2 _ _ (mem_of_get? known)

end Distinct

theorem contains_ofType {s : State} {type name : String} :
    contains (s.ofType type) name = true ↔ ∃ d, (name, d) ∈ s.ofType type := by
  rw [contains_iff]
  simp [keys]

theorem absent_iff {s : State} {type name : String} :
    (!contains (s.ofType type) name) = true ↔ s.resource? type name = none := by
  simp [contains, State.resource?]

theorem mem_keys_of_resource? {s : State} {type name : String}
    (h : (s.resource? type name).isSome) : type ∈ keys s := by
  by_contra new
  rw [State.resource?, State.ofType, getD, get?_eq_none_iff.mpr new] at h
  cases h

section Named

variable {type : String} (left : before.data.distinct = true) (right : after.data.distinct = true)

include left

theorem mem_ofNamed_iff {c : Change} :
    c ∈ ofNamed type (before.ofType type) (after.ofType type) ↔
      type = c.type ∧ c.Holds before after := by
  have held {name : String} {old : Data} : (name, old) ∈ before.ofType type ↔
      before.resource? type name = some old :=
    ⟨get?_of_mem (nodup_keys_ofType left type), mem_of_get?⟩
  simp only [ofNamed, List.mem_append, List.mem_map, List.mem_filter, Prod.exists, absent_iff]
  cases c with
  | added type' name =>
    simp only [added.injEq, reduceCtorEq, and_false, exists_false, or_false]
    constructor
    · rintro ⟨name, d, ⟨member, new⟩, rfl, rfl⟩
      exact ⟨rfl, new, contains_ofType.mpr ⟨d, member⟩⟩
    · rintro ⟨rfl, new, known⟩
      obtain ⟨d, member⟩ := contains_ofType.mp known
      exact ⟨name, d, ⟨member, new⟩, rfl, rfl⟩
  | removed type' name =>
    simp only [removed.injEq, reduceCtorEq, and_false, exists_false, or_false, false_or]
    constructor
    · rintro ⟨name, d, ⟨member, gone⟩, rfl, rfl⟩
      exact ⟨rfl, contains_ofType.mpr ⟨d, member⟩, gone⟩
    · rintro ⟨rfl, known, gone⟩
      obtain ⟨d, member⟩ := contains_ofType.mp known
      exact ⟨name, d, ⟨member, gone⟩, rfl, rfl⟩
  | modified type' name =>
    simp only [modified.injEq, reduceCtorEq, and_false, exists_false, false_or, held,
      Option.any_eq_true]
    constructor
    · rintro ⟨name, old, ⟨known, new, found, other⟩, rfl, rfl⟩
      exact ⟨rfl, old, new, known, found, by simpa using other⟩
    · rintro ⟨rfl, old, new, known, found, other⟩
      exact ⟨name, old, ⟨known, new, found, by simpa using other⟩, rfl, rfl⟩

include right

theorem nodup_ofNamed : (ofNamed type (before.ofType type) (after.ofType type)).Nodup := by
  have once {s : State} (h : s.data.distinct = true)
    (p : String × Data → Bool) {f : String → Change} (inj : Function.Injective f) :
      (((s.ofType type).filter p).map fun e => f e.1).Nodup := by
    have sub : (((s.ofType type).filter p).map (·.1)).Sublist (keys (s.ofType type)) :=
      List.filter_sublist.map _
    have nodup := ((nodup_keys_ofType h type).sublist sub).map inj
    rwa [List.map_map] at nodup
  refine List.Nodup.append (List.Nodup.append (once right _ ?_) (once left _ ?_) ?_)
    (once left _ ?_) ?_
  · exact fun _ _ h => (added.inj h).2
  · exact fun _ _ h => (removed.inj h).2
  · intro c come gone
    obtain ⟨_, -, rfl⟩ := List.mem_map.mp come
    simp at gone
  · exact fun _ _ h => (modified.inj h).2
  · intro c moved changed
    obtain ⟨_, -, rfl⟩ := List.mem_map.mp changed
    simp at moved

theorem exists_between : ∃ changes, between before.data after.data = .ok changes ∧ changes.Nodup ∧
    ∀ c, c ∈ changes ↔ c.Holds before after := by
  have typed {s : State} (h : s.data.distinct = true) : (keys s).Nodup :=
    keys_mapValues Data.map s ▸ (Data.distinct_map_iff.mp h).1
  refine ⟨_, between_eq, List.nodup_flatMap.mpr ⟨fun type _ => nodup_ofNamed left right, ?_⟩,
    fun c => ?_⟩
  · refine List.Pairwise.imp (R := (· ≠ ·)) (fun other c here there => other ?_)
      (List.Nodup.append (typed left) ((typed right).filter _) ?_)
    · exact ((mem_ofNamed_iff left).mp here).1.trans ((mem_ofNamed_iff left).mp there).1.symm
    · intro type old new
      simp [contains_iff.mpr old] at new
  · simp only [List.mem_flatMap, mem_ofNamed_iff left]
    constructor
    · rintro ⟨_, _, _, holds⟩
      exact holds
    intro holds
    refine ⟨c.type, ?_, rfl, holds⟩
    simp only [List.mem_append, List.mem_filter, Bool.not_eq_true', ← Bool.not_eq_true, contains_iff]
    by_cases old : c.type ∈ keys before
    · exact .inl old
    · refine .inr ⟨?_, old⟩
      cases c with
      | added => exact mem_keys_of_resource? holds.2
      | removed => exact absurd (mem_keys_of_resource? holds.1) old
      | modified =>
        obtain ⟨_, _, known, -⟩ := holds
        exact absurd (mem_keys_of_resource? (Option.isSome_iff_exists.mpr ⟨_, known⟩)) old

theorem holds_swap_iff (c : Change) : c.swap.Holds after before ↔ c.Holds before after := by
  have comm {type name : String} {old new : Data} (known : before.resource? type name = some old)
      (found : after.resource? type name = some new) : (new == old) = (old == new) := by
    have inner := distinct_of_resource? left known
    have inner' := distinct_of_resource? right found
    exact Bool.eq_iff_iff.mpr ⟨Data.same_symm inner' inner, Data.same_symm inner inner'⟩
  cases c with
  | added => exact and_comm
  | removed => exact and_comm
  | modified type name =>
    constructor
    · rintro ⟨new, old, found, known, other⟩
      exact ⟨old, new, known, found, comm known found ▸ other⟩
    · rintro ⟨old, new, known, found, other⟩
      exact ⟨new, old, found, known, (comm known found).trans other⟩

end Named

/-- A pair is the same in both states just when no change is about it. -/
theorem rel_iff_not_holds {type name : String} :
    Option.Rel (fun old new => (old == new) = true) (before.resource? type name)
      (after.resource? type name) ↔
      ¬ (added type name).Holds before after ∧ ¬ (removed type name).Holds before after ∧
        ¬ (modified type name).Holds before after := by
  cases known : before.resource? type name <;> cases found : after.resource? type name <;>
    simp [Holds, known, found]

theorem forall_not_holds_iff : (∀ c : Change, ¬ c.Holds before after) ↔
    ∀ type name, Option.Rel (fun old new => (old == new) = true) (before.resource? type name)
      (after.resource? type name) := by
  simp only [rel_iff_not_holds]
  refine ⟨fun none type name => ⟨none _, none _, none _⟩, fun agree c => ?_⟩
  cases c with
  | added => exact (agree _ _).1
  | removed => exact (agree _ _).2.1
  | modified => exact (agree _ _).2.2

theorem swap_swap (c : Change) : c.swap.swap = c := by cases c <;> rfl

/-- Two states differ by exactly one line for each pair of type and name that came, that went, or
whose resource is another one. -/
theorem between_is_difference (left : before.data.distinct = true)
    (right : after.data.distinct = true) :
    ∃ changes changes', between before.data after.data = .ok changes ∧
      between after.data before.data = .ok changes' ∧
      changes.Nodup ∧ (∀ c, c ∈ changes ↔ c.Holds before after) ∧
      (lines changes).Perm (changes.map fun
        | added type name => "➕ Add " ++ type ++ "." ++ name
        | removed type name => "➖ Remove " ++ type ++ "." ++ name
        | modified type name => "📝 Modify " ++ type ++ "." ++ name) ∧
      (changes = [] ↔ ∀ type name,
        Option.Rel (fun old new => (old == new) = true) (before.resource? type name)
          (after.resource? type name)) ∧
      changes'.Perm (changes.map swap) := by
  obtain ⟨changes, found, nodup, exact⟩ := exists_between left right
  obtain ⟨changes', found', nodup', exact'⟩ := exists_between right left
  refine ⟨changes, changes', found, found', nodup, exact, List.mergeSort_perm .., ?_, ?_⟩
  · rw [List.eq_nil_iff_forall_not_mem, ← forall_not_holds_iff]
    simp only [exact]
  · have inj : Function.Injective swap := Function.LeftInverse.injective swap_swap
    refine (List.perm_ext_iff_of_nodup nodup' (nodup.map inj)).mpr fun c => ?_
    calc c ∈ changes' ↔ c.swap.Holds before after := by rw [exact', ← holds_swap_iff right left]
      _ ↔ c ∈ changes.map swap := by rw [← exact, ← List.mem_map_of_injective inj, swap_swap]

/-- A resource came, one went and one is another; of the empty type nothing is listed. -/
theorem between_is_difference_sample :
    ∃ before after : State, before.data.distinct = true ∧ after.data.distinct = true ∧
      ∃ changes changes', between before.data after.data = .ok changes ∧
        between after.data before.data = .ok changes' ∧
        changes.Nodup ∧ .added "aws_vpc" "main" ∈ changes ∧ .removed "aws_instance" "db" ∈ changes ∧
        .modified "aws_instance" "web" ∈ changes ∧ changes'.Perm (changes.map swap) := by
  let before : State := [("aws_instance", [("web", .map [("ami", .str "a")]), ("db", .int 2)]),
    ("aws_eip", [])]
  let after : State := [("aws_vpc", [("main", .null)]),
    ("aws_instance", [("web", .map [("ami", .str "b")])])]
  have left : before.data.distinct = true := by cbv
  have right : after.data.distinct = true := by cbv
  obtain ⟨changes, changes', found, found', nodup, mem, -, -, swapped⟩ :=
    between_is_difference left right
  refine ⟨before, after, left, right, changes, changes', found, found', nodup, ?_, ?_, ?_, swapped⟩
  · exact (mem _).mpr ⟨rfl, rfl⟩
  · exact (mem _).mpr ⟨rfl, rfl⟩
  · exact (mem _).mpr ⟨_, _, rfl, rfl, by cbv⟩

end Change
end Stratus
