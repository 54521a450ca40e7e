import Stratus.Proofs.Outcome

/-!
Laws of entries in insertion order: what is found after a write, and the keys that a write leaves.
Entries that come from writes have no key twice, and writing such entries once more changes nothing.
-/
namespace Stratus.Assoc

open List

variable {α : Type*}

theorem keys_cons (e : String × α) (m : Assoc α) : keys (e :: m) = e.1 :: keys m := rfl

/-- Induction on entries, those under one key apart. -/
theorem inductAt (key : String) {P : Assoc α → Prop} (nil : P [])
    (here : ∀ v m, P m → P ((key, v) :: m))
    (other : ∀ k v m, k ≠ key → P m → P ((k, v) :: m)) (m : Assoc α) : P m := by
  induction m with
  | nil => exact nil
  | cons e m ih =>
    obtain ⟨k, v⟩ := e
    by_cases same : k = key
    · exact same ▸ here v m ih
    · exact other k v m same ih

/-- The values under a key, those behind the first one included. -/
def valuesAt (m : Assoc α) (key : String) : List α := (m.filter (·.1 == key)).map (·.2)

section ValuesAt

variable (m : Assoc α) {key k : String} (value : α)

theorem valuesAt_cons_self (m : Assoc α) :
    valuesAt ((key, value) :: m) key = value :: valuesAt m key := by
  simp [valuesAt]

theorem valuesAt_cons_of_ne (other : key ≠ k) : valuesAt ((key, value) :: m) k = valuesAt m k := by
  simp [valuesAt, other]

theorem head?_valuesAt : (valuesAt m key).head? = get? m key := by
  induction m using inductAt key with
  | nil => rfl
  | here v m => simp [valuesAt_cons_self, get?]
  | other k v m other ih =>
    rw [valuesAt_cons_of_ne _ _ other, ih, get?, if_neg (by simpa using other)]

theorem valuesAt_set_self : valuesAt (set m key value) key = value :: (valuesAt m key).tail := by
  induction m using inductAt key with
  | nil => simp [set, valuesAt]
  | here v m => simp [set, valuesAt_cons_self]
  | other k v m other ih => simp [set, other, valuesAt_cons_of_ne, ih]

theorem valuesAt_set_of_ne (other : key ≠ k) : valuesAt (set m key value) k = valuesAt m k := by
  induction m using inductAt key with
  | nil => simp [set, valuesAt, other]
  | here v m => simp [set, valuesAt_cons_of_ne, other]
  | other k' v m differs ih =>
    by_cases here : k' = k
    · simp [set, here ▸ differs, here, valuesAt_cons_self, ih]
    · simp [set, differs, valuesAt_cons_of_ne, here, ih]

theorem valuesAt_erase_self : valuesAt (erase m key) key = (valuesAt m key).tail := by
  induction m using inductAt key with
  | nil => rfl
  | here v m => simp [erase, valuesAt_cons_self]
  | other k v m other ih => simp [erase, other, valuesAt_cons_of_ne, ih]

theorem valuesAt_erase_of_ne (other : key ≠ k) : valuesAt (erase m key) k = valuesAt m k := by
  induction m using inductAt key with
  | nil => rfl
  | here v m => simp [erase, valuesAt_cons_of_ne, other]
  | other k' v m differs ih =>
    by_cases here : k' = k
    · simp [erase, here ▸ differs, here, valuesAt_cons_self, ih]
    · simp [erase, differs, valuesAt_cons_of_ne, here, ih]

end ValuesAt

theorem get?_set (m : Assoc α) (key : String) (value : α) (k : String) :
    get? (set m key value) k = if key = k then some value else get? m k := by
  rw [← head?_valuesAt, ← head?_valuesAt]
  split
  · next same => rw [← same, valuesAt_set_self, head?_cons]
  · next other => rw [valuesAt_set_of_ne m value other]

theorem get?_mapValues {β : Type*} (f : α → β) (m : Assoc α) (key : String) :
    get? (mapValues f m) key = (get? m key).map f := by
  induction m using inductAt key with
  | nil => rfl
  | here v m => simp [mapValues, get?]
  | other k v m other ih => simpa [mapValues, get?, other] using ih

variable {m n : Assoc α} {key k : String} {value : α}

theorem contains_iff : contains m key = true ↔ key ∈ keys m := by
  induction m using inductAt key with
  | nil => simp [contains, get?, keys]
  | here v m => simp [contains, get?, keys]
  | other k v m other ih => simpa [contains, get?, keys, other, Ne.symm other] using ih

theorem get?_eq_none_iff : get? m key = none ↔ key ∉ keys m := by
  rw [← contains_iff, contains, Option.isSome_iff_ne_none, not_not]

theorem valuesAt_eq_nil_iff (m : Assoc α) : valuesAt m key = [] ↔ key ∉ keys m := by
  rw [← get?_eq_none_iff, ← head?_valuesAt, head?_eq_none_iff]

theorem contains_of_get? (h : get? m key = some value) : contains m key = true := by
  rw [contains, h, Option.isSome_some]

theorem contains_set_iff :
    contains (set m key value) k = true ↔ key = k ∨ contains m k = true := by
  rw [contains, get?_set]
  split
  · next h => simp [h]
  · next h => simp [h, contains]

theorem mem_of_get? (h : get? m key = some value) : (key, value) ∈ m := by
  induction m using inductAt key with
  | nil => cases h
  | here v m => simp_all [get?]
  | other k v m other ih => simp_all [get?]

theorem mem_keys (h : (key, value) ∈ m) : key ∈ keys m :=
  mem_map_of_mem h

theorem get?_of_mem (nodup : (keys m).Nodup)
    (h : (key, value) ∈ m) : get? m key = some value := by
  induction m with
  | nil => cases h
  | cons e rest ih =>
    obtain ⟨k, v⟩ := e
    obtain ⟨new, nodup⟩ := nodup_cons.mp (keys_cons _ rest ▸ nodup)
    rcases mem_cons.mp h with first | later
    · cases first
      simp [get?]
    · have other : k ≠ key := fun same => new (same ▸ mem_keys later)
      simp only [get?, beq_iff_eq, other, if_false]
      exact ih nodup later

theorem keys_mapValues {β : Type*} (f : α → β) (m : Assoc α) : keys (mapValues f m) = keys m := by
  simp [keys, mapValues]

theorem mem_of_mem_set {e : String × α}
    (h : e ∈ set m key value) : e ∈ m ∨ e = (key, value) := by
  induction m using inductAt key with
  | nil => exact .inr (mem_singleton.mp h)
  | here v m =>
    simp only [set, beq_self_eq_true, if_true, mem_cons] at h ⊢
    tauto
  | other k v m other ih =>
    simp only [set, beq_iff_eq, other, if_false, mem_cons] at h ⊢
    tauto

theorem forall_mem_set {P : α → Prop} (old : ∀ e ∈ m, P e.2) (new : P value) (key : String) :
    ∀ e ∈ set m key value, P e.2 := by
  intro e mem
  rcases mem_of_mem_set mem with mem | rfl
  · exact old e mem
  · exact new

theorem nodup_keys_set (h : (keys m).Nodup) (key : String) (value : α) :
    (keys (set m key value)).Nodup := by
  induction m using inductAt key with
  | nil => exact nodup_singleton key
  | here v m => simpa [set, keys] using h
  | other k v m other ih =>
    obtain ⟨new, nodup⟩ := nodup_cons.mp h
    simp only [set, beq_iff_eq, other, if_false, keys_cons]
    refine nodup_cons.mpr ⟨?_, ih nodup⟩
    rw [← contains_iff, contains_set_iff, contains_iff]
    exact fun old => old.elim (Ne.symm other) new

theorem set_of_new (value : α) (new : key ∉ keys m) : set m key value = m ++ [(key, value)] := by
  induction m using inductAt key with
  | nil => rfl
  | here v m => simp [keys] at new
  | other k v m other ih =>
    rw [keys_cons, mem_cons, not_or] at new
    simp [set, other, ih new.2]

theorem mem_of_mem_update {e : String × α} (h : e ∈ update m n) : e ∈ m ∨ e ∈ n := by
  induction n generalizing m with
  | nil => exact .inl h
  | cons e' rest ih =>
    rcases ih h with before | later
    · rcases mem_of_mem_set before with old | written
      · exact .inl old
      · exact .inr (mem_cons.mpr (.inl written))
    · exact .inr (mem_cons_of_mem _ later)

theorem nodup_keys_update (h : (keys m).Nodup) (n : Assoc α) : (keys (update m n)).Nodup := by
  induction n generalizing m with
  | nil => exact h
  | cons e rest ih => exact ih (nodup_keys_set h e.1 e.2)

theorem get?_update (m : Assoc α) (h : (keys n).Nodup) (key : String) :
    get? (update m n) key = (get? n key).or (get? m key) := by
  induction n generalizing m with
  | nil => rfl
  | cons e rest ih =>
    obtain ⟨k, v⟩ := e
    obtain ⟨new, nodup⟩ := nodup_cons.mp h
    change get? (update (set m k v) rest) key = _
    rw [ih (set m k v) nodup, get?_set, get?]
    by_cases same : k = key
    · subst same
      simp [get?_eq_none_iff.mpr new]
    · simp [same]

theorem get?_update_of_notMem (m : Assoc α) (h : key ∉ keys n) :
    get? (update m n) key = get? m key := by
  induction n generalizing m with
  | nil => rfl
  | cons e rest ih =>
    rw [keys_cons, mem_cons, not_or] at h
    change get? (update (set m e.1 e.2) rest) key = _
    rw [ih (set m e.1 e.2) h.2, get?_set, if_neg (Ne.symm h.1)]

/-- The last write of a key stands, and a key that is not written keeps its value. -/
theorem get?_update_eq_some_iff : get? (update m n) key = some value ↔
    (∃ before after, n = before ++ (key, value) :: after ∧ key ∉ keys after) ∨
      (key ∉ keys n ∧ get? m key = some value) := by
  induction n generalizing m with
  | nil => simp [update, keys]
  | cons e rest ih =>
    obtain ⟨k, v⟩ := e
    change get? (update (set m k v) rest) key = _ ↔ _
    rw [ih, get?_set, keys_cons, mem_cons, not_or]
    constructor
    · rintro (⟨before, after, rfl, last⟩ | ⟨later, found⟩)
      · exact .inl ⟨(k, v) :: before, after, rfl, last⟩
      · by_cases same : k = key
        · subst same
          rw [if_pos rfl, Option.some.injEq] at found
          exact .inl ⟨[], rest, by rw [found]; rfl, later⟩
        · rw [if_neg same] at found
          exact .inr ⟨⟨Ne.symm same, later⟩, found⟩
    · rintro (⟨before, after, split, last⟩ | ⟨⟨other, later⟩, found⟩)
      · cases before with
        | nil =>
          cases split
          exact .inr ⟨last, if_pos rfl⟩
        | cons e before =>
          cases split
          exact .inl ⟨before, after, rfl, last⟩
      · exact .inr ⟨later, by rwa [if_neg (Ne.symm other)]⟩

theorem update_of_new (h : (keys (m ++ n)).Nodup) : update m n = m ++ n := by
  induction n generalizing m with
  | nil => exact (append_nil m).symm
  | cons e rest ih =>
    have new : e.1 ∉ keys m := by
      intro old
      rw [keys, map_append] at h
      exact disjoint_of_nodup_append h old mem_cons_self
    have split : m ++ e :: rest = set m e.1 e.2 ++ rest := by
      rw [set_of_new _ new, append_assoc, singleton_append]
    rw [split] at h ⊢
    exact ih h

theorem nodup_keys_ofPairs (pairs : List (String × α)) : (keys (ofPairs pairs)).Nodup :=
  nodup_keys_update (m := []) nodup_nil pairs

theorem get?_ofPairs_eq_some_iff {pairs : List (String × α)} : get? (ofPairs pairs) key = some value ↔
      ∃ before after, pairs = before ++ (key, value) :: after ∧ key ∉ keys after := by
  rw [ofPairs, get?_update_eq_some_iff, or_iff_left]
  rintro ⟨-, found⟩
  cases found

theorem ofPairs_of_nodup (h : (keys m).Nodup) : ofPairs m = m := update_of_new h

theorem mem_of_mem_ofPairs {pairs : List (String × α)} {e : String × α} (h : e ∈ ofPairs pairs) :
    e ∈ pairs :=
  (mem_of_mem_update h).resolve_left not_mem_nil

theorem contains_update_iff :
    contains (update m n) key = true ↔ contains m key = true ∨ contains n key = true := by
  induction n generalizing m with
  | nil => simp [update, contains, get?]
  | cons e rest ih =>
    rw [update, foldl_cons, ← update, ih, contains_set_iff, contains_iff (m := e :: rest), keys,
      map_cons, mem_cons, ← keys, ← contains_iff]
    tauto

theorem set_of_get? (h : get? m key = some value) : set m key value = m := by
  induction m using inductAt key with
  | nil => cases h
  | here v m => simp_all [get?, set]
  | other k v m other ih => simp_all [get?, set]

theorem mem_keys_update_iff : key ∈ keys (update m n) ↔ key ∈ keys m ∨ key ∈ keys n := by
  simp only [← contains_iff, contains_update_iff]

theorem exists_split_of_mem_keys (h : key ∈ keys m) :
    ∃ before value after, m = before ++ (key, value) :: after := by
  obtain ⟨⟨k, value⟩, mem, rfl⟩ := mem_map.mp h
  obtain ⟨before, after, split⟩ := append_of_mem mem
  exact ⟨before, value, after, split⟩

theorem nodup_keys_split {before after : Assoc α}
    (h : (keys (before ++ (key, value) :: after)).Nodup) :
    (keys before).Nodup ∧ key ∉ keys before ∧ key ∉ keys after ∧ (keys before).Disjoint
    (keys after) := by
  rw [keys, map_append, map_cons, nodup_append'] at h
  obtain ⟨front, back, apart⟩ := h
  rw [disjoint_cons_right] at apart
  exact ⟨front, apart.1, (nodup_cons.mp back).1, apart.2⟩

theorem get?_ofPairs_of_mem {pairs : List (String × α)} {e : String × α} (mem : e ∈ pairs) :
    ∃ value, get? (ofPairs pairs) e.1 = some value := by
  apply Option.isSome_iff_exists.mp
  exact contains_update_iff.mpr (.inr (contains_iff.mpr (mem_keys mem)))

theorem get?_filter (p : String → Bool) (m : Assoc α) (key : String) :
    get? (m.filter fun e => p e.1) key = if p key = true then get? m key else none := by
  induction m using inductAt key with
  | nil => simp [get?]
  | here v m ih => cases known : p key <;> simp [known, get?, ih]
  | other k v m other ih => cases known : p k <;> simp [known, get?, other, ih]

theorem get?_append (m n : Assoc α) (key : String) :
    get? (m ++ n) key = (get? m key).or (get? n key) := by
  induction m using inductAt key with
  | nil => rfl
  | here v m => simp [get?]
  | other k v m other ih => simp [get?, other, ih]

theorem erase_sublist (m : Assoc α) (key : String) : (erase m key).Sublist m := by
  induction m using inductAt key with
  | nil => exact List.Sublist.refl []
  | here v m => simp [erase]
  | other k v m other ih => simpa [erase, other] using ih

theorem nodup_keys_erase (h : (keys m).Nodup) (key : String) : (keys (erase m key)).Nodup :=
  h.sublist ((erase_sublist m key).map _)

theorem not_mem_keys_erase (h : (keys m).Nodup) (key : String) : key ∉ keys (erase m key) := by
  induction m using inductAt key with
  | nil => exact not_mem_nil
  | here v m =>
    rw [erase, if_pos (beq_self_eq_true key)]
    exact (nodup_cons.mp h).1
  | other k v m other ih =>
    simpa [erase, other, keys_cons, Ne.symm other] using ih (nodup_cons.mp h).2

theorem get?_erase_of_ne (other : key ≠ k) : get? (erase m key) k = get? m k := by
  rw [← head?_valuesAt, ← head?_valuesAt, valuesAt_erase_of_ne m other]

theorem getD_erase_of_ne (m : Assoc α) (other : key ≠ k) (fallback : α) :
    getD (erase m key) k fallback = getD m k fallback := by
  rw [getD, get?_erase_of_ne other, getD]

theorem erase_eq_filter (h : (keys m).Nodup) (key : String) :
    erase m key = m.filter fun e => e.1 != key := by
  induction m with
  | nil => rfl
  | cons e rest ih =>
    obtain ⟨k, v⟩ := e
    obtain ⟨new, nodup⟩ := nodup_cons.mp (keys_cons _ rest ▸ h)
    by_cases same : k = key
    · subst same
      have others : rest.filter (fun e => e.1 != k) = rest := by
        rw [filter_eq_self]
        intro e mem
        exact bne_iff_ne.mpr fun same => new (same ▸ mem_keys mem)
      simp [erase, others]
    · simp [erase, same, ih nodup]

/-- Entries with some keys taken out, one after the other. -/
def without (m : Assoc α) (names : List String) : Assoc α := names.foldl erase m

theorem nodup_keys_without (h : (keys m).Nodup) (names : List String) :
    (keys (without m names)).Nodup := by
  induction names generalizing m with
  | nil => exact h
  | cons name names ih => exact ih (nodup_keys_erase h name)

theorem get?_without_of_notMem {names : List String} (other : key ∉ names) :
    get? (without m names) key = get? m key := by
  induction names generalizing m with
  | nil => rfl
  | cons name names ih =>
    rw [mem_cons, not_or] at other
    exact (ih other.2).trans (get?_erase_of_ne (Ne.symm other.1))

theorem get?_without_of_mem (h : (keys m).Nodup) {names : List String}
    (mem : key ∈ names) : get? (without m names) key = none := by
  rw [get?_eq_none_iff]
  induction names generalizing m with
  | nil => cases mem
  | cons name names ih =>
    by_cases later : key ∈ names
    · exact ih (nodup_keys_erase h name) later
    · obtain rfl : key = name := (mem_cons.mp mem).resolve_right later
      rw [← get?_eq_none_iff, without, foldl_cons, ← without, get?_without_of_notMem later,
        get?_eq_none_iff]
      exact not_mem_keys_erase h key

theorem without_eq_filter (h : (keys m).Nodup) (names : List String) :
    without m names = m.filter fun e => !names.contains e.1 := by
  induction names generalizing m with
  | nil => simp [without]
  | cons name names ih =>
    rw [without, foldl_cons, ← without, ih (nodup_keys_erase h name), erase_eq_filter h,
      filter_filter]
    refine filter_congr fun e _ => ?_
    rw [contains_cons, Bool.not_or, Bool.and_comm]
    rfl

def select (m : Assoc α) (names : List String) : Assoc α :=
  names.filterMap fun name => (get? m name).map (name, ·)

theorem get?_select (m : Assoc α) (names : List String) (key : String) :
    get? (select m names) key = if key ∈ names then get? m key else none := by
  induction names with
  | nil => rfl
  | cons name names ih =>
    cases found : get? m name with
    | none =>
      rw [select, filterMap_cons_none (by simp [found]), ← select, ih]
      by_cases here : key = name
      · simp [here, found]
      · simp [here]
    | some value =>
      rw [select, filterMap_cons_some (by rw [found]; rfl), ← select, get?, ih]
      by_cases here : name = key
      · simp [← here, found]
      · simp [here, Ne.symm here]

theorem keys_select (m : Assoc α) (names : List String) :
    keys (select m names) = names.filter fun name => contains m name := by
  rw [keys, select, map_filterMap, ← filterMap_eq_filter]
  refine filterMap_congr fun name _ => ?_
  cases found : get? m name <;> simp [Option.guard, contains, found]

theorem keys_set_of_mem (value : α) (h : key ∈ keys m) : keys (set m key value) = keys m := by
  induction m using inductAt key with
  | nil => cases h
  | here v m => simp [set, keys_cons]
  | other k v m other ih =>
    rw [keys_cons, mem_cons, or_iff_right (Ne.symm other)] at h
    simp [set, other, keys_cons, ih h]

theorem removeAll_eraseDups (names others : List String) :
    names.removeAll others.eraseDups = names.removeAll others := by
  refine filter_congr fun name _ => ?_
  rw [Bool.eq_iff_iff]
  simp

/-- The new keys go to the end, each at the place of its first write. -/
theorem keys_update (m n : Assoc α) :
    keys (update m n) = keys m ++ ((keys n).removeAll (keys m)).eraseDups := by
  induction n generalizing m with
  | nil => simp [update, keys]
  | cons e rest ih =>
    obtain ⟨k, v⟩ := e
    change keys (update (set m k v) rest) = _
    rw [ih, keys_cons, cons_removeAll]
    by_cases old : k ∈ keys m
    · rw [keys_set_of_mem v old, if_neg (by simpa using old)]
    · have appended : keys (set m k v) = keys m ++ [k] := by
        rw [set_of_new v old, keys, map_append, ← keys]
        rfl
      have others : (keys rest).removeAll (keys m ++ [k]) =
          ((keys rest).removeAll (keys m)).filter (fun other => !other == k) := by
        rw [removeAll, removeAll, filter_filter]
        refine filter_congr fun name _ => ?_
        rw [Bool.eq_iff_iff]
        simp [and_comm]
      rw [appended, if_pos (by simpa using old), eraseDups_cons, others, append_assoc]
      rfl

section Actions

variable {α β : Type} {act : α → Outcome β} {m : Assoc α} {m' : Assoc β}

theorem mapValuesM_cons (e : String × α) : mapValuesM act (e :: m) = do
    let b ← act e.2
    let rest ← mapValuesM act m
    return (e.1, b) :: rest := by
  rw [mapValuesM, mapM_cons]
  cases act e.2 <;> rfl

theorem mapValuesM_eq_ok_iff :
    mapValuesM act m = .ok m' ↔ List.Forall₂ (fun e e' => act e.2 = .ok e'.2 ∧ e.1 = e'.1) m m' := by
  have one (e : String × α) (e' : String × β) :
      ((e.1, ·) <$> act e.2 = .ok e') ↔ act e.2 = .ok e'.2 ∧ e.1 = e'.1 := by
    rw [Outcome.map_eq_ok_iff]
    constructor
    · rintro ⟨b, run, rfl⟩
      exact ⟨run, rfl⟩
    · rintro ⟨run, key⟩
      exact ⟨e'.2, run, Prod.ext key rfl⟩
  rw [mapValuesM, Outcome.mapM_eq_ok_iff]
  simp only [one]

theorem keys_mapValuesM (h : mapValuesM act m = .ok m') : keys m' = keys m := by
  have run := mapValuesM_eq_ok_iff.mp h
  clear h
  induction run with
  | nil => rfl
  | cons first _ ih => rw [keys_cons, keys_cons, first.2, ih]

theorem exists_of_mem_mapValuesM (h : mapValuesM act m = .ok m') {key : String} {b : β}
    (mem : (key, b) ∈ m') : ∃ a, (key, a) ∈ m ∧ act a = .ok b := by
  obtain ⟨⟨k, a⟩, source, run, same⟩ :=
    Outcome.exists_of_mem_forall₂ (mapValuesM_eq_ok_iff.mp h) mem
  cases same
  exact ⟨a, source, run⟩

theorem get?_mapValuesM (h : mapValuesM act m = .ok m') (key : String) :
    Option.Rel (fun a b => act a = .ok b) (get? m key) (get? m' key) := by
  have run := mapValuesM_eq_ok_iff.mp h
  clear h
  induction run with
  | nil => exact .none
  | @cons e e' _ _ first _ ih =>
    by_cases found : e.1 = key
    · simp only [get?, ← first.2, found, beq_self_eq_true, if_true]
      exact .some first.1
    · simp only [get?, ← first.2, beq_iff_eq, found, if_false]
      exact ih

theorem mapValuesM_self {act : α → Outcome α} (h : ∀ key a, (key, a) ∈ m → act a = .ok a) :
    mapValuesM act m = .ok m :=
  mapValuesM_eq_ok_iff.mpr (forall₂_same.mpr fun e mem => ⟨h e.1 e.2 mem, rfl⟩)

end Actions

end Stratus.Assoc
