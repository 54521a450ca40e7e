import Mathlib
import Stratus.Fault

/-!
Outcomes in sequence: how a run of steps succeeds, and the faults with which it can fail.
-/
namespace Stratus.Outcome

open List

variable {α β : Type} {f : α → Outcome β} {x : Outcome α} {xs : List α} {ys : List β}

theorem bind_eq_ok_iff {ε : Type} {x : Except ε α} {f : α → Except ε β} {b : β} :
    (x >>= f) = .ok b ↔ ∃ a, x = .ok a ∧ f a = .ok b := by
  cases x with
  | error fault => simp [bind, Except.bind]
  | ok a => simp [bind, Except.bind]

theorem bind_eq_ok {ε : Type} {x : Except ε α} {f : α → Except ε β} {b : β} (h : (x >>= f) = .ok b) :
    ∃ a, x = .ok a ∧ f a = .ok b :=
  bind_eq_ok_iff.mp h

theorem ok_bind (a : α) (f : α → Outcome β) : (Except.ok a >>= f) = f a := rfl

theorem pure_eq_ok_iff {a b : α} : (pure a : Outcome α) = .ok b ↔ a = b := by
  simp [pure, Except.pure]

theorem map_eq_ok_iff {f : α → β} {b : β} : f <$> x = .ok b ↔ ∃ a, x = .ok a ∧ f a = b := by
  cases x with
  | error fault => simp [Functor.map, Except.map]
  | ok a => simp [Functor.map, Except.map]

theorem map_eq_ok {f : α → β} {b : β} (h : f <$> x = .ok b) : ∃ a, x = .ok a ∧ f a = b :=
  map_eq_ok_iff.mp h

theorem mapM_eq_ok_iff : xs.mapM f = .ok ys ↔ List.Forall₂ (fun x y => f x = .ok y) xs ys := by
  induction xs generalizing ys with
  | nil =>
    rw [mapM_nil, forall₂_nil_left_iff]
    exact ⟨fun h => by cases h; rfl, fun h => by rw [h]; rfl⟩
  | cons x xs ih =>
    rw [mapM_cons, bind_eq_ok_iff, forall₂_cons_left_iff]
    constructor
    · rintro ⟨y, hy, rest⟩
      obtain ⟨ys', hys, last⟩ := bind_eq_ok rest
      cases last
      exact ⟨y, ys', hy, ih.mp hys, rfl⟩
    · rintro ⟨y, ys', hy, hys, rfl⟩
      exact ⟨y, hy, bind_eq_ok_iff.mpr ⟨ys', ih.mpr hys, rfl⟩⟩

theorem exists_of_mem_forall₂ {R : α → β → Prop} (h : List.Forall₂ R xs ys) {y : β}
    (mem : y ∈ ys) : ∃ x ∈ xs, R x y := by
  induction h with
  | nil => cases mem
  | cons first _ ih =>
    rcases mem_cons.mp mem with rfl | later
    · exact ⟨_, mem_cons_self, first⟩
    · obtain ⟨x, source, rel⟩ := ih later
      exact ⟨x, mem_cons_of_mem _ source, rel⟩

theorem exists_of_mem_mapM (h : xs.mapM f = .ok ys) {y : β} (mem : y ∈ ys) : ∃ x ∈ xs, f x = .ok y :=
  exists_of_mem_forall₂ (mapM_eq_ok_iff.mp h) mem

theorem exists_mem_of_mapM (h : xs.mapM f = .ok ys) {x : α} (mem : x ∈ xs) : ∃ y ∈ ys, f x = .ok y :=
  exists_of_mem_forall₂ (mapM_eq_ok_iff.mp h).flip mem

theorem mapM_eq_ok_iff_map {P : α → Prop} {g : α → β}
    (step : ∀ x ∈ xs, ∀ y, f x = .ok y ↔ P x ∧ y = g x) :
    xs.mapM f = .ok ys ↔ (∀ x ∈ xs, P x) ∧ ys = xs.map g := by
  induction xs generalizing ys with
  | nil =>
    rw [mapM_nil, pure_eq_ok_iff]
    simp [eq_comm]
  | cons x xs ih =>
    have here := step x mem_cons_self
    have later (ys : List β) := @ih ys fun x mem => step x (mem_cons_of_mem _ mem)
    rw [mapM_eq_ok_iff, forall₂_cons_left_iff, forall_mem_cons, map_cons]
    constructor
    · rintro ⟨y, ys, first, rest, rfl⟩
      obtain ⟨holds, rfl⟩ := (here y).mp first
      obtain ⟨all, rfl⟩ := (later _).mp (mapM_eq_ok_iff.mpr rest)
      exact ⟨⟨holds, all⟩, rfl⟩
    · rintro ⟨⟨holds, all⟩, rfl⟩
      exact ⟨g x, xs.map g, (here _).mpr ⟨holds, rfl⟩,
        mapM_eq_ok_iff.mp ((later _).mpr ⟨all, rfl⟩), rfl⟩

theorem mapM_congr {g : α → Outcome β} (h : ∀ x ∈ xs, f x = g x) : xs.mapM f = xs.mapM g := by
  induction xs with
  | nil => rfl
  | cons x xs ih =>
    rw [forall_mem_cons] at h
    rw [mapM_cons, mapM_cons, h.1, ih h.2]

theorem flatten_mapM {γ : Type} {f : α → Outcome (List γ)} {act : β → Outcome γ} {g : α → List β}
    (part : ∀ x, f x = (g x).mapM act)
    (xs : List α) : (do return (← xs.mapM f).flatten) = (xs.flatMap g).mapM act := by
  induction xs with
  | nil => rfl
  | cons x xs ih =>
    rw [flatMap_cons, mapM_append, ← ih, mapM_cons, part]
    simp only [bind_assoc, pure_bind, flatten_cons]

theorem mapM_self {f : α → Outcome α} (h : ∀ x ∈ xs, f x = .ok x) : xs.mapM f = .ok xs :=
  mapM_eq_ok_iff.mpr (forall₂_same.mpr h)

def Succeeds (x : Outcome α) : Prop := ∃ a, x = .ok a

namespace Succeeds

theorem ok (a : α) : Succeeds (.ok a : Outcome α) := ⟨a, rfl⟩

theorem bind (hx : Succeeds x) (hf : ∀ a, x = .ok a → Succeeds (f a)) : Succeeds (x >>= f) := by
  obtain ⟨a, run⟩ := hx
  obtain ⟨b, rest⟩ := hf a run
  exact ⟨b, bind_eq_ok_iff.mpr ⟨a, run, rest⟩⟩

theorem mapM (h : ∀ x ∈ xs, Succeeds (f x)) : Succeeds (xs.mapM f) := by
  induction xs with
  | nil => exact ok []
  | cons x xs ih =>
    rw [mapM_cons]
    refine (h x mem_cons_self).bind fun y _ => ?_
    exact (ih fun z mem => h z (mem_cons_of_mem _ mem)).bind fun ys _ => ok _

end Succeeds

theorem succeeds_map_iff {f : α → β} : Succeeds (f <$> x) ↔ Succeeds x := by
  cases x <;> simp [Succeeds]

theorem succeeds_mapM_iff : Succeeds (xs.mapM f) ↔ ∀ x ∈ xs, Succeeds (f x) := by
  refine ⟨fun ⟨ys, run⟩ x mem => ?_, .mapM⟩
  obtain ⟨y, -, one⟩ := exists_mem_of_mapM run mem
  exact ⟨y, one⟩

/-- A sequence of steps fails with the fault of the first step that fails. -/
theorem exists_first_of_mapM_error {fault : Fault} (h : xs.mapM f = .error fault) :
    ∃ before x after, xs = before ++ x :: after ∧ (∀ b ∈ before, Succeeds (f b)) ∧
      f x = .error fault := by
  induction xs with
  | nil => cases h
  | cons x xs ih =>
    rw [mapM_cons] at h
    cases first : f x with
    | error other =>
      rw [first] at h
      cases h
      exact ⟨[], x, xs, rfl, by simp, first⟩
    | ok y =>
      have rest : xs.mapM f = .error fault := by
        rw [first] at h
        cases run : xs.mapM f with
        | error other =>
          rw [run] at h
          exact h
        | ok ys =>
          rw [run] at h
          cases h
      obtain ⟨before, x', after, rfl, succeeds, failed⟩ := ih rest
      refine ⟨x :: before, x', after, rfl, ?_, failed⟩
      rw [forall_mem_cons]
      exact ⟨⟨y, first⟩, succeeds⟩

def Yields (P : α → Prop) (x : Outcome α) : Prop := ∀ a, x = .ok a → P a

namespace Yields

variable {P : α → Prop}

theorem ok {a : α} (h : P a) : Yields P (.ok a : Outcome α) := by
  intro a' same
  cases same
  exact h

theorem error (fault : Fault) : Yields P (.error fault : Outcome α) := by
  intro a same
  cases same

theorem bind {x : Outcome β} {f : β → Outcome α} (h : ∀ b, x = .ok b → Yields P (f b)) :
    Yields P (x >>= f) := by
  intro a run
  obtain ⟨b, first, rest⟩ := bind_eq_ok run
  exact h b first a rest

theorem ite {c : Prop} [Decidable c] {x y : Outcome α} (hx : c → Yields P x) (hy : ¬ c → Yields P y) :
    Yields P (if c then x else y) := by
  split
  · next h => exact hx h
  · next h => exact hy h

theorem imp {Q : α → Prop} (h : Yields P x) (weaker : ∀ a, P a → Q a) : Yields Q x :=
  fun a run => weaker a (h a run)

end Yields

def Raises (P : Fault → Prop) (x : Outcome α) : Prop := ∀ fault, x = .error fault → P fault

namespace Raises

variable {P : Fault → Prop}

theorem ok (a : α) : Raises P (.ok a : Outcome α) := by
  intro fault failed
  cases failed

theorem error {fault : Fault} (h : P fault) : Raises P (.error fault : Outcome α) := by
  intro fault' h'
  cases h'
  exact h

theorem bind (hx : Raises P x) (hf : ∀ a, x = .ok a → Raises P (f a)) : Raises P (x >>= f) := by
  cases x with
  | error fault => exact error (hx fault rfl)
  | ok a => exact hf a rfl

theorem map {f : α → β} (hx : Raises P x) : Raises P (f <$> x) := by
  cases x with
  | error fault => exact error (hx fault rfl)
  | ok a => exact ok (f a)

end Raises

end Stratus.Outcome
