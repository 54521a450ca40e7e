import Stratus.Proofs.Outcome

/-!
Effects that can fail and keep their state all the same. `Returns` says how a run ends well, step by
step; a loop is a chain of runs, and what every step keeps, the whole run keeps.
-/
namespace Stratus.Effect

variable {σ α β : Type}

/-- Effects on a state of type `σ`. -/
abbrev Work (σ : Type) := ExceptT Fault (StateM σ)

/-- Run at `s`, the effect returns `a` and leaves `s'`. -/
def Returns (p : Work σ α) (s : σ) (a : α) (s' : σ) : Prop :=
  (p.run.run s).run = (.ok a, s')

section Returns

variable {p : Work σ α} {f : α → Work σ β} {s s' : σ} {a : α} {b : β}

@[simp] theorem returns_pure_iff {a' : α} :
    Returns (pure a : Work σ α) s a' s' ↔ a' = a ∧ s' = s := by
  constructor
  · intro h
    cases h
    exact ⟨rfl, rfl⟩
  · rintro ⟨rfl, rfl⟩
    rfl

theorem bind_run : ((p >>= f).run.run s).run = match (p.run.run s).run with
    | (.ok a, m) => ((f a).run.run m).run
    | (.error fault, m) => (.error fault, m) := by
  rcases h : (p.run.run s).run with ⟨fault | a, m⟩ <;>
    simp only [ExceptT.run, StateT.run, Id.run, bind, ExceptT.bind, ExceptT.mk,
      StateT.bind] at h ⊢ <;>
    rw [h] <;> rfl

@[simp] theorem returns_bind_iff :
    Returns (p >>= f) s b s' ↔ ∃ a m, Returns p s a m ∧ Returns (f a) m b s' := by
  unfold Returns
  rw [bind_run]
  rcases (p.run.run s).run with ⟨fault | a, m⟩
  · simp
  · simp

@[simp] theorem returns_map_iff {g : α → β} :
    Returns (g <$> p) s b s' ↔ ∃ a, Returns p s a s' ∧ b = g a := by
  rw [map_eq_pure_bind, returns_bind_iff]
  simp only [returns_pure_iff]
  constructor
  · rintro ⟨a, m, run, rfl, rfl⟩
    exact ⟨a, run, rfl⟩
  · rintro ⟨a, run, rfl⟩
    exact ⟨a, s', run, rfl, rfl⟩

@[simp] theorem returns_throw_iff {fault : Fault} :
    Returns (throw fault : Work σ α) s a s' ↔ False := by
  constructor
  · intro h
    cases h
  · exact False.elim

@[simp] theorem returns_get_iff {a : σ} : Returns (get : Work σ σ) s a s' ↔ a = s ∧ s' = s := by
  constructor
  · intro h
    cases h
    exact ⟨rfl, rfl⟩
  · rintro ⟨rfl, rfl⟩
    rfl

@[simp] theorem returns_modify_iff {g : σ → σ} {u : PUnit} :
    Returns (modify g : Work σ PUnit) s u s' ↔ s' = g s := by
  constructor
  · intro h
    cases h
    rfl
  · rintro rfl
    rfl

/-- An outcome is read without a look at the state. -/
@[simp] theorem returns_lift_iff {x : Outcome α} :
    Returns (liftM x : Work σ α) s a s' ↔ x = .ok a ∧ s' = s := by
  constructor
  · intro h
    cases x <;> cases h
    exact ⟨rfl, rfl⟩
  · rintro ⟨rfl, rfl⟩
    rfl

theorem Returns.unique {a' : α} {s'' : σ} (h : Returns p s a s') (h' : Returns p s a' s'') :
    a' = a ∧ s'' = s' := by
  unfold Returns at h h'
  rw [h] at h'
  cases h'
  exact ⟨rfl, rfl⟩

end Returns

inductive Chain (act : α → Work σ Unit) : List α → σ → σ → Prop where
  | nil (s : σ) : Chain act [] s s
  | cons {x : α} {xs : List α} {s m s' : σ} (first : Returns (act x) s () m)
      (rest : Chain act xs m s') :
      Chain act (x :: xs) s s'

namespace Chain

variable {act : α → Work σ Unit} {xs ys : List α} {x : α} {s s' : σ}

theorem nil_iff : Chain act [] s s' ↔ s' = s := by
  constructor
  · intro h
    cases h
    rfl
  · rintro rfl
    exact .nil _

theorem cons_iff : Chain act (x :: xs) s s' ↔ ∃ m, Returns (act x) s () m ∧ Chain act xs m s' := by
  constructor
  · intro h
    cases h with
    | cons first rest => exact ⟨_, first, rest⟩
  · rintro ⟨m, first, rest⟩
    exact .cons first rest

theorem append_iff : Chain act (xs ++ ys) s s' ↔ ∃ m, Chain act xs s m ∧ Chain act ys m s' := by
  induction xs generalizing s with
  | nil => simp [nil_iff]
  | cons x xs ih =>
    simp only [List.cons_append, cons_iff, ih]
    constructor
    · rintro ⟨m, first, m', rest, last⟩
      exact ⟨m', ⟨m, first, rest⟩, last⟩
    · rintro ⟨m', ⟨m, first, rest⟩, last⟩
      exact ⟨m, first, m', rest, last⟩

theorem induct {P : σ → Prop} (h : Chain act xs s s')
    (step : ∀ x ∈ xs, ∀ s s', Returns (act x) s () s' → P s → P s') (start : P s) : P s' := by
  induction h with
  | nil => exact start
  | cons first _ ih =>
    apply ih
    · intro x mem
      exact step x (List.mem_cons_of_mem _ mem)
    · exact step _ List.mem_cons_self _ _ first start

theorem exists_of_step {P : σ → Prop}
    (step : ∀ x ∈ xs, ∀ s, P s → ∃ s', Returns (act x) s () s' ∧ P s')
    (start : P s) : ∃ s', Chain act xs s s' ∧ P s' := by
  induction xs generalizing s with
  | nil => exact ⟨s, .nil s, start⟩
  | cons x xs ih =>
    obtain ⟨m, first, kept⟩ := step x List.mem_cons_self s start
    obtain ⟨s', rest, last⟩ := ih (fun y mem => step y (List.mem_cons_of_mem _ mem)) kept
    exact ⟨s', .cons first rest, last⟩

theorem map_iff {f : β → α} {ys : List β} :
    Chain act (ys.map f) s s' ↔ Chain (fun y => act (f y)) ys s s' := by
  induction ys generalizing s with
  | nil => simp [nil_iff]
  | cons y ys ih => simp [cons_iff, ih]

theorem flatMap_iff {step : β → Work σ Unit} {f : β → List α}
    (steps : ∀ y s s', Returns (step y) s () s' ↔ Chain act (f y) s s') {ys : List β} :
    Chain act (ys.flatMap f) s s' ↔ Chain step ys s s' := by
  induction ys generalizing s with
  | nil => simp [nil_iff]
  | cons y ys ih => simp [cons_iff, append_iff, steps, ih]

theorem foldl_iff {f : σ → α → σ} (step : ∀ x s s', Returns (act x) s () s' ↔ s' = f s x) :
    Chain act xs s s' ↔ s' = xs.foldl f s := by
  induction xs generalizing s with
  | nil => exact nil_iff
  | cons x xs ih => simp [cons_iff, step, ih]

end Chain

theorem returns_forIn_iff (act : α → Work σ Unit)
    {g : α → PUnit → Work σ (ForInStep PUnit)} {xs : List α} {s s' : σ} {u : PUnit}
    (body : ∀ x u, g x u = act x >>= fun _ => pure (.yield ⟨⟩)) :
    Returns (forIn xs (⟨⟩ : PUnit) g) s u s' ↔ Chain act xs s s' := by
  induction xs generalizing s with
  | nil => simp [Chain.nil_iff]
  | cons x xs ih =>
    rw [List.forIn_cons, body, Chain.cons_iff]
    simp only [bind_assoc, pure_bind, returns_bind_iff, ih]
    constructor
    · rintro ⟨⟨⟩, m, first, rest⟩
      exact ⟨m, first, rest⟩
    · rintro ⟨m, first, rest⟩
      exact ⟨(), m, first, rest⟩

theorem returns_for_iff (act : α → Work σ Unit)
    {g : α → PUnit → Work σ (ForInStep PUnit)} {xs : List α} {s s' : σ} {u : Unit}
    (body : ∀ x u, g x u = act x >>= fun _ => pure (.yield ⟨⟩)) :
    Returns (forIn xs (⟨⟩ : PUnit) g >>= fun _ => pure ()) s u s' ↔ Chain act xs s s' := by
  simp [returns_forIn_iff act body]

/-- What the body of a loop keeps, the loop keeps, whether or not it stops early. -/
theorem Returns.forIn_induct {g : α → β → Work σ (ForInStep β)} {xs : List α} {s s' : σ}
    {b b' : β} {P : σ → Prop} (h : Returns (forIn xs b g) s b' s')
    (step : ∀ x ∈ xs, ∀ b r s s', Returns (g x b) s r s' → P s → P s') (start : P s) : P s' := by
  induction xs generalizing s b with
  | nil =>
    rw [List.forIn_nil, returns_pure_iff] at h
    exact h.2 ▸ start
  | cons x xs ih =>
    rw [List.forIn_cons, returns_bind_iff] at h
    obtain ⟨r, m, first, rest⟩ := h
    have kept : P m := step x List.mem_cons_self b r s m first start
    cases r with
    | done b => exact (returns_pure_iff.mp rest).2 ▸ kept
    | yield b => exact ih rest (fun y mem => step y (List.mem_cons_of_mem _ mem)) kept

theorem returns_mapM_iff {f : α → Outcome β} {xs : List α} {ys : List β} {s s' : σ} :
    Returns (xs.mapM fun x => (liftM (f x) : Work σ β)) s ys s' ↔
      xs.mapM f = .ok ys ∧ s' = s := by
  induction xs generalizing ys with
  | nil =>
    rw [List.mapM_nil, List.mapM_nil, returns_pure_iff]
    exact and_congr_left' ⟨fun h => h ▸ rfl, fun h => by cases h; rfl⟩
  | cons x xs ih =>
    simp only [List.mapM_cons, returns_bind_iff, returns_lift_iff, returns_pure_iff,
      Outcome.bind_eq_ok_iff]
    constructor
    · rintro ⟨y, m, ⟨first, rfl⟩, rest, m', later, rfl, rfl⟩
      obtain ⟨read, rfl⟩ := ih.mp later
      exact ⟨⟨y, first, rest, read, rfl⟩, rfl⟩
    · rintro ⟨⟨y, first, rest, read, last⟩, rfl⟩
      cases last
      exact ⟨y, s', ⟨first, rfl⟩, rest, s', ih.mpr ⟨read, rfl⟩, rfl, rfl⟩

theorem Returns.mapM_forall₂ {P : σ → Prop} {R : α → β → Prop} {g : α → Work σ β}
    {xs : List α} {ys : List β} {s s' : σ} (run : Returns (xs.mapM g) s ys s') (start : P s)
    (step : ∀ x s y s', P s → Returns (g x) s y s' → R x y ∧ P s') : List.Forall₂ R xs ys ∧ P s' := by
  induction xs generalizing s ys with
  | nil =>
    rw [List.mapM_nil, returns_pure_iff] at run
    obtain ⟨rfl, rfl⟩ := run
    exact ⟨.nil, start⟩
  | cons x xs ih =>
    rw [List.mapM_cons] at run
    simp only [returns_bind_iff, returns_pure_iff] at run
    obtain ⟨y, m, first, ys, _, rest, rfl, rfl⟩ := run
    obtain ⟨here, kept⟩ := step x s y m start first
    obtain ⟨later, kept⟩ := ih rest kept
    exact ⟨.cons here later, kept⟩

end Stratus.Effect
