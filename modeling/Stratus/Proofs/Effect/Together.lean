import Stratus.Proofs.Effect.Frame

/-!
Two effects run side by side. Started in related states they both return, related results in related
states, or both fail with one fault. There is a rule for each way to combine effects.
-/
namespace Stratus.Effect

variable {σ τ α β γ δ : Type} {P Q Q' : σ → τ → Prop} {R : α → β → Prop} {S : γ → δ → Prop}
  {p : Work σ α} {q : Work τ β} {f : α → Work σ γ} {g : β → Work τ δ} {a : α} {b : β}

/-- From states related by `P`, both effects return, results and states related by `Q`, or both fail
with the same fault. -/
def Joint (P : σ → τ → Prop) (Q : α → β → σ → τ → Prop) (p : Work σ α)
    (q : Work τ β) : Prop :=
  ∀ s t, P s t →
    (∃ a s' b t', Returns p s a s' ∧ Returns q t b t' ∧ Q a b s' t') ∨
      ∃ fault s' t', Fails p s fault s' ∧ Fails q t fault t'

theorem Joint.bind {Q : α → β → σ → τ → Prop} {Q' : γ → δ → σ → τ → Prop}
    (first : Joint P Q p q) (rest : ∀ a b, Joint (Q a b) Q' (f a) (g b)) :
    Joint P Q' (p >>= f) (q >>= g) := by
  intro s t start
  rcases first s t start with ⟨a, s₁, b, t₁, here, there, reached⟩ | ⟨fault, s₁, t₁, here, there⟩
  · rcases rest a b s₁ t₁ reached with
      ⟨c, s₂, d, t₂, here', there', last⟩ | ⟨fault, s₂, t₂, here', there'⟩
    · exact .inl ⟨c, s₂, d, t₂, returns_bind_iff.mpr ⟨a, s₁, here, here'⟩,
        returns_bind_iff.mpr ⟨b, t₁, there, there'⟩, last⟩
    · exact .inr ⟨fault, s₂, t₂, fails_bind_iff.mpr (.inr ⟨a, s₁, here, here'⟩),
        fails_bind_iff.mpr (.inr ⟨b, t₁, there, there'⟩)⟩
  · exact .inr ⟨fault, s₁, t₁, fails_bind_iff.mpr (.inl here), fails_bind_iff.mpr (.inl there)⟩

theorem Joint.pure {Q : α → β → σ → τ → Prop} (h : ∀ s t, P s t → Q a b s t) :
    Joint P Q (Pure.pure a : Work σ α) (Pure.pure b : Work τ β) :=
  fun s t start => .inl ⟨a, s, b, t, rfl, rfl, h s t start⟩

/-- The results are related by `R`, whatever the states, and the states by `Q`, whatever the
results. -/
def Together (P : σ → τ → Prop) (R : α → β → Prop) (Q : σ → τ → Prop) (p : Work σ α)
    (q : Work τ β) : Prop := Joint P (fun a b s t => R a b ∧ Q s t) p q

namespace Together

variable {xs : List γ}

theorem pure (h : R a b) : Together P R P (Pure.pure a : Work σ α) (Pure.pure b : Work τ β) :=
  fun s t start => .inl ⟨a, s, b, t, rfl, rfl, h, start⟩

theorem throw (fault : Fault) : Together P R Q (MonadExcept.throw fault : Work σ α)
      (MonadExcept.throw fault : Work τ β) :=
  fun s t _ => .inr ⟨fault, s, t, rfl, rfl⟩

theorem get : Together P P P (MonadState.get : Work σ σ) (MonadState.get : Work τ τ) :=
  fun s t start => .inl ⟨s, s, t, t, rfl, rfl, start, start⟩

theorem modify {f : σ → σ} {g : τ → τ} (h : ∀ s t, P s t → Q (f s) (g t)) :
    Together P (fun _ _ => True) Q (modify f : Work σ PUnit)
      (modify g : Work τ PUnit) :=
  fun s t start => .inl ⟨⟨⟩, f s, ⟨⟩, g t, rfl, rfl, trivial, h s t start⟩

theorem lift {x : Outcome α} {y : Outcome β}
    (h : (∃ a b, x = .ok a ∧ y = .ok b ∧ R a b) ∨ ∃ fault, x = .error fault ∧ y = .error fault) :
    Together P R P (liftM x : Work σ α) (liftM y : Work τ β) := by
  intro s t start
  rcases h with ⟨a, b, rfl, rfl, related⟩ | ⟨fault, rfl, rfl⟩
  · exact .inl ⟨a, s, b, t, rfl, rfl, related, start⟩
  · exact .inr ⟨fault, s, t, rfl, rfl⟩

theorem lift_same (x : Outcome α) : Together P (fun a b => a = b ∧ x = .ok a) P
    (liftM x : Work σ α) (liftM x : Work τ α) := by
  cases x with
  | error fault => exact lift (.inr ⟨fault, rfl, rfl⟩)
  | ok a => exact lift (.inl ⟨a, a, rfl, rfl, rfl, rfl⟩)

theorem bind (first : Together P R Q p q)
    (rest : ∀ a b, R a b → Together Q S Q' (f a) (g b)) : Together P S Q' (p >>= f) (q >>= g) :=
  Joint.bind first fun a b s t reached => rest a b reached.1 s t reached.2

theorem after {Q : α → β → σ → τ → Prop} (first : Joint P Q p q)
    (rest : ∀ a b, Together (Q a b) S Q' (f a) (g b)) : Together P S Q' (p >>= f) (q >>= g) :=
  Joint.bind first rest

theorem left {M : σ → τ → Prop} {q : Work τ δ}
    (first : ∀ s t, P s t → ∃ s', Returns p s a s' ∧ M s' t)
    (rest : Together M S Q (f a) q) : Together P S Q (p >>= f) q := by
  intro s t start
  obtain ⟨s', here, reached⟩ := first s t start
  rcases rest s' t reached with ⟨c, s₂, d, t₂, here', there, last⟩ | ⟨fault, s₂, t₂, here', there⟩
  · exact .inl ⟨c, s₂, d, t₂, returns_bind_iff.mpr ⟨a, s', here, here'⟩, there, last⟩
  · exact .inr ⟨fault, s₂, t₂, fails_bind_iff.mpr (.inr ⟨a, s', here, here'⟩), there⟩

theorem map {f : α → γ} {g : β → δ} (h : Together P R Q p q)
    (related : ∀ a b, R a b → S (f a) (g b)) : Together P S Q (f <$> p) (g <$> q) := by
  rw [map_eq_pure_bind, map_eq_pure_bind]
  exact h.bind fun a b same => pure (related a b same)

theorem discard (h : Together P R Q p q) : Together P (fun _ _ => True) Q (Functor.discard p)
    (Functor.discard q) := h.map fun _ _ _ => trivial

theorem mapM {f : γ → Work σ α} {g : γ → Work τ β}
    (each : ∀ x ∈ xs, Together P R P (f x) (g x)) :
    Together P (List.Forall₂ R) P (xs.mapM f) (xs.mapM g) := by
  induction xs with
  | nil =>
    rw [List.mapM_nil, List.mapM_nil]
    exact pure .nil
  | cons x xs ih =>
    obtain ⟨here, later⟩ := List.forall_mem_cons.mp each
    rw [List.mapM_cons, List.mapM_cons]
    exact here.bind fun a b first => (ih later).bind fun as bs rest => pure (.cons first rest)

theorem forIn {R : α → β → Prop} {f : γ → α → Work σ (ForInStep α)}
    {g : γ → β → Work τ (ForInStep β)} (each : ∀ x ∈ xs, ∀ a b, R a b →
      Together P (fun m n => ∃ a b, m = .yield a ∧ n = .yield b ∧ R a b) P (f x a) (g x b))
    (start : R a b) : Together P R P (ForIn.forIn xs a f) (ForIn.forIn xs b g) := by
  induction xs generalizing a b with
  | nil =>
    rw [List.forIn_nil, List.forIn_nil]
    exact pure start
  | cons x xs ih =>
    obtain ⟨here, later⟩ := List.forall_mem_cons.mp each
    rw [List.forIn_cons, List.forIn_cons]
    refine (here a b start).bind fun m n turn => ?_
    obtain ⟨a', b', rfl, rfl, related⟩ := turn
    exact ih later related

end Together

end Stratus.Effect
