import Stratus.Proofs.Effect

/-!
Runs that fail, and what every run keeps. A run returns or fails, and in both cases leaves a state;
`Keeps` relates the states before and after, with a rule for each way to combine effects.
-/
namespace Stratus.Effect

variable {σ α β ρ : Type}

/-- Run at `s`, the effect fails and leaves `s'`. -/
def Fails (p : Work σ α) (s : σ) (fault : Fault) (s' : σ) : Prop :=
  (p.run.run s).run = (.error fault, s')

theorem returns_or_fails (p : Work σ α) (s : σ) :
    (∃ a s', Returns p s a s') ∨ ∃ fault s', Fails p s fault s' := by
  rcases run : (p.run.run s).run with ⟨fault | a, s'⟩
  · exact .inr ⟨fault, s', run⟩
  · exact .inl ⟨a, s', run⟩

section Fails

variable {p : Work σ α} {q : Work σ β} {f : α → Work σ β}
  {h : Fault → Work σ α} {s m s' : σ} {a : α} {b : β} {fault : Fault}
  {r : Outcome α}

theorem Returns.not_fails (run : Returns p s a m) : ¬ Fails p s fault s' := by
  intro other
  unfold Returns at run
  unfold Fails at other
  rw [run] at other
  cases other

@[simp] theorem fails_get_iff : Fails (get : Work σ σ) s fault s' ↔ False := by
  constructor
  · intro run
    cases run
  · exact False.elim

@[simp] theorem fails_lift_iff {x : Outcome α} :
    Fails (liftM x : Work σ α) s fault s' ↔ x = .error fault ∧ s' = s := by
  constructor
  · intro run
    cases x <;> cases run
    exact ⟨rfl, rfl⟩
  · rintro ⟨rfl, rfl⟩
    rfl

@[simp] theorem fails_bind_iff : Fails (p >>= f) s fault s' ↔
    Fails p s fault s' ∨ ∃ a m, Returns p s a m ∧ Fails (f a) m fault s' := by
  unfold Fails Returns
  rw [bind_run]
  rcases (p.run.run s).run with ⟨e | a, m⟩
  · simp
  · simp

theorem bind_run_of_returns (run : Returns p s a m) :
    ((p >>= f).run.run s).run = ((f a).run.run m).run := by
  rw [bind_run, show (p.run.run s).run = (.ok a, m) from run]

theorem tryCatch_run : ((tryCatch p h).run.run s).run = match (p.run.run s).run with
    | (.ok a, m) => (.ok a, m)
    | (.error fault, m) => ((h fault).run.run m).run := by
  change ExceptT.tryCatch p h s = _
  simp only [ExceptT.tryCatch, ExceptT.mk, bind, StateT.bind]
  rcases run : p s with ⟨fault | a, m⟩
  · rw [show (p.run.run s).run = (.error fault, m) from run]
    rfl
  · rw [show (p.run.run s).run = (.ok a, m) from run]
    rfl

theorem tryCatch_run_of_returns (run : Returns p s a m) :
    ((tryCatch p h).run.run s).run = (.ok a, m) := by
  rw [tryCatch_run, show (p.run.run s).run = _ from run]

theorem tryCatch_run_of_fails (run : Fails p s fault m) :
    ((tryCatch p h).run.run s).run = ((h fault).run.run m).run := by
  rw [tryCatch_run, show (p.run.run s).run = _ from run]

@[simp] theorem returns_tryCatch_iff : Returns (tryCatch p h) s a s' ↔
    Returns p s a s' ∨ ∃ fault m, Fails p s fault m ∧ Returns (h fault) m a s' := by
  unfold Fails Returns
  rw [tryCatch_run]
  rcases (p.run.run s).run with ⟨fault | a, m⟩
  · simp
  · simp

@[simp] theorem fails_tryCatch_iff : Fails (tryCatch p h) s fault s' ↔
    ∃ first m, Fails p s first m ∧ Fails (h first) m fault s' := by
  unfold Fails
  rw [tryCatch_run]
  rcases (p.run.run s).run with ⟨first | a, m⟩
  · simp
  · simp

/-- A last step that fails hides what the first one came to. -/
theorem tryFinally_run {r' : Outcome β} (run : (p.run.run s).run = (r, m))
    (final : (q.run.run m).run = (r', s')) :
    ((tryFinally p q).run.run s).run = (r' >>= fun _ => r, s') := by
  change p s = _ at run
  change q m = _ at final
  simp only [tryFinally, tryFinally', Functor.map, ExceptT.map, ExceptT.mk, ExceptT.run, StateT.run,
    bind, StateT.bind, pure]
  rw [run]
  cases r <;> simp only [final] <;> cases r' <;> rfl

theorem tryFinally_run_of_returns (run : (p.run.run s).run = (r, m)) (final : Returns q m b s') :
    ((tryFinally p q).run.run s).run = (r, s') := tryFinally_run run final

theorem tryFinally_run_of_fails (run : (p.run.run s).run = (r, m)) (final : Fails q m fault s') :
    ((tryFinally p q).run.run s).run = (.error fault, s') := tryFinally_run run final

theorem returns_of_tryFinally (run : Returns (tryFinally p q) s a s') :
    ∃ m b, Returns p s a m ∧ Returns q m b s' := by
  rcases begun : (p.run.run s).run with ⟨r, m⟩
  rcases returns_or_fails q m with ⟨b, s'', ended⟩ | ⟨fault, s'', ended⟩
  · cases (tryFinally_run_of_returns begun ended).symm.trans run
    exact ⟨m, b, begun, ended⟩
  · cases (tryFinally_run_of_fails begun ended).symm.trans run

end Fails

/-- However a run ends, the states before and after it are related. -/
def Keeps (R : σ → σ → Prop) (p : Work σ α) : Prop := ∀ s, R s (p.run.run s).run.2

section Keeps

variable {R R' : σ → σ → Prop} {p : Work σ α} {s s' : σ} {a : α} {fault : Fault} {xs : List α}
  {g : α → Work σ PUnit}

theorem Keeps.returns (h : Keeps R p) (run : Returns p s a s') : R s s' := by
  have kept := h s
  rwa [show (p.run.run s).run = (.ok a, s') from run] at kept

theorem Keeps.fails (h : Keeps R p) (run : Fails p s fault s') : R s s' := by
  have kept := h s
  rwa [show (p.run.run s).run = (.error fault, s') from run] at kept

theorem keeps_of_runs (returns : ∀ s a s', Returns p s a s' → R s s')
    (fails : ∀ s fault s', Fails p s fault s' → R s s') :
    Keeps R p := by
  intro s
  rcases run : (p.run.run s).run with ⟨fault | a, s'⟩
  · exact fails s fault s' run
  · exact returns s a s' run

theorem Keeps.mono (h : Keeps R p) (sub : ∀ s s', R s s' → R' s s') : Keeps R' p :=
  fun s => sub _ _ (h s)

@[grind .] theorem keeps_runK {e : Except ρ α} {f : ρ → Work σ β} {g : α → Work σ β}
    (early : ∀ r, Keeps R (f r)) (late : ∀ a, Keeps R (g a)) : Keeps R (EarlyReturn.runK e f g) := by
  cases e with
  | error r => exact early r
  | ok a => exact late a

/-- What is done with the state is done in it. -/
theorem keeps_get_bind {f : σ → Work σ α} (h : ∀ s, R s ((f s).run.run s).run.2) :
    Keeps R (get >>= f) := h

variable [IsPreorder σ R]

theorem keeps_of_same (h : ∀ s, (p.run.run s).run.2 = s) : Keeps R p := by
  intro s
  rw [h s]
  exact refl s

@[grind .] theorem keeps_pure (a : α) : Keeps R (pure a : Work σ α) := keeps_of_same fun _ => rfl

@[grind .] theorem keeps_throw (fault : Fault) : Keeps R (throw fault : Work σ α) :=
  keeps_of_same fun _ => rfl

@[grind .] theorem keeps_get : Keeps R (get : Work σ σ) := keeps_of_same fun _ => rfl

@[grind .] theorem keeps_liftM (x : Outcome α) : Keeps R (liftM x : Work σ α) :=
  keeps_of_same fun _ => by cases x <;> rfl

/-- A return from the middle of a block that can fail. -/
@[grind .] theorem keeps_earlyReturn (r : ρ) :
    @Keeps σ (Except ρ α) R (EarlyReturnT.return r : ExceptT ρ (Work σ) α) :=
      keeps_of_same fun _ => rfl

@[grind .] theorem keeps_run_pure (a : α) : Keeps R (ExceptT.run (pure a : ExceptT ρ (Work σ) α)) :=
  keeps_of_same fun _ => rfl

@[grind .] theorem keeps_bind {f : α → Work σ β} (first : Keeps R p) (rest : ∀ a, Keeps R (f a)) :
    Keeps R (p >>= f) := by
  apply keeps_of_runs
  · intro s b s' run
    obtain ⟨a, m, begun, ended⟩ := returns_bind_iff.mp run
    exact IsTrans.trans _ _ _ (first.returns begun) ((rest a).returns ended)
  · intro s fault s' run
    rcases fails_bind_iff.mp run with failed | ⟨a, m, begun, ended⟩
    · exact first.fails failed
    · exact IsTrans.trans _ _ _ (first.returns begun) ((rest a).fails ended)

@[grind .] theorem keeps_map {g : α → β} (h : Keeps R p) : Keeps R (g <$> p) := by
  rw [map_eq_pure_bind]
  exact keeps_bind h fun a => keeps_pure (g a)

@[grind .] theorem keeps_tryCatch {h : Fault → Work σ α} (body : Keeps R p)
    (handler : ∀ fault, Keeps R (h fault)) :
    Keeps R (tryCatch p h) := by
  apply keeps_of_runs
  · intro s a s' run
    rcases returns_tryCatch_iff.mp run with returned | ⟨fault, m, failed, handled⟩
    · exact body.returns returned
    · exact IsTrans.trans _ _ _ (body.fails failed) ((handler fault).returns handled)
  · intro s fault s' run
    obtain ⟨first, m, failed, handled⟩ := fails_tryCatch_iff.mp run
    exact IsTrans.trans _ _ _ (body.fails failed) ((handler first).fails handled)

@[grind .] theorem keeps_tryFinally {q : Work σ β} (body : Keeps R p) (final : Keeps R q) :
    Keeps R (tryFinally p q) := by
  intro s
  have begun := body s
  rcases run : (p.run.run s).run with ⟨r, m⟩
  rw [run] at begun
  rcases returns_or_fails q m with ⟨b, s', ended⟩ | ⟨fault, s', ended⟩
  · rw [tryFinally_run_of_returns run ended]
    exact IsTrans.trans _ _ _ begun (final.returns ended)
  · rw [tryFinally_run_of_fails run ended]
    exact IsTrans.trans _ _ _ begun (final.fails ended)

@[grind .] theorem keeps_forIn {g : α → β → Work σ (ForInStep β)} (b : β)
    (body : ∀ x b, Keeps R (g x b)) : Keeps R (forIn xs b g) := by
  induction xs generalizing b with
  | nil => exact keeps_pure b
  | cons x xs ih =>
    rw [List.forIn_cons]
    refine keeps_bind (body x b) fun step => ?_
    cases step with
    | done b => exact keeps_pure b
    | yield b => exact ih b

@[grind .] theorem keeps_forM (body : ∀ x, Keeps R (g x)) : Keeps R (xs.forM g) := by
  induction xs with
  | nil => exact keeps_pure _
  | cons x xs ih => exact keeps_bind (body x) fun _ => ih

@[grind .] theorem keeps_option_forM {x : Option α} (body : ∀ x, Keeps R (g x)) :
    Keeps R (x.forM g) := by
  cases x with
  | none => exact keeps_pure _
  | some x => exact body x

@[grind .] theorem keeps_findSomeM? {g : α → Work σ (Option β)} (body : ∀ x, Keeps R (g x)) :
    Keeps R (xs.findSomeM? g) := by
  induction xs with
  | nil => exact keeps_pure _
  | cons x xs ih =>
    rw [List.findSomeM?]
    refine keeps_bind (body x) fun found => ?_
    cases found with
    | none => exact ih
    | some b => exact keeps_pure _

end Keeps

end Stratus.Effect
