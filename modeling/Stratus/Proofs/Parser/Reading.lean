import Mathlib
import Stratus.Source.Parser

/-!
Runs of the small parsers. A state is seen through the tokens that are still to be read; each
small parser looks at the first of them and passes it or leaves it.
-/
namespace Stratus.Parser

namespace State

def ahead (s : State) : List Token := s.tokens.toList.drop s.pos

def skip (s : State) (n : Nat) : State := { s with pos := s.pos + n }

@[simp] theorem skip_tokens (s : State) (n : Nat) : (s.skip n).tokens = s.tokens := rfl

@[simp] theorem skip_skip (s : State) (m n : Nat) : (s.skip m).skip n = s.skip (m + n) := by
  simp [skip, Nat.add_assoc]

theorem ahead_skip {s : State} {us ts : List Token} (h : s.ahead = us ++ ts) :
    (s.skip us.length).ahead = ts := by
  have := congrArg (List.drop us.length) h
  simpa [ahead, skip, List.drop_drop] using this

theorem ahead_skip_one {s : State} {t : Token} {ts : List Token} (h : s.ahead = t :: ts) :
    (s.skip 1).ahead = ts := by
  have split : s.ahead = [t] ++ ts := h
  exact ahead_skip split

theorem length_ahead_le (s : State) : s.ahead.length ≤ s.tokens.size := by
  simp [ahead]

end State

theorem bind_run {α β : Type} {p : Parse α} {f : α → Parse β} {s s' : State} {a : α}
    (h : p s = .ok (a, s')) : (p >>= f) s = f a s' := by
  simp [bind, StateT.bind, h, Except.bind]

theorem bind_eq_ok {α β : Type} {p : Parse α} {f : α → Parse β} {s s' : State} {b : β}
    (h : (p >>= f) s = .ok (b, s')) : ∃ a s₁, p s = .ok (a, s₁) ∧ f a s₁ = .ok (b, s') := by
  cases hp : p s with
  | error fault => simp [bind, StateT.bind, hp, Except.bind] at h
  | ok result =>
    obtain ⟨a, s₁⟩ := result
    rw [bind_run hp] at h
    exact ⟨a, s₁, rfl, h⟩

theorem discard_run {α : Type} {p : Parse α} {s s' : State} {a : α} (h : p s = .ok (a, s')) :
    (discard p : Parse Unit) s = .ok ((), s') := by
  change (p >>= fun _ => pure ()) s = _
  rw [bind_run h]
  rfl

section Small

variable {s : State} {t : Token} {ts : List Token}

theorem current_run (h : s.ahead = t :: ts) : current s = .ok (t, s) := by
  have found : s.tokens[s.pos]? = some t := by
    have := congrArg List.head? h
    simpa [State.ahead] using this
  simp [current, tokenAt?, bind, StateT.bind, Except.bind, get, getThe, MonadStateOf.get, StateT.get,
    pure, StateT.pure, Except.pure, found]

theorem advance_run (s : State) : advance s = .ok ((), s.skip 1) := rfl

theorem bound_run (s : State) : bound s = .ok (s.tokens.size + 1, s) := rfl

theorem sees_run (h : s.ahead = t :: ts) (kind : TokenKind) :
    sees kind s = .ok (t.kind == kind, s) := by
  rw [sees, bind_run (current_run h)]
  rfl

theorem accept_run (h : s.ahead = t :: ts) {kind : TokenKind} (hk : t.kind = kind) :
    accept kind s = .ok (true, s.skip 1) := by
  rw [accept, bind_run (sees_run h kind), hk, beq_self_eq_true, if_pos rfl, bind_run (advance_run s)]
  rfl

theorem accept_run_ne (h : s.ahead = t :: ts) {kind : TokenKind} (hk : t.kind ≠ kind) :
    accept kind s = .ok (false, s) := by
  rw [accept, bind_run (sees_run h kind), beq_eq_false_iff_ne.mpr hk, if_neg Bool.false_ne_true]
  rfl

theorem consume_run (h : s.ahead = t :: ts) {kind : TokenKind} (hk : t.kind = kind) :
    consume kind s = .ok (t, s.skip 1) := by
  rw [consume, bind_run (current_run h), hk, beq_self_eq_true, if_pos rfl, bind_run (advance_run s)]
  rfl

end Small

end Stratus.Parser
