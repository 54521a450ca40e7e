import Stratus.Proofs.Parser.Reading
import Stratus.Proofs.Outcome

/-!
How a run of a parser ends. In tokens that end with their only end mark, a run fails for a reason
that the tokens give, or ends in a state that has read so many of them and none behind the end.
-/
namespace Stratus

/-- A fault that the input accounts for: no repetition without end, no access outside the tokens. -/
def Fault.Orderly (fault : Fault) : Prop := fault ≠ .endless ∧ fault ≠ .indexOutOfRange "list"

namespace Parser

variable {fault : Fault}

/-- The last token, and no other, is the end mark. -/
def Closed (tokens : Array Token) : Prop :=
  ∀ i t, tokens[i]? = some t → (t.kind = .endOfFile ↔ i + 1 = tokens.size)

/-- The next token is one of the tokens, at most the end mark. -/
structure State.Placed (s : State) : Prop where
  closed : Closed s.tokens
  inside : s.pos < s.tokens.size

/-- A state on the same tokens that has read at least a number of them more. -/
structure Behind (o : State) (n : Nat) (s : State) : Prop where
  tokens : s.tokens = o.tokens
  read : o.pos + n ≤ s.pos
  placed : s.Placed

/-- Such a state inside the same blocks. -/
structure Later (o : State) (n : Nat) (s : State) : Prop extends Behind o n s where
  level : s.level = o.level

/-- From a state, a parser fails in an orderly way or returns what the condition says. -/
def Ends {α : Type} (p : Parse α) (s : State) (post : α → State → Prop) : Prop :=
  match p s with
  | .ok (a, s') => post a s'
  | .error fault => fault.Orderly

/-- From any state so far behind, a parser returns after reading a token. -/
def From {α : Type} (o : State) (n : Nat) (p : Parse α) : Prop :=
  ∀ s, Behind o n s → Ends p s fun _ s' => Later s 1 s'

/-- A parser that starts where `K` holds fails in an orderly way or returns where `L` holds. -/
def Reaches {α : Type} (K L : State → Prop) (p : Parse α) : Prop :=
  ∀ s, K s → Ends p s fun _ s' => L s'

/-- A parser that reads a token from a state on. -/
abbrev Moves {α : Type} (o : State) (p : Parse α) : Prop := Reaches (Later o 0) (Later o 1) p

def Facing (o : State) (n : Nat) (t : Token) (s : State) : Prop :=
  Later o n s ∧ ∃ ts, s.ahead = t :: ts

namespace Behind

variable {o s s' : State} {m n : Nat}

theorem weaken (h : Behind o n s) (le : m ≤ n) : Behind o m s :=
  ⟨h.tokens, by have := h.read; omega, h.placed⟩

theorem trans (h : Behind o m s) (h' : Behind s n s') : Behind o (m + n) s' :=
  ⟨h'.tokens.trans h.tokens, by have := h.read; have := h'.read; omega, h'.placed⟩

end Behind

namespace Later

variable {o s s' : State} {m n : Nat}

theorem refl (h : o.Placed) : Later o 0 o := ⟨⟨rfl, Nat.le_refl _, h⟩, rfl⟩

theorem weaken (h : Later o n s) (le : m ≤ n) : Later o m s := ⟨h.toBehind.weaken le, h.level⟩

theorem trans (h : Later o m s) (h' : Later s n s') : Later o (m + n) s' :=
  ⟨h.toBehind.trans h'.toBehind, h'.level.trans h.level⟩

end Later

namespace Ends

variable {α β : Type} {s : State} {p : Parse α} {post : α → State → Prop} {after : β → State → Prop}

theorem ok {result : α × State} (h : Ends p s post) (run : p s = .ok result) :
    post result.1 result.2 := by
  unfold Ends at h
  rwa [run] at h

theorem error (h : Ends p s post) (run : p s = .error fault) : fault.Orderly := by
  unfold Ends at h
  rwa [run] at h

theorem bind {f : α → Parse β} (hp : Ends p s post)
    (hf : ∀ a s', post a s' → Ends (f a) s' after) : Ends (p >>= f) s after := by
  unfold Ends at hp
  cases h : p s with
  | error fault =>
    rw [h] at hp
    simpa [Ends, Bind.bind, StateT.bind, h, Except.bind] using hp
  | ok result =>
    obtain ⟨a, s'⟩ := result
    rw [h] at hp
    unfold Ends
    rw [bind_run h]
    exact hf a s' hp

theorem mono {post' : α → State → Prop} (h : Ends p s post)
    (weaker : ∀ a s', post a s' → post' a s') :
    Ends p s post' := by
  unfold Ends at h ⊢
  split at h
  · exact weaker _ _ h
  · exact h

theorem map {f : α → β} (h : Ends p s fun a s' => after (f a) s') : Ends (f <$> p) s after := by
  rw [map_eq_pure_bind]
  exact h.bind fun a s' ha => ha

theorem bounded {f : Nat → Parse β} (h : Ends (f (s.tokens.size + 1)) s after) :
    Ends (bound >>= f) s after := h

theorem modify {change : State → State} {f : Unit → Parse β}
    (h : Ends (f ()) (change s) after) : Ends (modify change >>= f) s after := h

end Ends

namespace From

variable {α : Type} {p : Parse α} {o : State} {k : Nat}

theorem behind {s : State} {n : Nat} (h : From o k p) (here : Behind o k s) : From s n p :=
  fun s' there => h s' ((here.trans there).weaken (Nat.le_add_right k n))

theorem reaches (h : From o k p) : Reaches (Later o k) (Later o 1) p :=
  fun s here => (h s here.toBehind).mono fun _ _ h' => (here.trans h').weaken (Nat.le_add_left 1 k)

theorem of_moves (h : ∀ s, Behind o k s → Moves s p) : From o k p :=
  fun s here => h s here s (.refl here.placed)

end From

namespace Reaches

variable {α β : Type} {K L M : State → Prop} {o : State} {n : Nat}

theorem pure {a : α} : Reaches K K (Pure.pure a : Parse α) := fun _ here => here

theorem throw (h : fault.Orderly) : Reaches K L (MonadExcept.throw fault : Parse α) := fun _ _ => h

theorem bind {p : Parse α} {f : α → Parse β} (hp : Reaches K M p) (hf : ∀ a, Reaches M L (f a)) :
    Reaches K L (p >>= f) :=
  fun s here => (hp s here).bind hf

theorem map {p : Parse α} {f : α → β} (h : Reaches K L p) : Reaches K L (f <$> p) :=
  fun s here => (h s here).map

theorem weaken {p : Parse α} (h : Reaches K (Later o 1) p) : Reaches K (Later o 0) p :=
  fun s here => (h s here).mono fun _ _ h' => h'.weaken (Nat.zero_le 1)

/-- A part that goes on from each state goes on from all of them. -/
theorem rebase {p : Parse α} (h : ∀ s, Later o n s → Reaches (Later s 0) (Later s 0) p) :
    Reaches (Later o n) (Later o n) p :=
  fun s here => (h s here s (.refl here.placed)).mono fun _ _ h' => here.trans h'

theorem look {p : Parse α} {f : α → Parse β} (still : ∀ s, K s → Ends p s fun _ s' => s' = s)
    (hf : ∀ a, Reaches K L (f a)) : Reaches K L (p >>= f) :=
  fun s here => (still s here).bind fun a _ same => hf a _ (same ▸ here)

theorem get {f : State → Parse β} (hf : ∀ s, Reaches K L (f s)) :
    Reaches K L (MonadState.get >>= f) :=
  look (fun _ _ => rfl) hf

theorem lift {x : Outcome α} {f : α → Parse β} (faults : Outcome.Raises Fault.Orderly x)
    (hf : ∀ a, Reaches K L (f a)) : Reaches K L ((liftM x : Parse α) >>= f) := by
  refine look (fun s _ => ?_) hf
  cases x with
  | error fault => exact faults fault rfl
  | ok a => exact rfl

theorem branch {b : Bool} {p q : Parse α} {next : α → Parse β} (hp : Reaches K M p)
    (hq : Reaches K M q)
    (hn : ∀ a, Reaches M L (next a)) : Reaches K L (if b = true then p >>= next else q >>= next) := by
  cases b with
  | true => exact hp.bind hn
  | false => exact hq.bind hn

theorem refuse {b : Bool} {next : Unit → Parse α} (orderly : fault.Orderly)
    (hn : b = false → Reaches K L (next ())) :
    Reaches K L (if b = true then MonadExcept.throw fault >>= next else next ()) := by
  cases b with
  | true => exact fun _ _ => orderly
  | false => exact hn rfl

end Reaches

section Tokens

variable {o s : State} {n : Nat}

theorem State.Placed.next (h : s.Placed) :
    ∃ t ts, s.ahead = t :: ts ∧ (t.kind = .endOfFile ↔ s.pos + 1 = s.tokens.size) := by
  have inside : s.pos < s.tokens.toList.length := by simpa using h.inside
  refine ⟨_, _, List.drop_eq_getElem_cons inside, ?_⟩
  apply h.closed
  simp

theorem Later.skip {t : Token} {ts : List Token} (h : Later o n s) (ahead : s.ahead = t :: ts)
    (more : t.kind ≠ .endOfFile) : Later o (n + 1) (s.skip 1) := by
  obtain ⟨t', ts', ahead', last⟩ := h.placed.next
  rw [ahead] at ahead'
  cases ahead'
  have read := h.read
  have inside := h.placed.inside
  have notLast : s.pos + 1 ≠ s.tokens.size := fun ended => more (last.mpr ended)
  refine ⟨⟨h.tokens, ?_, h.placed.closed, ?_⟩, h.level⟩
  · simp only [State.skip]
    omega
  · simp only [State.skip]
    omega

theorem current_ends (h : s.Placed) :
    Ends current s fun t s' => s' = s ∧ ∃ ts, s.ahead = t :: ts := by
  obtain ⟨t, ts, ahead, _⟩ := h.next
  unfold Ends
  rw [current_run ahead]
  exact ⟨rfl, ts, ahead⟩

theorem sees_ends (h : s.Placed) (kind : TokenKind) :
    Ends (sees kind) s fun b s' => s' = s ∧ ∃ t ts, s.ahead = t :: ts ∧ b = (t.kind == kind) := by
  refine (current_ends h).bind ?_
  rintro t s' ⟨rfl, ts, ahead⟩
  exact ⟨rfl, t, ts, ahead, rfl⟩

variable {kind : TokenKind} (more : kind ≠ .endOfFile)

include more

theorem consume_ends (h : Later o n s) : Ends (consume kind) s fun _ s' => Later o (n + 1) s' := by
  refine (current_ends h.placed).bind ?_
  rintro t s' ⟨rfl, ts, ahead⟩
  split
  · next here =>
      have same : t.kind = kind := by simpa using here
      exact h.skip ahead (same ▸ more)
  · exact ⟨nofun, nofun⟩

theorem accept_ends (h : Later o n s) :
    Ends (accept kind) s fun b s' => Later o (n + b.toNat) s' := by
  refine (sees_ends h.placed kind).bind ?_
  rintro b s' ⟨rfl, t, ts, ahead, rfl⟩
  split
  · next here =>
      have same : t.kind = kind := by simpa using here
      exact h.skip ahead (same ▸ more)
  · exact h

end Tokens

namespace Reaches

variable {α β : Type} {K L : State → Prop} {o : State} {n : Nat} {t : Token} {f : Token → Parse β}

theorem facing {p : Parse α} (h : Reaches (Later o n) L p) : Reaches (Facing o n t) L p :=
  fun s here => h s here.1

theorem current (hf : ∀ t, Reaches (Facing o n t) L (f t)) :
    Reaches (Later o n) L (Parser.current >>= f) := by
  intro s here
  refine (current_ends here.placed).bind ?_
  rintro t _ ⟨rfl, ahead⟩
  exact hf t _ ⟨here, ahead⟩

theorem current_known (hf : Reaches (Facing o n t) L (f t)) :
    Reaches (Facing o n t) L (Parser.current >>= f) := by
  rintro s ⟨here, ts, ahead⟩
  refine (current_ends here.placed).bind ?_
  rintro t' _ ⟨rfl, ts', ahead'⟩
  rw [ahead] at ahead'
  cases ahead'
  exact hf _ ⟨here, ts, ahead⟩

theorem sees {f : Bool → Parse β} {kind : TokenKind} (hf : ∀ b, Reaches (Later o n) L (f b)) :
    Reaches (Later o n) L (Parser.sees kind >>= f) :=
  look (fun _ here => (sees_ends here.placed kind).mono fun _ _ h => h.1) hf

theorem seesBehind {f : Bool → Parse β} {kind : TokenKind} (hf : ∀ b, Reaches K L (f b)) :
    Reaches K L (Parser.seesBehind kind >>= f) :=
  look (fun _ _ => rfl) hf

theorem advance {f : Unit → Parse β} (more : t.kind ≠ .endOfFile)
    (hf : Reaches (Later o 1) L (f ())) :
    Reaches (Facing o n t) L (Parser.advance >>= f) := by
  rintro s ⟨here, ts, ahead⟩
  exact hf _ ((here.skip ahead more).weaken (Nat.le_add_left 1 n))

variable {kind : TokenKind} (more : kind ≠ .endOfFile)

include more

theorem word : Reaches (Later o n) (Later o 1) (Parser.consume kind) :=
  fun _ here => (consume_ends more here).mono fun _ _ h' => h'.weaken (Nat.le_add_left 1 n)

theorem consume (hf : ∀ t, Reaches (Later o 1) L (f t)) :
    Reaches (Later o n) L (Parser.consume kind >>= f) :=
  (word more).bind hf

theorem skip {f : Unit → Parse β} (hf : Reaches (Later o 1) L (f ())) :
    Reaches (Later o n) L (discard (Parser.consume kind) >>= f) :=
  (word more).map.bind fun _ => hf

theorem accept {f : Bool → Parse β} (yes : Reaches (Later o 1) L (f true))
    (no : Reaches (Later o n) L (f false)) :
    Reaches (Later o n) L (Parser.accept kind >>= f) := by
  intro s here
  refine (accept_ends more here).bind fun b s' h' => ?_
  cases b with
  | true => exact yes s' (h'.weaken (Nat.le_add_left 1 n))
  | false => exact no s' h'

theorem skipIf {f : Unit → Parse β} (hf : Reaches (Later o n) L (f ())) :
    Reaches (Later o n) L (discard (Parser.accept kind) >>= f) := by
  have passed : Reaches (Later o n) (Later o n) (Parser.accept kind) :=
    fun _ here => (accept_ends more here).mono fun _ _ h' => h'.weaken (Nat.le_add_right n _)
  exact passed.map.bind fun _ => hf

end Reaches

section Repetitions

variable {α β : Type} {o s : State} {fuel k : Nat}

/-- The tokens ahead are fewer than the turns that are left. -/
def Enough (s : State) (fuel : Nat) : Prop := s.tokens.size < s.pos + fuel

theorem enough (s : State) : Enough s (s.tokens.size + 1) := by
  unfold Enough
  omega

theorem Later.exhausted (h : Later o k s) : ¬ Enough o 0 := by
  have tokens := congrArg Array.size h.tokens
  have read := h.read
  have inside := h.placed.inside
  unfold Enough
  omega

theorem Enough.next (h : Enough o (fuel + 1)) (later : Later o 1 s) : Enough s fuel := by
  have tokens := congrArg Array.size later.tokens
  have read := later.read
  unfold Enough at h ⊢
  omega

theorem repeated_ends {step : Parse (Option α)} {stop : State → Prop}
    (hstep : ∀ s, Behind o k s → Ends step s fun a s' =>
      Later s a.isSome.toNat s' ∧ (a = none → stop s'))
    (here : Behind o k s) (enough : Enough s fuel) :
    Ends (repeated step fuel) s fun _ s' => Later s 0 s' ∧ stop s' := by
  induction fuel generalizing s with
  | zero => exact absurd enough (Later.refl here.placed).exhausted
  | succ fuel ih =>
    refine (hstep s here).bind ?_
    rintro a s₁ ⟨h₁, stopped⟩
    cases a with
    | none => exact ⟨h₁, stopped rfl⟩
    | some a =>
      have there := (here.trans h₁.toBehind).weaken (Nat.le_add_right k 1)
      refine (ih there (enough.next h₁)).bind ?_
      rintro rest s₂ ⟨h₂, stopped⟩
      exact ⟨(h₁.trans h₂).weaken (Nat.zero_le _), stopped⟩

variable {item : Parse α}

theorem untilToken_ends (hi : From o k item) (close : TokenKind) (here : Behind o k s) :
    Ends (untilToken close item) s fun _ s' =>
      Later s 0 s' ∧ ∃ t ts, s'.ahead = t :: ts ∧ t.kind = close := by
  refine .bounded (repeated_ends (fun s here => ?_) here (enough s))
  refine (sees_ends here.placed close).bind ?_
  rintro b s₂ ⟨rfl, t, ts, ahead, rfl⟩
  split
  · next found => exact ⟨.refl here.placed, fun _ => ⟨t, ts, ahead, by simpa using found⟩⟩
  · exact ((hi _ here).mono fun a s' h' => ⟨h', nofun⟩).map

theorem separatedFrom_ends (hi : From o k item) (here : Behind o k s) (enough : Enough s fuel) :
    Ends (separatedFrom .comma item fuel) s fun _ s' => Later s 1 s' := by
  induction fuel generalizing s with
  | zero => exact absurd enough (Later.refl here.placed).exhausted
  | succ fuel ih =>
    refine (hi s here).bind fun a s₁ h₁ => (accept_ends (by decide) h₁).bind fun b s₂ h₂ => ?_
    cases b with
    | false => exact h₂
    | true =>
      have there := (here.trans h₂.toBehind).weaken (Nat.le_add_right k _)
      refine (ih there (enough.next (h₂.weaken (Nat.le_add_left 1 1)))).bind fun rest s₃ h₃ => ?_
      exact (h₂.trans h₃).weaken (Nat.le_add_left 1 _)

namespace Reaches

variable {n : Nat}

theorem untilToken (hi : From o 1 item) (close : TokenKind) :
    Reaches (Later o 1) (Later o 1) (Parser.untilToken close item) :=
  fun _ here => (untilToken_ends hi close here.toBehind).mono fun _ _ h' => here.trans h'.1

theorem separated (hi : From o n item) :
    Reaches (Later o n) (Later o n) (Parser.separated .comma item) :=
  fun s here => .bounded ((separatedFrom_ends hi here.toBehind (enough s)).mono
    fun _ _ h' => (here.trans h').weaken (Nat.le_succ n))

/-- A loop whose turns are bounded by the tokens that are left. -/
theorem bounded {f : Nat → Parse β}
    (hf : ∀ s fuel, Later o n s → Enough s fuel → Reaches (Later s 0) (Later s 0) (f fuel)) :
    Reaches (Later o n) (Later o n) (bound >>= f) := by
  refine rebase fun s here s' there => hf s _ here ?_ s' there
  rw [there.tokens]
  exact enough s

end Reaches

end Repetitions

end Parser

end Stratus
