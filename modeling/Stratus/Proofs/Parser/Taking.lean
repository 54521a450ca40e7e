import Stratus.Proofs.Parser.Annotation

/-!
What parsers pass for what they return. `Takes K P p` says that, from states in which `K` holds,
what `p` returns and the tokens that it passes are related by `P`; the rules follow the ways to
combine parsers.
-/
namespace Stratus.Parser

/-- From a state to a later one the tokens in between are passed; blocks that were opened are
closed. -/
structure Passes (s : State) (ts : List Token) (s' : State) : Prop where
  tokens : s'.tokens = s.tokens
  level : s'.level = s.level
  pos : s'.pos = s.pos + ts.length
  ahead : s.ahead = ts ++ s'.ahead

theorem Passes.refl (s : State) : Passes s [] s := ⟨rfl, rfl, rfl, rfl⟩

variable {s : State} {t : Token}

theorem Passes.trans {m s' : State} {ts us : List Token} (h : Passes s ts m) (h' : Passes m us s') :
    Passes s (ts ++ us) s' where
  tokens := h'.tokens.trans h.tokens
  level := h'.level.trans h.level
  pos := by rw [h'.pos, h.pos, List.length_append, Nat.add_assoc]
  ahead := by rw [h.ahead, h'.ahead, List.append_assoc]

def At (t : Token) (s : State) : Prop := s.tokens[s.pos]? = some t

def Past (t : Token) (s : State) : Prop := ∃ i, s.pos = i + 1 ∧ s.tokens[i]? = some t

theorem At.ahead (h : At t s) : s.ahead = t :: (s.skip 1).ahead := by
  obtain ⟨inside, rfl⟩ := Array.getElem?_eq_some_iff.mp h
  have := List.drop_eq_getElem_cons (l := s.tokens.toList) (i := s.pos) (by simpa using inside)
  simpa [State.ahead, State.skip] using this

theorem At.passes (h : At t s) : Passes s [t] (s.skip 1) := ⟨rfl, rfl, rfl, h.ahead⟩

theorem At.past (h : At t s) : Past t (s.skip 1) := ⟨s.pos, rfl, h⟩

/-- From every state inside a block in which `K` holds, what a parser returns is related to what it
passes. -/
def Takes {α : Type} (K : State → Prop) (P : α → List Token → Prop) (p : Parse α) : Prop :=
  ∀ s a s', 1 ≤ s.level → K s → p s = .ok (a, s') → ∃ ts, Passes s ts s' ∧ P a ts

def Looks {α : Type} (p : Parse α) : Prop := ∀ s a s', p s = .ok (a, s') → s' = s

namespace Takes

variable {α β : Type} {K : State → Prop} {P : α → List Token → Prop} {Q : β → List Token → Prop}
  {p : Parse α} {f : Token → Parse β}

theorem pure {a : α} (h : P a []) : Takes K P (Pure.pure a : Parse α) := by
  intro s a' s' inside here run
  cases run
  exact ⟨[], .refl s, h⟩

theorem throw (fault : Fault) : Takes K P (MonadExcept.throw fault : Parse α) := by
  intro s a s' inside here run
  cases run

theorem bind {f : α → Parse β} (hp : Takes K P p)
    (hf : ∀ a ts, P a ts → Takes (fun _ => True) (fun b us => Q b (ts ++ us)) (f a)) :
    Takes K Q (p >>= f) := by
  intro s b s' inside here run
  obtain ⟨a, m, first, rest⟩ := bind_eq_ok run
  obtain ⟨ts, passed, ha⟩ := hp s a m inside here first
  obtain ⟨us, passed', hb⟩ := hf a ts ha m b s' (passed.level ▸ inside) trivial rest
  exact ⟨ts ++ us, passed.trans passed', hb⟩

theorem mono {P' : α → List Token → Prop} (h : Takes K P p) (weaker : ∀ a ts, P a ts → P' a ts) :
    Takes K P' p := by
  intro s a s' inside here run
  obtain ⟨ts, passed, ha⟩ := h s a s' inside here run
  exact ⟨ts, passed, weaker a ts ha⟩

theorem anywhere (h : Takes (fun _ => True) P p) : Takes K P p :=
  fun s a s' inside _ run => h s a s' inside trivial run

theorem map {f : α → β} (h : Takes K (fun a => Q (f a)) p) : Takes K Q (f <$> p) := by
  rw [map_eq_pure_bind]
  exact h.bind fun a ts ha => pure (by simpa using ha)

theorem look {f : α → Parse β} (still : Looks p) (hf : ∀ a, Takes K Q (f a)) :
    Takes K Q (p >>= f) := by
  intro s b s' inside here run
  obtain ⟨a, m, first, rest⟩ := bind_eq_ok run
  obtain rfl := still s a m first
  exact hf a m b s' inside here rest

/-! #### Single tokens -/

theorem step {f : α → Parse β}
    (one : ∀ s a s', K s → p s = .ok (a, s') → ∃ t, At t s ∧ s' = s.skip 1 ∧
    Takes (Past t) (fun b us => Q b (t :: us)) (f a)) : Takes K Q (p >>= f) := by
  intro s b s' inside here run
  obtain ⟨a, m, first, rest⟩ := bind_eq_ok run
  obtain ⟨t, next, rfl, hf⟩ := one s a m here first
  obtain ⟨us, passed, hb⟩ := hf (s.skip 1) b s' inside next.past rest
  exact ⟨t :: us, next.passes.trans passed, hb⟩

theorem current (hf : ∀ t, Takes (At t) Q (f t)) : Takes K Q (Parser.current >>= f) := by
  intro s b s' inside here run
  obtain ⟨t, m, first, rest⟩ := bind_eq_ok run
  obtain ⟨found, rfl⟩ := of_current first
  exact hf t m b s' inside found rest

variable {t : Token} {k : TokenKind}

theorem current_known (hf : Takes (At t) Q (f t)) : Takes (At t) Q (Parser.current >>= f) := by
  intro s b s' inside here run
  obtain ⟨t', m, first, rest⟩ := bind_eq_ok run
  obtain ⟨found, rfl⟩ := of_current first
  cases Option.some.inj (here.symm.trans found)
  exact hf m b s' inside here rest

theorem advance {f : Unit → Parse β} (hf : Takes (Past t) (fun b us => Q b (t :: us)) (f ())) :
    Takes (At t) Q (Parser.advance >>= f) := by
  refine step fun s a s' here run => ⟨t, here, ?_⟩
  cases run
  exact ⟨rfl, hf⟩

theorem consume
    (hf : ∀ t, t.kind = k → Takes (Past t) (fun b us => Q b (t :: us)) (f t)) :
    Takes K Q (Parser.consume k >>= f) := by
  refine step fun s t s' here run => ?_
  obtain ⟨found, kind, rfl⟩ := of_consume run
  exact ⟨t, found, rfl, hf t kind⟩

theorem consume_known
    (hf : Takes (Past t) (fun b us => Q b (t :: us)) (f t)) :
    Takes (At t) Q (Parser.consume k >>= f) := by
  refine step fun s u s' here run => ?_
  obtain ⟨found, -, rfl⟩ := of_consume run
  cases Option.some.inj (here.symm.trans found)
  exact ⟨t, found, rfl, hf⟩

theorem discarded {f : Unit → Parse β} (h : Takes K Q (p >>= fun _ => f ())) :
    Takes K Q (discard p >>= f) := by
  have same : discard p = p >>= fun _ => Pure.pure ⟨⟩ := map_eq_pure_bind _ p
  rw [same, bind_assoc]
  exact h

theorem skip {f : Unit → Parse β}
    (hf : ∀ t, t.kind = k → Takes (Past t) (fun b us => Q b (t :: us)) (f ())) :
    Takes K Q (discard (Parser.consume k) >>= f) :=
  discarded (consume hf)

theorem accept {f : Bool → Parse β}
    (yes : ∀ t, t.kind = k → Takes (Past t) (fun b us => Q b (t :: us)) (f true))
    (no : Takes K Q (f false)) :
    Takes K Q (Parser.accept k >>= f) := by
  intro s b s' inside here run
  obtain ⟨taken, m, first, rest⟩ := bind_eq_ok run
  obtain ⟨seen, m', looked, first⟩ := bind_eq_ok first
  obtain ⟨meaning, rfl⟩ := of_sees looked
  cases seen with
  | true =>
    cases first
    obtain ⟨t, next, kind⟩ := meaning.mp rfl
    obtain ⟨us, passed, hb⟩ := yes t kind (m'.skip 1) b s' inside (At.past next) rest
    exact ⟨t :: us, (At.passes next).trans passed, hb⟩
  | false =>
    cases first
    exact no m b s' inside here rest

theorem label {b : Bool} {next : Option String → Parse β}
    (yes : ∀ t, t.kind = .string → Takes (Past t) (fun b us => Q b (t :: us)) (next (some t.text)))
    (no : Takes K Q (next none)) :
    Takes K Q (if b = true then (some <$> Token.text <$> Parser.consume .string) >>= next
      else Pure.pure none >>= next) := by
  cases b with
  | true =>
    refine step fun s label s' here run => ?_
    obtain ⟨text, mapped, rfl⟩ := of_map run
    obtain ⟨t, consumed, rfl⟩ := of_map mapped
    obtain ⟨found, kind, rfl⟩ := of_consume consumed
    exact ⟨t, found, rfl, yes t kind⟩
  | false => exact no

theorem rewind {p : Parse β} (h : Takes (At t) (fun b us => ∃ ts, us = t :: ts ∧ Q b ts) p) :
    Takes (Past t) Q ((modify fun s => { s with pos := s.pos - 1 }) >>= fun _ => p) := by
  rintro s b s' inside ⟨i, here, found⟩ run
  obtain ⟨_, m, first, rest⟩ := bind_eq_ok run
  cases first
  obtain ⟨m, rfl, rfl⟩ : ∃ m : State, s = m.skip 1 ∧ m.pos = i :=
    ⟨{ s with pos := i }, by cases s; cases here; rfl, rfl⟩
  obtain ⟨_, passed, ts, rfl, hb⟩ := h m b s' inside found rest
  refine ⟨ts, ⟨passed.tokens, passed.level, ?_, ?_⟩, hb⟩
  · rw [passed.pos, List.length_cons, Nat.add_comm ts.length, ← Nat.add_assoc]
    rfl
  · exact (List.cons.inj ((At.ahead found).symm.trans passed.ahead)).2

/-- What is passed from a known token on starts with it. -/
theorem known (h : Takes (At t) P p) : Takes (At t) (fun a ts => P a ts ∧ ts.head?.getD t = t) p := by
  intro s a s' inside here run
  obtain ⟨ts, passed, ha⟩ := h s a s' inside here run
  refine ⟨ts, passed, ha, ?_⟩
  cases ts with
  | nil => rfl
  | cons u us =>
    have := here.ahead.symm.trans passed.ahead
    exact (List.cons.inj this).1.symm

/-! #### Looking -/

theorem sees {f : Bool → Parse β} (hf : ∀ b, Takes K Q (f b)) : Takes K Q (Parser.sees k >>= f) :=
  look (fun _ _ _ run => (of_sees run).2) hf

theorem seesBehind {f : Bool → Parse β} (hf : ∀ b, Takes K Q (f b)) :
    Takes K Q (Parser.seesBehind k >>= f) := by
  refine look (fun s b s' run => ?_) hf
  cases run
  rfl

theorem bound {f : Nat → Parse β} (hf : ∀ n, Takes K Q (f n)) : Takes K Q (Parser.bound >>= f) := by
  refine look (fun s b s' run => ?_) hf
  cases run
  rfl

theorem get {f : State → Parse β} (hf : ∀ s : State, 1 ≤ s.level → Takes K Q (f s)) :
    Takes K Q (MonadState.get >>= f) := by
  intro s b s' inside here run
  exact hf s inside s b s' inside here run

theorem lift {x : Outcome α} {f : α → Parse β} (hf : ∀ a, x = .ok a → Takes K Q (f a)) :
    Takes K Q ((liftM x : Parse α) >>= f) := by
  intro s b s' inside here run
  obtain ⟨a, m, first, rest⟩ := bind_eq_ok run
  obtain ⟨same, rfl⟩ := of_lift first
  exact hf a same m b s' inside here rest

theorem refuse {b : Bool} {fault : Fault} {next : Unit → Parse β}
    (hn : b = false → Takes K Q (next ())) :
    Takes K Q (if b = true then MonadExcept.throw fault >>= next else next ()) := by
  cases b with
  | true => exact bind (P := fun _ _ => False) (throw fault) fun _ _ h => h.elim
  | false => exact hn rfl

end Takes

section Repetitions

variable {α : Type} {K : State → Prop} {P : α → List Token → Prop} {R : List α → List Token → Prop}
  {item : Parse α}

theorem repeated_takes {step : Parse (Option α)} {S : Option α → List Token → Prop}
    (h : Takes (fun _ => True) S step)
    (last : ∀ ts, S none ts → R [] ts)
    (more : ∀ a ts items us, S (some a) ts → R items us → R (a :: items) (ts ++ us))
    (fuel : Nat) : Takes (fun _ => True) R (repeated step fuel) := by
  induction fuel with
  | zero => exact .throw _
  | succ fuel ih =>
    refine h.bind fun o ts ho => ?_
    cases o with
    | none => exact .pure (by simpa using last ts ho)
    | some a =>
      exact ih.bind fun items us hitems => .pure (by simpa using more a ts items us ho hitems)

theorem untilToken_takes (h : Takes (fun _ => True) P item) (close : TokenKind) (nil : R [] [])
    (cons : ∀ a ts items us, P a ts → R items us → R (a :: items) (ts ++ us)) :
    Takes K R (untilToken close item) := by
  have step : Takes (fun _ => True) (fun o ts => o = none ∧ ts = [] ∨ ∃ a, o = some a ∧ P a ts)
      (do if ← sees close then return none else some <$> item) := by
    refine .sees fun closed => ?_
    split
    · exact .pure (.inl ⟨rfl, rfl⟩)
    · exact .map (h.mono fun a ts ha => .inr ⟨a, rfl, ha⟩)
  refine .bound fun fuel => (repeated_takes step (fun ts h => ?_)
    (fun a ts items us h => ?_) fuel).anywhere
  · obtain ⟨-, rfl⟩ | ⟨_, impossible, -⟩ := h
    · exact nil
    · cases impossible
  · obtain ⟨impossible, -⟩ | ⟨_, same, ha⟩ := h
    · cases impossible
    · cases same
      exact cons a ts items us ha

theorem separated_takes {sep : TokenKind} (h : Takes (fun _ => True) P item)
    (one : ∀ a ts, P a ts → R [a] ts)
    (more : ∀ a ts t items us, P a ts → t.kind = sep → R items us → R (a :: items) (ts ++ t :: us)) :
    Takes K R (separated sep item) := by
  refine .bound fun fuel => .anywhere ?_
  induction fuel with
  | zero => exact .throw _
  | succ fuel ih =>
    refine h.bind fun a ts ha => .accept (fun t ht => ?_) (.pure (by simpa using one a ts ha))
    exact ih.anywhere.bind fun items us hitems =>
      .pure (by simpa using more a ts t items us ha ht hitems)

end Repetitions

end Stratus.Parser
