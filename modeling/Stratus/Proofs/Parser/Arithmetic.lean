import Stratus.Proofs.Lexer.Rendering
import Stratus.Proofs.Parser.Reading

/-!
Trees of names, natural numbers and binary operators, as the parser returns them from the tokens of
a text: their names are identifiers, and their operators are spelled as in the table.
-/
namespace Stratus

variable {t : Token}

/-- A token whose text fits its kind, as far as names and operators go. -/
structure Token.WellSpelled (t : Token) : Prop where
  name : t.kind = .identifier → Lexer.isIdentifier t.text = true
  operator : Parser.isOperator t.kind = true → (t.text, t.kind) ∈ TokenKind.operators

namespace Lexer

variable {value chars : List Char} {kind : TokenKind}

theorem Lexeme.isIdentifier (h : Lexeme kind value chars)
    (hk : kind = .identifier) : isIdentifier (String.ofList value) = true := by
  have operators : ∀ entry ∈ TokenKind.operators, entry.2 ≠ .identifier := by decide
  cases h with
  | @word c cs first later =>
    have hw : isWord (c :: cs) = true := by
      simpa [isWord, first] using later
    rw [isIdentifier_iff, String.toList_ofList]
    exact ⟨hw, hk⟩
  | number => cases hk
  | string => cases hk
  | operator mem => exact absurd hk (operators _ mem)

theorem Lexeme.mem_operators (h : Lexeme kind value chars)
    (hk : Parser.isOperator kind = true) : (String.ofList value, kind) ∈ TokenKind.operators := by
  have keywords : ∀ entry ∈ TokenKind.keywords, Parser.isOperator entry.2 = false := by decide
  cases h with
  | @word c cs =>
    rcases TokenKind.ofWord_mem (String.ofList (c :: cs)) with plain | mem
    · rw [plain] at hk
      cases hk
    · rw [keywords _ mem] at hk
      cases hk
  | number => cases hk
  | string => cases hk
  | operator mem =>
    rw [String.ofList_toList]
    exact mem

theorem Moves.wellSpelled {p p' : Position} {cs rest : List Char}
    (h : Moves p cs (some t) p' rest) : t.WellSpelled := by
  cases h with
  | lexeme spelled => exact ⟨spelled.isIdentifier, spelled.mem_operators⟩

theorem Scans.wellSpelled {p : Position} {cs : List Char} {tokens : List Token}
    (h : Scans p cs tokens) (mem : t ∈ tokens) : t.WellSpelled := by
  induction h with
  | finish p =>
    rw [List.mem_singleton] at mem
    subst mem
    exact ⟨nofun, nofun⟩
  | step hs _ ih =>
    rcases List.mem_append.mp mem with here | later
    · rw [Option.mem_toList.mp here] at hs
      exact (step_moves hs).wellSpelled
    · exact ih later

end Lexer

namespace Node

/-- A tree of names and natural numbers under binary operators. -/
inductive Arithmetic : Node → Prop
  | identifier (name : String) : Arithmetic (.identifier name)
  | number (n : Nat) : Arithmetic (.literal (.int n))
  | binary {left right : Node} {t : Token} : Arithmetic left → Arithmetic right →
      Arithmetic (.expression left (some t) (some right))

/-- Such a tree whose names and operators can be written. -/
inductive Spelled : Node → Prop
  | identifier {name : String} : Lexer.isIdentifier name = true → Spelled (.identifier name)
  | number (n : Nat) : Spelled (.literal (.int n))
  | binary {left right : Node} {t : Token} : Spelled left →
      (t.text, t.kind) ∈ TokenKind.operators → Parser.isOperator t.kind = true → Spelled right →
      Spelled (.expression left (some t) (some right))

end Node

namespace Parser

variable {least : Int} {left : Node}

section Small

variable {s s' : State}

theorem current_eq_ok (h : current s = .ok (t, s')) : t ∈ s.tokens ∧ s' = s := by
  cases hs : s.ahead with
  | nil =>
    have none : s.tokens[s.pos]? = none := by
      have := congrArg List.head? hs
      simpa [State.ahead] using this
    simp [current, tokenAt?, bind, StateT.bind, Except.bind, get, getThe,
      MonadStateOf.get, StateT.get,
      pure, StateT.pure, Except.pure, none, throw, throwThe, MonadExceptOf.throw, StateT.lift] at h
  | cons u us =>
    rw [current_run hs] at h
    cases h
    have mem : t ∈ s.ahead := by simp [hs]
    exact ⟨Array.mem_toList_iff.mp (List.mem_of_mem_drop mem), rfl⟩

variable {kind : TokenKind}

theorem sees_eq_ok {b : Bool} (h : sees kind s = .ok (b, s')) : s' = s := by
  obtain ⟨t, s₁, hc, h⟩ := bind_eq_ok h
  cases h
  exact (current_eq_ok hc).2

theorem accept_eq_ok {b : Bool} (h : accept kind s = .ok (b, s')) : s'.tokens = s.tokens := by
  obtain ⟨seen, s₁, hs, h⟩ := bind_eq_ok h
  cases sees_eq_ok hs
  split at h
  · cases h
    rfl
  · cases h
    rfl

theorem consume_eq_ok (h : consume kind s = .ok (t, s')) : s'.tokens = s.tokens := by
  obtain ⟨u, s₁, hc, h⟩ := bind_eq_ok h
  cases (current_eq_ok hc).2
  split at h
  · cases h
    rfl
  · cases h

theorem discard_eq_ok {α : Type} {p : Parse α} (h : (discard p : Parse Unit) s = .ok ((), s')) :
    ∃ a, p s = .ok (a, s') := by
  change (p >>= fun _ => pure ()) s = _ at h
  obtain ⟨a, s₁, hp, h⟩ := bind_eq_ok h
  cases h
  exact ⟨a, hp⟩

theorem lift_eq_ok {α : Type} {e : Outcome α} {a : α} (h : (liftM e : Parse α) s = .ok (a, s')) :
    s' = s := by
  cases e with
  | error fault => cases h
  | ok value =>
    cases h
    rfl

end Small

variable {fuel : Nat} {g : Grammar} {n : Node} {s s' : State}

/-- Members and calls are not arithmetic, so that none has followed the name. -/
theorem trailers_arithmetic {node : Node} (h : trailers g fuel node s = .ok (n, s'))
    (arithmetic : n.Arithmetic) :
    n = node ∧ s'.tokens = s.tokens := by
  induction fuel generalizing node s with
  | zero => cases h
  | succ fuel ih =>
    obtain ⟨mem, s₁, hdot, h⟩ := bind_eq_ok h
    split at h
    · obtain ⟨name, s₂, _, h⟩ := bind_eq_ok h
      obtain ⟨rfl, _⟩ := ih h
      cases arithmetic
    · obtain ⟨called, s₂, hparen, h⟩ := bind_eq_ok h
      split at h
      · obtain ⟨closed, s₃, _, h⟩ := bind_eq_ok h
        split at h
        all_goals
          obtain ⟨arguments, s₄, _, h⟩ := bind_eq_ok h
          obtain ⟨_, s₅, _, h⟩ := bind_eq_ok h
          obtain ⟨rfl, _⟩ := ih h
          cases arithmetic
      · cases h
        exact ⟨rfl, (accept_eq_ok hparen).trans (accept_eq_ok hdot)⟩

theorem object_result (h : object g s = .ok (n, s')) : ∃ attributes, n = .object attributes := by
  obtain ⟨_, s₁, _, h⟩ := bind_eq_ok h
  obtain ⟨members, s₂, _, h⟩ := bind_eq_ok h
  obtain ⟨_, s₃, _, h⟩ := bind_eq_ok h
  cases h
  exact ⟨_, rfl⟩

/-- What a parser returns from well spelled tokens is spelled as well, if it is arithmetic. -/
def Sound (p : Parse Node) : Prop :=
  ∀ {n : Node} {s s' : State}, p s = .ok (n, s') → (∀ t ∈ s.tokens, t.WellSpelled) → n.Arithmetic →
    n.Spelled ∧ s'.tokens = s.tokens

theorem spelled_literal {value : Data} (h : (Node.literal value).Arithmetic) :
    (Node.literal value).Spelled := by
  cases h with
  | number n => exact .number n

theorem primary_sound (he : Sound (g.expression 0)) (ho : Sound g.object) : Sound (primary g) := by
  intro n s s' h spelled arithmetic
  obtain ⟨t, s₁, hc, hm⟩ := bind_eq_ok h
  obtain ⟨mem, rfl⟩ := current_eq_ok hc
  clear h
  -- one case for each kind of token that begins an operand, in the parser's order
  generalize hk : t.kind = kind at hm
  split at hm
  · obtain ⟨_, s₂, ha, hm⟩ := bind_eq_ok hm
    cases ha
    obtain ⟨value, s₃, hl, hm⟩ := bind_eq_ok hm
    cases lift_eq_ok hl
    cases hm
    exact ⟨spelled_literal arithmetic, rfl⟩
  · cases hm
    cases arithmetic
  · obtain ⟨_, s₂, ha, hm⟩ := bind_eq_ok hm
    obtain ⟨closed, s₃, hs, hm⟩ := bind_eq_ok hm
    split at hm
    all_goals
      obtain ⟨elements, s₄, _, hm⟩ := bind_eq_ok hm
      obtain ⟨_, s₅, _, hm⟩ := bind_eq_ok hm
      cases hm
      cases arithmetic
  · exact ho hm spelled arithmetic
  · next hk =>
      obtain ⟨_, s₂, ha, hm⟩ := bind_eq_ok hm
      cases ha
      obtain ⟨fuel, s₃, hb, hm⟩ := bind_eq_ok hm
      cases hb
      obtain ⟨rfl, kept⟩ := trailers_arithmetic hm arithmetic
      exact ⟨.identifier ((spelled t mem).name hk), kept⟩
  · obtain ⟨_, s₂, ha, hm⟩ := bind_eq_ok hm
    cases ha
    obtain ⟨inner, s₃, hi, hm⟩ := bind_eq_ok hm
    obtain ⟨_, s₄, hd, hm⟩ := bind_eq_ok hm
    obtain ⟨_, hclose⟩ := discard_eq_ok hd
    cases hm
    obtain ⟨well, kept⟩ := he hi spelled arithmetic
    exact ⟨well, (consume_eq_ok hclose).trans kept⟩
  · cases hm
    cases arithmetic
  · cases hm
    cases arithmetic
  · cases hm
    cases arithmetic
  · cases hm

/-- What the loop starts from stays below its result. -/
theorem operations_arithmetic
    (h : operations g least fuel left s = .ok (n, s'))
    (arithmetic : n.Arithmetic) : left.Arithmetic := by
  induction fuel generalizing left s with
  | zero => cases h
  | succ fuel ih =>
    obtain ⟨t, s₁, _, hm⟩ := bind_eq_ok h
    dsimp only at hm
    split at hm
    · cases hm
      exact arithmetic
    split at hm
    · obtain ⟨_, s₂, _, hm⟩ := bind_eq_ok hm
      obtain ⟨right, s₃, _, hm⟩ := bind_eq_ok hm
      cases ih hm with
      | binary hl _ => exact hl
    split at hm
    · obtain ⟨body, s₂, _, hm⟩ := bind_eq_ok hm
      cases ih hm
    · cases hm
      exact arithmetic

theorem operations_sound (he : ∀ least, Sound (g.expression least))
    (h : operations g least fuel left s = .ok (n, s'))
    (spelled : ∀ t ∈ s.tokens, t.WellSpelled) (arithmetic : n.Arithmetic) (well : left.Spelled) :
    n.Spelled ∧ s'.tokens = s.tokens := by
  induction fuel generalizing left s with
  | zero => cases h
  | succ fuel ih =>
    obtain ⟨t, s₁, hc, hm⟩ := bind_eq_ok h
    obtain ⟨mem, rfl⟩ := current_eq_ok hc
    dsimp only at hm
    split at hm
    · cases hm
      exact ⟨well, rfl⟩
    split at hm
    · next operator =>
        obtain ⟨_, s₂, ha, hm⟩ := bind_eq_ok hm
        cases ha
        obtain ⟨right, s₃, hr, hm⟩ := bind_eq_ok hm
        cases operations_arithmetic hm arithmetic with
        | binary _ arithmetic' =>
          obtain ⟨well', kept⟩ := he _ hr spelled arithmetic'
          have whole : (Node.expression left (some t) (some right)).Spelled :=
            .binary well ((spelled t mem).operator operator) operator well'
          obtain ⟨result, kept'⟩ := ih hm (by rw [kept]; exact spelled) whole
          exact ⟨result, kept'.trans kept⟩
    split at hm
    · obtain ⟨body, s₂, _, hm⟩ := bind_eq_ok hm
      cases operations_arithmetic hm arithmetic
    · cases hm
      exact ⟨well, rfl⟩

theorem expression_sound (he : ∀ least, Sound (g.expression least)) (ho : Sound g.object)
    (least : Int) : Sound (expression g least) := by
  intro n s s' h spelled arithmetic
  obtain ⟨left, s₁, hp, h⟩ := bind_eq_ok h
  obtain ⟨fuel, s₂, hb, h⟩ := bind_eq_ok h
  cases hb
  obtain ⟨well, kept⟩ := primary_sound (he 0) ho hp spelled (operations_arithmetic h arithmetic)
  obtain ⟨result, kept'⟩ := operations_sound he h (by rw [kept]; exact spelled) arithmetic well
  exact ⟨result, kept'.trans kept⟩

theorem object_sound (g : Grammar) : Sound (object g) := by
  intro n s s' h _ arithmetic
  obtain ⟨attributes, rfl⟩ := object_result h
  cases arithmetic

/-- Arithmetic trees come from the parser well spelled, at any depth. -/
theorem grammar_sound (d : Nat) :
    (∀ least, Sound ((grammar d).expression least)) ∧ Sound (grammar d).object := by
  induction d with
  | zero =>
    constructor
    · intro least n s s' h
      cases h
    · intro n s s' h
      cases h
  | succ d ih => exact ⟨expression_sound ih.1 ih.2, object_sound (grammar d)⟩

end Parser

end Stratus
