import Stratus.Proofs.Lexer.Rendering
import Stratus.Proofs.Parser.Reading

/-!
Formulas and how they are read. The tokens of a formula have the fewest parentheses that keep its
grouping; they are read at any precedence up to that of the formula.
-/
namespace Stratus

def Token.unplaced (t : Token) : Token := { t with line := 0, column := 0 }

theorem Token.unplaced_eq_of_mark {t u : Token} (h : t.mark = u.mark) : t.unplaced = u.unplaced := by
  simp only [Token.mark, Prod.mk.injEq] at h
  simp [Token.unplaced, h]

namespace Node

mutual

/-- A formula with its operators at no place. -/
def unplaced : Node → Node
  | expression left (some t) (some right) =>
    expression (unplaced left) (some t.unplaced) (some (unplaced right))
  | call callee arguments => call (unplaced callee) (unplacedAll arguments)
  | access owner mem => access (unplaced owner) mem
  | list elements => list (unplacedAll elements)
  | node => node

def unplacedAll : List Node → List Node
  | [] => []
  | node :: rest => unplaced node :: unplacedAll rest

end

/-- How tightly the top of a formula binds; what is not an operation binds tighter than any. -/
def level : Node → Int
  | expression _ (some t) (some _) => Parser.precedence t.kind
  | _ => 7

def isChain : Node → Bool
  | identifier _ => true
  | access owner _ => isChain owner
  | call callee _ => isChain callee
  | _ => false

inductive Formula : Node → Prop
  | number (n : Nat) : Formula (.literal (.int n))
  | string (value : String) : Formula (.literal (.str value))
  | bool (b : Bool) : Formula (.literal (.bool b))
  | null : Formula (.literal .null)
  | identifier (name : String) : Formula (.identifier name)
  | access {owner : Node} : Formula owner → owner.isChain = true → ∀ mem,
      Formula (.access owner mem)
  | call {callee : Node} {arguments : List Node} : Formula callee → callee.isChain = true →
      (∀ a ∈ arguments, Formula a) → Formula (.call callee arguments)
  | list {elements : List Node} : (∀ e ∈ elements, Formula e) → Formula (.list elements)
  | binary {left right : Node} {t : Token} : Formula left → Parser.isOperator t.kind = true →
      Formula right → Formula (.expression left (some t) (some right))

end Node

theorem Parser.isOperator_bounds {kind : TokenKind} (h : isOperator kind = true) :
    0 < precedence kind ∧ precedence kind < 7 ∧ kind ≠ .dot ∧ kind ≠ .leftParen := by
  cases kind <;> first | decide | cases h

def enclosed (weak : Bool) (marks : List (TokenKind × String)) : List (TokenKind × String) :=
  if weak then (.leftParen, "(") :: (marks ++ [(.rightParen, ")")]) else marks

namespace Node

mutual

/-- The tokens of a formula. An operand is enclosed if it binds weaker than the operator, a right
one also if it binds equally. -/
def marks : Node → List (TokenKind × String)
  | literal (.int n) => [(.number, toString n)]
  | literal (.str value) => [(.string, value)]
  | literal (.bool true) => [(.trueWord, "true")]
  | literal (.bool false) => [(.falseWord, "false")]
  | literal .null => [(.nullWord, "null")]
  | identifier name => [(.identifier, name)]
  | access owner mem => marks owner ++ [(.dot, "."), (.identifier, mem)]
  | call callee arguments =>
    marks callee ++ (.leftParen, "(") :: (itemMarks arguments ++ [(.rightParen, ")")])
  | list elements => (.leftBracket, "[") :: (itemMarks elements ++ [(.rightBracket, "]")])
  | expression left (some t) (some right) =>
    enclosed (left.level < Parser.precedence t.kind) (marks left) ++
      t.mark :: enclosed (right.level ≤ Parser.precedence t.kind) (marks right)
  | _ => []

def itemMarks : List Node → List (TokenKind × String)
  | [] => []
  | [node] => marks node
  | node :: rest => marks node ++ (.comma, ",") :: itemMarks rest

end

theorem itemMarks_cons_cons (node next : Node) (rest : List Node) :
    itemMarks (node :: next :: rest) = marks node ++ (.comma, ",") :: itemMarks (next :: rest) := rfl

theorem Formula.starts {node : Node} (h : Formula node) :
    ∃ m ms, node.marks = m :: ms ∧ m.1 ≠ .rightParen ∧ m.1 ≠ .rightBracket := by
  induction h with
  | number n => exact ⟨_, _, rfl, by simp, by simp⟩
  | string value => exact ⟨_, _, rfl, by simp, by simp⟩
  | bool b => cases b <;> exact ⟨_, _, rfl, by simp, by simp⟩
  | null => exact ⟨_, _, rfl, by simp, by simp⟩
  | identifier name => exact ⟨_, _, rfl, by simp, by simp⟩
  | access _ _ mem ih =>
    obtain ⟨m, ms, hm, apart⟩ := ih
    exact ⟨m, _, by rw [marks, hm, List.cons_append], apart⟩
  | call _ _ _ ih _ =>
    obtain ⟨m, ms, hm, apart⟩ := ih
    exact ⟨m, _, by rw [marks, hm, List.cons_append], apart⟩
  | list _ _ => exact ⟨_, _, by rw [marks], by simp, by simp⟩
  | @binary left right t _ _ _ ih _ =>
    obtain ⟨m, ms, hm, apart⟩ := ih
    rw [marks, enclosed]
    split
    · exact ⟨_, _, rfl, by simp, by simp⟩
    · exact ⟨m, _, by rw [hm, List.cons_append], apart⟩

theorem Formula.level_pos {node : Node} (h : node.Formula) : 0 < node.level := by
  cases h with
  | binary _ operator _ => exact (Parser.isOperator_bounds operator).1
  | _ => exact (by decide : (0 : Int) < 7)

end Node

end Stratus

namespace Stratus.Parser

open List

variable {m : TokenKind × String} {nodes : List Node} {left right : Node} {value : Data} {o : Token}

theorem numeralValue_repr (n : Nat) : numeralValue n.repr = .ok (.int n) := by
  have unpointed : '.' ∉ n.repr.toList := fun mem =>
    absurd (Numeral.isDigit_of_mem_repr mem) (by decide)
  have whole : Text.splitOnce? n.repr "." = none := by
    have := Text.cut?_eq_none unpointed
    simpa [Text.splitOnce?] using this
  simp only [numeralValue, whole, Numeral.nat?_repr]

/-- The next tokens of a state spell given marks, and formulas may nest as deep as they are many. -/
structure Spells (s : State) (d : Nat) (marks : List (TokenKind × String)) (us ts : List Token) :
    Prop where
  ahead : s.ahead = us ++ ts
  marked : us.map Token.mark = marks
  deep : us.length ≤ d

namespace Spells

variable {s : State} {d : Nat} {us ts : List Token} {ms : List (TokenKind × String)}

theorem cons (h : Spells s d (m :: ms) us ts) :
    ∃ u us', us = u :: us' ∧ u.mark = m ∧ s.ahead = u :: (us' ++ ts) ∧ 0 < d ∧
      Spells (s.skip 1) (d - 1) ms us' ts := by
  obtain ⟨u, us', rfl, hm, hms⟩ := map_eq_cons_iff.mp h.marked
  have deep := h.deep
  rw [length_cons] at deep
  have ahead : s.ahead = u :: (us' ++ ts) := h.ahead
  exact ⟨u, us', rfl, hm, ahead, by omega, State.ahead_skip_one ahead, hms, by omega⟩

theorem singleton (h : Spells s d [m] us ts) : ∃ u, us = [u] ∧ u.mark = m ∧ s.ahead = u :: ts := by
  obtain ⟨u, us, rfl, hm, ahead, _, nothing⟩ := h.cons
  obtain rfl : us = [] := map_eq_nil_iff.mp nothing.marked
  exact ⟨u, rfl, hm, ahead⟩

theorem append {ns : List (TokenKind × String)} (h : Spells s d (ms ++ ns) us ts) :
    ∃ us₁ us₂, us = us₁ ++ us₂ ∧ Spells s d ms us₁ (us₂ ++ ts) ∧
      Spells (s.skip us₁.length) (d - us₁.length) ns us₂ ts := by
  obtain ⟨us₁, us₂, rfl, hms, hns⟩ := map_eq_append_iff.mp h.marked
  have deep := h.deep
  rw [length_append] at deep
  have ahead : s.ahead = us₁ ++ (us₂ ++ ts) := by rw [h.ahead, append_assoc]
  exact ⟨us₁, us₂, rfl, ⟨ahead, hms, by omega⟩, State.ahead_skip ahead, hns, by omega⟩

theorem deepen (h : Spells s d ms us ts) {d' : Nat} (hd : d ≤ d') : Spells s d' ms us ts :=
  ⟨h.ahead, h.marked, h.deep.trans hd⟩

theorem length_lt {t : Token} (h : Spells s d ms us (t :: ts)) : us.length < s.tokens.size := by
  have := s.length_ahead_le
  rw [h.ahead, length_append, length_cons] at this
  omega

end Spells

/-! ### Loops -/

/-- An expression goes on, behind a number of tokens, in its loop over operators with the tree. -/
def GoesOn (d : Nat) (least : Int) (s : State) (node : Node) (k : Nat) : Prop :=
  ∃ n fuel, s.tokens.size + 1 ≤ fuel + k ∧ n.unplaced = node.unplaced ∧
    expression (grammar d) least s = operations (grammar d) least fuel n (s.skip k)

/-- The tree is read from its tokens, in front of any token that cannot extend it. -/
def ReadsOn (node : Node) : Prop :=
  ∀ (d : Nat) (s : State) (us ts : List Token) (t : Token) (least : Int),
    Spells s d node.marks us (t :: ts) → least ≤ node.level →
    precedence t.kind ≤ node.level → t.kind ≠ .dot → t.kind ≠ .leftParen →
    GoesOn d least s node us.length

/-- Behind the tokens of a chain, the loop over members and calls goes on with it. -/
def ChainsOn (node : Node) : Prop :=
  ∀ (d : Nat) (s : State) (us ts : List Token), Spells s d node.marks us ts →
    ∃ n fuel, s.tokens.size + 1 ≤ fuel + us.length ∧ n.unplaced = node.unplaced ∧
      primary (grammar d) s = trailers (grammar d) fuel n (s.skip us.length)

variable {g : Grammar} {n node : Node} {s : State} {fuel d : Nat} {t u : Token} {ts us : List Token}
  {least : Int}

theorem expression_of_primary {k : Nat} (least : Int) (h : primary g s = .ok (n, s.skip k)) :
    expression g least s = operations g least (s.tokens.size + 1) n (s.skip k) := by
  rw [expression, bind_run h, bind_run (bound_run _), State.skip_tokens]

theorem ReadsOn.of_primary (h : ∀ (d : Nat) (s : State) (us ts : List Token) (t : Token),
      Spells s d node.marks us (t :: ts) → t.kind ≠ .dot → t.kind ≠ .leftParen →
      ∃ n, n.unplaced = node.unplaced ∧ primary (grammar d) s = .ok (n, s.skip us.length)) :
        ReadsOn node := by
  intro d s us ts t least spells _ _ hdot hparen
  obtain ⟨n, hn, hrun⟩ := h d s us ts t spells hdot hparen
  exact ⟨n, _, Nat.le_add_right _ _, hn, expression_of_primary least hrun⟩

theorem trailers_stop (h : s.ahead = t :: ts) (hdot : t.kind ≠ .dot) (hparen : t.kind ≠ .leftParen)
    (hf : 0 < fuel) :
    trailers g fuel n s = .ok (n, s) := by
  obtain ⟨fuel, rfl⟩ := Nat.exists_eq_succ_of_ne_zero hf.ne'
  rw [trailers, bind_run (accept_run_ne h hdot), if_neg Bool.false_ne_true,
    bind_run (accept_run_ne h hparen), if_neg Bool.false_ne_true]
  rfl

theorem ChainsOn.readsOn (h : ChainsOn node) : ReadsOn node := by
  apply ReadsOn.of_primary
  intro d s us ts t spells hdot hparen
  obtain ⟨n, fuel, hf, hn, hrun⟩ := h d s us (t :: ts) spells
  have short := spells.length_lt
  refine ⟨n, hn, ?_⟩
  rw [hrun, trailers_stop (State.ahead_skip spells.ahead) hdot hparen (by omega)]

theorem operations_stop (h : s.ahead = t :: ts) (low : precedence t.kind < least) (hf : 0 < fuel) :
    operations g least fuel n s = .ok (n, s) := by
  obtain ⟨fuel, rfl⟩ := Nat.exists_eq_succ_of_ne_zero hf.ne'
  rw [operations, bind_run (current_run h)]
  simp only [if_pos low]
  rfl

theorem GoesOn.stops {k : Nat}
    (h : GoesOn d least s node k) (ahead : (s.skip k).ahead = t :: ts) (short : k < s.tokens.size)
    (low : precedence t.kind < least) :
    ∃ n, n.unplaced = node.unplaced ∧ expression (grammar d) least s = .ok (n, s.skip k) := by
  obtain ⟨n, fuel, hf, hn, hrun⟩ := h
  refine ⟨n, hn, ?_⟩
  rw [hrun, operations_stop ahead low (by omega)]

theorem ReadsOn.stops (h : ReadsOn node) (least : Int) (spells : Spells s d node.marks us (t :: ts))
    (hleast : least ≤ node.level) (low : precedence t.kind < least) (hdot : t.kind ≠ .dot)
    (hparen : t.kind ≠ .leftParen) : ∃ n, n.unplaced = node.unplaced ∧
      expression (grammar d) least s = .ok (n, s.skip us.length) :=
  (h d s us ts t least spells hleast (by omega) hdot hparen).stops (State.ahead_skip spells.ahead)
    spells.length_lt low

theorem grammar_expression (d : Nat) (least : Int) (s : State) :
    (grammar (d + 1)).expression least s = expression (grammar d) least s := rfl

theorem ReadsOn.enclosed (h : ReadsOn node) (formula : node.Formula) (weak : Bool) (least : Int)
    (spells : Spells s d (enclosed weak node.marks) us (t :: ts))
    (strong : weak = false → least ≤ node.level ∧ precedence t.kind ≤ node.level)
    (hdot : t.kind ≠ .dot) (hparen : t.kind ≠ .leftParen) : GoesOn d least s node us.length := by
  cases weak with
  | false =>
    obtain ⟨hleast, low⟩ := strong rfl
    exact h d s us ts t least spells hleast low hdot hparen
  | true =>
    obtain ⟨opening, us, rfl, hopen, ahead, hd, inner⟩ := spells.cons
    obtain ⟨us₁, us₂, rfl, body, last⟩ := inner.append
    obtain ⟨closing, rfl, hclose, behind⟩ := last.singleton
    obtain ⟨d, rfl⟩ := Nat.exists_eq_succ_of_ne_zero hd.ne'
    have hopening : opening.kind = .leftParen := congrArg Prod.fst hopen
    have hclosing : closing.kind = .rightParen := congrArg Prod.fst hclose
    obtain ⟨n, hn, hrun⟩ := h.stops 0 body formula.level_pos.le
      (by rw [hclosing]; decide) (by simp [hclosing]) (by simp [hclosing])
    refine ⟨n, _, Nat.le_add_right _ _, hn, expression_of_primary least ?_⟩
    rw [primary, bind_run (current_run ahead)]
    simp only [hopening]
    rw [bind_run (advance_run s), bind_run ((grammar_expression d 0 _).trans hrun),
      bind_run (discard_run (consume_run behind hclosing))]
    simp [pure, StateT.pure, Except.pure, Nat.add_comm, Nat.add_left_comm]

/-! ### Items -/

theorem separatedFrom_run (filled : nodes ≠ [])
    (reads : ∀ node ∈ nodes, ReadsOn node) (formulas : ∀ node ∈ nodes, node.Formula)
        (spells : Spells s d (Node.itemMarks nodes) us (t :: ts))
    (closing : t.kind = .rightParen ∨ t.kind = .rightBracket) (hf : us.length < fuel) :
    ∃ ns, Node.unplacedAll ns = Node.unplacedAll nodes ∧
      separatedFrom .comma ((grammar (d + 1)).expression 0) fuel s = .ok (ns, s.skip us.length) := by
  have stop {u : Token} (hu : u.kind = .comma ∨ u.kind = .rightParen ∨ u.kind = .rightBracket) :
      precedence u.kind < 0 ∧ u.kind ≠ .dot ∧ u.kind ≠ .leftParen := by
    rcases hu with hu | hu | hu <;> rw [hu] <;> decide
  induction nodes generalizing s us fuel d with
  | nil => exact absurd rfl filled
  | cons node nodes ih =>
    obtain ⟨fuel, rfl⟩ := Nat.exists_eq_succ_of_ne_zero (Nat.ne_zero_of_lt hf)
    have first := reads node mem_cons_self
    have least := (formulas node mem_cons_self).level_pos.le
    cases nodes with
    | nil =>
      obtain ⟨low, hdot, hparen⟩ := stop (Or.inr closing)
      obtain ⟨n, hn, hrun⟩ := first.stops 0 spells least low hdot hparen
      have hcomma : t.kind ≠ .comma := by
        rcases closing with h | h <;> simp [h]
      refine ⟨[n], by simp [Node.unplacedAll, hn], ?_⟩
      rw [separatedFrom, bind_run ((grammar_expression d 0 s).trans hrun),
        bind_run (accept_run_ne (State.ahead_skip spells.ahead) hcomma), if_neg Bool.false_ne_true]
      rfl
    | cons next nodes =>
      rw [Node.itemMarks_cons_cons] at spells
      obtain ⟨us₁, us₂, rfl, head, rest⟩ := spells.append
      obtain ⟨comma, us₂, rfl, hmark, ahead, _, later⟩ := rest.cons
      have hcomma : comma.kind = .comma := congrArg Prod.fst hmark
      obtain ⟨low, hdot, hparen⟩ := stop (Or.inl hcomma)
      obtain ⟨n, hn, hrun⟩ := first.stops 0 head least low hdot hparen
      have fewer : us₂.length < fuel := by
        simp only [length_append, length_cons] at hf
        omega
      obtain ⟨ns, hns, hruns⟩ := ih (cons_ne_nil _ _)
        (fun a mem => reads a (mem_cons_of_mem _ mem))
        (fun a mem => formulas a (mem_cons_of_mem _ mem))
        (later.deepen (by omega : _ ≤ d)) fewer
      refine ⟨n :: ns, congrArg₂ cons hn hns, ?_⟩
      rw [separatedFrom, bind_run ((grammar_expression d 0 s).trans hrun),
        bind_run (accept_run ahead hcomma), if_pos rfl, bind_run hruns]
      simp [pure, StateT.pure, Except.pure, Nat.add_comm, Nat.add_left_comm]

/-- Items up to what closes them, if there are any; the parser then goes on with them. -/
theorem items_run (reads : ∀ node ∈ nodes, ReadsOn node) (formulas : ∀ node ∈ nodes, node.Formula)
    {close : Token} (spells : Spells s d (Node.itemMarks nodes) us (close :: ts))
    (closing : close.kind = .rightParen ∨ close.kind = .rightBracket) :
    ∃ u vs ns, s.ahead = u :: vs ∧ Node.unplacedAll ns = Node.unplacedAll nodes ∧
      ∀ next : List Node → Parse Node,
        (if (u.kind == close.kind) = true then pure [] >>= next
          else separated .comma ((grammar (d + 1)).expression 0) >>= next) s =
          next ns (s.skip us.length) := by
  cases nodes with
  | nil =>
    obtain rfl : us = [] := map_eq_nil_iff.mp spells.marked
    refine ⟨close, ts, [], spells.ahead, rfl, ?_⟩
    intro next
    rw [beq_self_eq_true, if_pos rfl]
    rfl
  | cons node nodes =>
    have short := spells.length_lt
    obtain ⟨m, ms, hm, paren, bracket⟩ := (formulas node mem_cons_self).starts
    obtain ⟨ms', hms⟩ : ∃ ms', Node.itemMarks (node :: nodes) = m :: ms' := by
      cases nodes with
      | nil => exact ⟨ms, hm⟩
      | cons next nodes => exact ⟨_, by rw [Node.itemMarks_cons_cons, hm, cons_append]⟩
    obtain ⟨ns, hns, hrun⟩ := separatedFrom_run (cons_ne_nil _ _) reads formulas spells closing
      (Nat.lt_succ_of_lt short)
    rw [hms] at spells
    obtain ⟨u, us', rfl, hu, ahead, _, _⟩ := spells.cons
    have other : u.kind ≠ close.kind := by
      have hkind : u.kind = m.1 := congrArg Prod.fst hu
      rcases closing with h | h <;> rw [h, hkind] <;> assumption
    have whole : separated .comma ((grammar (d + 1)).expression 0) s =
        .ok (ns, s.skip (u :: us').length) := by
      rw [separated, bind_run (bound_run s), hrun]
    refine ⟨u, _, ns, ahead, hns, ?_⟩
    intro next
    rw [beq_eq_false_iff_ne.mpr other, if_neg Bool.false_ne_true, bind_run whole]

/-! ### Chains, lists and literals -/

theorem chainsOn_identifier (name : String) : ChainsOn (.identifier name) := by
  intro d s us ts spells
  obtain ⟨u, rfl, hu, ahead⟩ := spells.singleton
  simp only [Token.mark, Prod.mk.injEq] at hu
  obtain ⟨hkind, rfl⟩ := hu
  refine ⟨.identifier u.text, s.tokens.size + 1, Nat.le_add_right _ _, rfl, ?_⟩
  rw [primary, bind_run (current_run ahead)]
  simp only [hkind]
  rw [bind_run (advance_run s), bind_run (bound_run _)]
  rfl

theorem ChainsOn.access {owner : Node} (h : ChainsOn owner) (mem : String) :
    ChainsOn (.access owner mem) := by
  intro d s us ts spells
  rw [Node.marks] at spells
  obtain ⟨us₁, us₂, rfl, first, rest⟩ := spells.append
  obtain ⟨dot, us₂, rfl, hdot, ahead, _, rest⟩ := rest.cons
  obtain ⟨u, rfl, hu, behind⟩ := rest.singleton
  obtain ⟨n, fuel, hf, hn, hrun⟩ := h d s us₁ _ first
  have short := first.length_lt
  obtain ⟨fuel, rfl⟩ := Nat.exists_eq_succ_of_ne_zero (n := fuel) (by omega)
  simp only [Token.mark, Prod.mk.injEq] at hu hdot
  obtain ⟨hkind, rfl⟩ := hu
  refine ⟨.access n u.text, fuel, ?_, by rw [Node.unplaced, hn, Node.unplaced], ?_⟩
  · simp only [length_append, length_cons, length_nil]
    omega
  · rw [hrun, trailers, bind_run (accept_run ahead hdot.1), if_pos rfl,
      bind_run (consume_run behind hkind)]
    simp [Nat.add_comm, Nat.add_left_comm]

theorem ChainsOn.call {callee : Node} {arguments : List Node} (h : ChainsOn callee)
    (reads : ∀ a ∈ arguments, ReadsOn a) (formulas : ∀ a ∈ arguments, a.Formula) :
    ChainsOn (.call callee arguments) := by
  intro d s us ts spells
  rw [Node.marks] at spells
  obtain ⟨us₁, us₂, rfl, first, rest⟩ := spells.append
  obtain ⟨opening, us₂, rfl, hopen, ahead, hd, rest⟩ := rest.cons
  obtain ⟨us₂, us₃, rfl, items, last⟩ := rest.append
  obtain ⟨closing, rfl, hclose, behind⟩ := last.singleton
  obtain ⟨d, rfl⟩ := Nat.exists_eq_succ_of_ne_zero (n := d) (by omega)
  obtain ⟨n, fuel, hf, hn, hrun⟩ := h (d + 1) s us₁ _ first
  have short := first.length_lt
  obtain ⟨fuel, rfl⟩ := Nat.exists_eq_succ_of_ne_zero (n := fuel) (by omega)
  have hopening : opening.kind = .leftParen := congrArg Prod.fst hopen
  have hclosing : closing.kind = .rightParen := congrArg Prod.fst hclose
  have hdot : opening.kind ≠ .dot := by simp [hopening]
  obtain ⟨u, vs, ns, next, hns, hruns⟩ :=
    items_run reads formulas (items.deepen (by omega : _ ≤ d)) (Or.inl hclosing)
  rw [hclosing] at hruns
  refine ⟨.call n ns, fuel, ?_, by rw [Node.unplaced, hn, hns, Node.unplaced], ?_⟩
  · simp only [length_append, length_cons, length_nil]
    omega
  · rw [hrun, trailers, bind_run (accept_run_ne ahead hdot), if_neg Bool.false_ne_true,
      bind_run (accept_run ahead hopening), if_pos rfl, bind_run (sees_run next _)]
    refine (hruns _).trans ?_
    beta_reduce
    rw [bind_run (discard_run (consume_run behind hclosing))]
    simp [Nat.add_comm, Nat.add_left_comm]

theorem readsOn_list {elements : List Node} (reads : ∀ e ∈ elements, ReadsOn e)
    (formulas : ∀ e ∈ elements, e.Formula) : ReadsOn (.list elements) := by
  apply ReadsOn.of_primary
  intro d s us ts t spells _ _
  rw [Node.marks] at spells
  obtain ⟨opening, us, rfl, hopen, ahead, hd, rest⟩ := spells.cons
  obtain ⟨us₁, us₂, rfl, items, last⟩ := rest.append
  obtain ⟨closing, rfl, hclose, behind⟩ := last.singleton
  obtain ⟨d, rfl⟩ := Nat.exists_eq_succ_of_ne_zero hd.ne'
  have hopening : opening.kind = .leftBracket := congrArg Prod.fst hopen
  have hclosing : closing.kind = .rightBracket := congrArg Prod.fst hclose
  obtain ⟨u, vs, ns, next, hns, hruns⟩ := items_run reads formulas items (Or.inr hclosing)
  rw [hclosing] at hruns
  refine ⟨.list ns, by rw [Node.unplaced, hns, Node.unplaced], ?_⟩
  rw [primary, bind_run (current_run ahead)]
  simp only [hopening]
  rw [bind_run (advance_run s), bind_run (sees_run next _)]
  refine (hruns _).trans ?_
  rw [bind_run (discard_run (consume_run behind hclosing))]
  simp [pure, StateT.pure, Except.pure, Nat.add_comm, Nat.add_left_comm]

theorem readsOn_literal (hm : (Node.literal value).marks = [m])
    (h : ∀ (g : Grammar) (s : State) (u : Token) (us : List Token), s.ahead = u :: us → u.mark = m →
      primary g s = .ok (.literal value, s.skip 1)) : ReadsOn (.literal value) := by
  apply ReadsOn.of_primary
  intro d s us ts t spells _ _
  rw [hm] at spells
  obtain ⟨u, rfl, hu, ahead⟩ := spells.singleton
  exact ⟨_, rfl, h _ s u _ ahead hu⟩

theorem primary_number (ahead : s.ahead = u :: us) (n : Nat) (hu : u.mark = (.number, n.repr)) :
    primary g s = .ok (.literal (.int n), s.skip 1) := by
  simp only [Token.mark, Prod.mk.injEq] at hu
  rw [primary, bind_run (current_run ahead)]
  simp only [hu.1]
  rw [bind_run (advance_run s), hu.2, numeralValue_repr]
  rfl

theorem primary_string (ahead : s.ahead = u :: us)
    (hu : u.kind = .string) : primary g s = .ok (.literal (.str u.text), s.skip 1) := by
  rw [primary, bind_run (current_run ahead)]
  simp only [hu]
  rw [bind_run (advance_run s)]
  rfl

theorem primary_word (ahead : s.ahead = u :: us) (hu : (u.kind, value) ∈
      [(TokenKind.trueWord, Data.bool true), (.falseWord, .bool false), (.nullWord, .null)]) :
    primary g s = .ok (.literal value, s.skip 1) := by
  simp only [mem_cons, Prod.mk.injEq, not_mem_nil, or_false] at hu
  rw [primary, bind_run (current_run ahead)]
  rcases hu with ⟨hkind, rfl⟩ | ⟨hkind, rfl⟩ | ⟨hkind, rfl⟩
  all_goals
    simp only [hkind]
    rw [bind_run (advance_run s)]
    rfl

/-! ### Operators -/

/-- One turn of the loop: an operator that binds tightly enough, and its right side. -/
theorem operations_next {s' : State}
    (ahead : s.ahead = o :: ts) (operator : isOperator o.kind = true)
    (strong : least ≤ precedence o.kind)
    (h : g.expression (precedence o.kind + 1) (s.skip 1) = .ok (right, s')) :
    operations g least (fuel + 1) left s =
      operations g least fuel (.expression left (some o) (some right)) s' := by
  rw [operations, bind_run (current_run ahead)]
  simp only [if_neg (Int.not_lt.mpr strong), if_pos operator]
  rw [bind_run (advance_run s), bind_run h]

theorem ReadsOn.binary (hl : ReadsOn left) (hr : ReadsOn right)
    (fl : left.Formula) (fr : right.Formula) (operator : isOperator o.kind = true) :
    ReadsOn (.expression left (some o) (some right)) := by
  intro d s us ts t least spells hleast low hdot hparen
  rw [Node.marks] at spells
  simp only [Node.level] at hleast low
  obtain ⟨us₁, us₂, rfl, first, rest⟩ := spells.append
  obtain ⟨u, us₂, rfl, hu, ahead, hd, second⟩ := rest.cons
  obtain ⟨d, rfl⟩ := Nat.exists_eq_succ_of_ne_zero (n := d) (by omega)
  have hkind : u.kind = o.kind := congrArg Prod.fst hu
  rw [← hkind] at operator hleast low first second
  obtain ⟨_, _, udot, uparen⟩ := isOperator_bounds operator
  -- the left operand is read by this expression, which goes on in its loop with it
  have strongLeft : decide (left.level < precedence u.kind) = false →
      least ≤ left.level ∧ precedence u.kind ≤ left.level := by
    intro strong
    have : precedence u.kind ≤ left.level := by simpa using strong
    exact ⟨hleast.trans this, this⟩
  obtain ⟨n, fuel, hf, hn, hrun⟩ := hl.enclosed fl _ least first strongLeft udot uparen
  have short := first.length_lt
  obtain ⟨fuel, rfl⟩ := Nat.exists_eq_succ_of_ne_zero (n := fuel) (by omega)
  -- the right operand is read by an expression of its own, one above the operator
  have strongRight : decide (right.level ≤ precedence u.kind) = false →
      precedence u.kind + 1 ≤ right.level ∧ precedence t.kind ≤ right.level := by
    intro strong
    have : precedence u.kind < right.level := by simpa using strong
    exact ⟨this, low.trans this.le⟩
  have second := second.deepen (by omega : _ ≤ d)
  have goesOn := hr.enclosed fr _ (precedence u.kind + 1) second strongRight hdot hparen
  obtain ⟨n', hn', hrun'⟩ :=
    goesOn.stops (State.ahead_skip second.ahead) second.length_lt (Int.lt_add_one_of_le low)
  refine ⟨.expression n (some u) (some n'), fuel, ?_, ?_, ?_⟩
  · simp only [length_append, length_cons]
    omega
  · simp only [Node.unplaced, hn, hn', Token.unplaced_eq_of_mark hu]
  · rw [hrun, operations_next ahead operator hleast ((grammar_expression d _ _).trans hrun')]
    simp [Nat.add_comm, Nat.add_left_comm]

/-- By induction on the formula; chains have to carry more, since a member or a call may follow. -/
theorem readsOn_of_formula (h : node.Formula) :
    ReadsOn node ∧ (node.isChain = true → ChainsOn node) := by
  induction h with
  | number n =>
    exact ⟨readsOn_literal rfl fun _ _ _ _ ahead hu => primary_number ahead n hu,
      fun chain => by cases chain⟩
  | string value =>
    refine ⟨readsOn_literal rfl fun _ _ u _ ahead hu => ?_, fun chain => by cases chain⟩
    simp only [Token.mark, Prod.mk.injEq] at hu
    rw [primary_string ahead hu.1, hu.2]
  | bool b =>
    refine ⟨?_, fun chain => by cases chain⟩
    cases b
    · refine readsOn_literal rfl fun _ _ u _ ahead hu => primary_word ahead ?_
      simp [show u.kind = _ from congrArg Prod.fst hu]
    · refine readsOn_literal rfl fun _ _ u _ ahead hu => primary_word ahead ?_
      simp [show u.kind = _ from congrArg Prod.fst hu]
  | null =>
    refine ⟨?_, fun chain => by cases chain⟩
    refine readsOn_literal rfl fun _ _ u _ ahead hu => primary_word ahead ?_
    simp [show u.kind = _ from congrArg Prod.fst hu]
  | identifier name =>
    exact ⟨(chainsOn_identifier name).readsOn, fun _ => chainsOn_identifier name⟩
  | access _ chain mem ih =>
    have := (ih.2 chain).access mem
    exact ⟨this.readsOn, fun _ => this⟩
  | call _ chain formulas ih reads =>
    have := (ih.2 chain).call (fun a mem => (reads a mem).1) formulas
    exact ⟨this.readsOn, fun _ => this⟩
  | list formulas reads =>
    exact ⟨readsOn_list (fun e mem => (reads e mem).1) formulas, fun chain => by cases chain⟩
  | binary fl operator fr hl hr =>
    exact ⟨hl.1.binary hr.1 fl fr operator, fun chain => by cases chain⟩

theorem expression_whole (formula : node.Formula)
    {last : Token} (spells : Spells s d node.marks us [last]) (ended : last.kind = .endOfFile) :
    ∃ n, n.unplaced = node.unplaced ∧ expression (grammar d) 0 s = .ok (n, s.skip us.length) :=
  (readsOn_of_formula formula).1.stops 0 spells formula.level_pos.le (by rw [ended]; decide)
    (by simp [ended]) (by simp [ended])

theorem spells_start {marks : List (TokenKind × String)} {tokens : List Token} (last : Token)
    (marked : tokens.map Token.mark = marks) :
    Spells { tokens := (tokens ++ [last]).toArray } (depthFor (tokens ++ [last])) marks tokens
      [last] := by
  refine ⟨rfl, marked, ?_⟩
  simp only [depthFor, length_append, length_cons, length_nil]
  omega

/-- Parsing inverts writing: the tokens of a formula are read to their end, and as that formula. -/
theorem expression_marks {node : Node} (formula : node.Formula) {tokens : List Token}
    (marked : tokens.map Token.mark = node.marks) {last : Token} (ended : last.kind = .endOfFile) :
    ∃ read, read.unplaced = node.unplaced ∧
      (expression (grammar (depthFor (tokens ++ [last]))) 0).run
      { tokens := (tokens ++ [last]).toArray } =
        .ok (read, { tokens := (tokens ++ [last]).toArray, pos := tokens.length }) := by
  obtain ⟨read, same, hrun⟩ := expression_whole formula (spells_start last marked) ended
  simp only [State.skip, Nat.zero_add] at hrun
  exact ⟨read, same, hrun⟩

/-- A difference on the right of a difference, with a call in it. -/
theorem expression_marks_right_nested : ∃ node : Node, ∃ tokens : List Token, ∃ last : Token,
      node.Formula ∧ tokens.map Token.mark = node.marks ∧ last.kind = .endOfFile ∧
      tokens.map Token.text = ["a", "-", "(", "b", "-", "f", "(", "1", ",", "x", ")", ")"] ∧
      ∃ read, read.unplaced = node.unplaced ∧
        (expression (grammar (depthFor (tokens ++ [last]))) 0).run
        { tokens := (tokens ++ [last]).toArray } =
          .ok (read, { tokens := (tokens ++ [last]).toArray, pos := tokens.length }) := by
  let minus : Token := ⟨.minus, "-", 1, 1⟩
  let node : Node := .expression (.identifier "a") (some minus) (some (.expression (.identifier "b")
    (some minus) (some (.call (.identifier "f") [.literal (.int 1), .identifier "x"]))))
  have formula : node.Formula := by
    refine .binary (.identifier "a") rfl
      (.binary (.identifier "b") rfl (.call (.identifier "f") rfl ?_))
    intro a mem
    simp only [mem_cons, not_mem_nil, or_false] at mem
    rcases mem with rfl | rfl
    · exact .number 1
    · exact .identifier "x"
  let tokens : List Token := node.marks.map fun m => ⟨m.1, m.2, 3, 7⟩
  exact ⟨node, tokens, ⟨.endOfFile, "", 1, 1⟩, formula, rfl, rfl, rfl,
    expression_marks formula rfl rfl⟩

end Stratus.Parser
