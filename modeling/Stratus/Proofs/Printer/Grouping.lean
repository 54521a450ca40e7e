import Stratus.Proofs.Parser.Arithmetic
import Stratus.Proofs.Parser.Climbing
import Stratus.Source.Printer

/-!
The grouping of printed trees. An arithmetic tree is printed as a row, without parentheses, so it
comes back just when it needs none.
-/
namespace Stratus

open Lexer

namespace Node

/-- No operand would have to be enclosed. -/
def ungrouped : Node → Bool
  | expression left (some t) (some right) =>
    Parser.precedence t.kind ≤ left.level && Parser.precedence t.kind < right.level &&
      ungrouped left && ungrouped right
  | _ => true

/-- The operands and operators of a tree in a row. -/
def row : Node → List (TokenKind × String)
  | expression left (some t) (some right) => row left ++ t.mark :: row right
  | node => node.marks

/-- An operator and an operand behind a tree, under all operators that bind weaker. -/
def attach (t : Token) (leaf : Node) : Node → Node
  | expression left (some o) (some right) =>
    if Parser.precedence t.kind ≤ Parser.precedence o.kind then
      expression (expression left (some o) (some right)) (some t) (some leaf)
    else expression left (some o) (some (attach t leaf right))
  | node => expression node (some t) (some leaf)

/-- An operator and the operands and operators of a second tree behind a tree. -/
def graft (tree : Node) (t : Token) : Node → Node
  | expression left (some o) (some right) => graft (graft tree t left) o right
  | leaf => attach t leaf tree

/-- A tree grouped by precedence alone. -/
def regrouped : Node → Node
  | expression left (some t) (some right) => graft (regrouped left) t right
  | leaf => leaf

variable {t : Token} {node tree : Node}

theorem ungrouped_iff {left right : Node} : (expression left (some t) (some right)).ungrouped = true ↔
      Parser.precedence t.kind ≤ left.level ∧ Parser.precedence t.kind < right.level ∧
        left.ungrouped = true ∧ right.ungrouped = true := by
  simp only [ungrouped, Bool.and_eq_true, decide_eq_true_eq, and_assoc]

theorem Spelled.formula (h : node.Spelled) : node.Formula := by
  induction h with
  | identifier => exact .identifier _
  | number n => exact .number n
  | binary _ _ operator _ hl hr => exact .binary hl operator hr

theorem level_unplaced (h : node.Spelled) : node.unplaced.level = node.level := by
  cases h <;> rfl

theorem ungrouped_unplaced (h : node.Spelled) : node.unplaced.ungrouped = node.ungrouped := by
  induction h with
  | identifier => rfl
  | number => rfl
  | binary hl _ _ hr ihl ihr =>
    simp only [unplaced, ungrouped, level_unplaced hl, level_unplaced hr, ihl, ihr, Token.unplaced]

theorem marks_eq_row (h : node.Spelled) (hu : node.ungrouped = true) : node.marks = node.row := by
  induction h with
  | identifier => rfl
  | number => rfl
  | @binary left right t _ _ _ _ ihl ihr =>
    obtain ⟨hl, hr, ul, ur⟩ := ungrouped_iff.mp hu
    have first : ¬ left.level < Parser.precedence t.kind := by omega
    have second : ¬ right.level ≤ Parser.precedence t.kind := by omega
    simp only [marks, row, enclosed, first, second, decide_false, Bool.false_eq_true,
      if_false, ihl ul, ihr ur]

theorem level_attach (h : tree.Spelled) (operator : Parser.isOperator t.kind = true)
    (leaf : Node) : (attach t leaf tree).level = min tree.level (Parser.precedence t.kind) := by
  obtain ⟨_, below, _⟩ := Parser.isOperator_bounds operator
  cases h with
  | identifier => exact (min_eq_right below.le).symm
  | number => exact (min_eq_right below.le).symm
  | binary =>
    rw [attach]
    split
    · next weak => exact (min_eq_right weak).symm
    · next strong => exact (min_eq_left (not_le.mp strong).le).symm

theorem row_attach (h : tree.Spelled) (t : Token) (leaf : Node) :
    (attach t leaf tree).row = tree.row ++ t.mark :: leaf.row := by
  induction h with
  | identifier => rfl
  | number => rfl
  | binary _ _ _ _ _ ih =>
    rw [attach]
    split
    · rfl
    · simp only [row, ih, List.append_assoc, List.cons_append]

theorem ungrouped_attach (h : tree.Spelled) (hu : tree.ungrouped = true)
    (operator : Parser.isOperator t.kind = true) {leaf : Node} (hl : leaf.level = 7)
    (ul : leaf.ungrouped = true) : (attach t leaf tree).ungrouped = true := by
  obtain ⟨_, below, _⟩ := Parser.isOperator_bounds operator
  induction h with
  | identifier => exact ungrouped_iff.mpr ⟨below.le, hl ▸ below, rfl, ul⟩
  | number => exact ungrouped_iff.mpr ⟨below.le, hl ▸ below, rfl, ul⟩
  | @binary left right o _ _ _ spelled _ ih =>
    rw [attach]
    split
    · next weak => exact ungrouped_iff.mpr ⟨weak, hl ▸ below, hu, ul⟩
    · next strong =>
        obtain ⟨first, second, hleft, hright⟩ := ungrouped_iff.mp hu
        refine ungrouped_iff.mpr ⟨first, ?_, hleft, ih hright⟩
        rw [level_attach spelled operator]
        exact lt_min second (not_le.mp strong)

theorem spelled_attach (h : tree.Spelled)
    (mem : (t.text, t.kind) ∈ TokenKind.operators) (operator : Parser.isOperator t.kind = true)
    {leaf : Node} (hl : leaf.Spelled) : (attach t leaf tree).Spelled := by
  induction h with
  | identifier h => exact .binary (.identifier h) mem operator hl
  | number n => exact .binary (.number n) mem operator hl
  | binary hleft mo oo hright _ ih =>
    rw [attach]
    split
    · exact .binary (.binary hleft mo oo hright) mem operator hl
    · exact .binary hleft mo oo ih

theorem graft_spec (h : tree.Spelled) (hu : tree.ungrouped = true)
    (mem : (t.text, t.kind) ∈ TokenKind.operators) (operator : Parser.isOperator t.kind = true)
    (hn : node.Spelled) :
    (graft tree t node).Spelled ∧ (graft tree t node).ungrouped = true ∧
      (graft tree t node).row = tree.row ++ t.mark :: node.row := by
  induction hn generalizing tree t with
  | identifier hname =>
    exact ⟨spelled_attach h mem operator (.identifier hname),
      ungrouped_attach h hu operator rfl rfl, row_attach h t _⟩
  | number n =>
    exact ⟨spelled_attach h mem operator (.number n),
      ungrouped_attach h hu operator rfl rfl, row_attach h t _⟩
  | @binary left right o _ mo oo _ ihl ihr =>
    obtain ⟨h₁, hu₁, hrow₁⟩ := ihl h hu mem operator
    obtain ⟨h₂, hu₂, hrow₂⟩ := ihr h₁ hu₁ mo oo
    refine ⟨h₂, hu₂, ?_⟩
    rw [graft, hrow₂, hrow₁]
    simp only [row, List.append_assoc, List.cons_append]

theorem regrouped_spec (h : node.Spelled) :
    node.regrouped.Spelled ∧ node.regrouped.ungrouped = true ∧ node.regrouped.row = node.row := by
  induction h with
  | identifier hname => exact ⟨.identifier hname, rfl, rfl⟩
  | number n => exact ⟨.number n, rfl, rfl⟩
  | binary _ mem operator hr ihl _ =>
    obtain ⟨hl, hu, hrow⟩ := ihl
    obtain ⟨spelled, ungrouped, row⟩ := graft_spec hl hu mem operator hr
    exact ⟨spelled, ungrouped, by rw [regrouped, row, hrow, Node.row]⟩

end Node

namespace Printer

theorem bind_print {α β : Type} {p : Print α} {f : α → Print β} {ps ps' : State} {a : α}
    (h : p ps = (.ok a, ps')) : (p >>= f) ps = f a ps' := by
  simp [bind, ExceptT.bind, ExceptT.bindCont, ExceptT.mk, StateT.bind, h]

/-- A tree prints its row with single spaces and leaves the state as it is. -/
theorem within_row (r : Registry) {node : Node} (h : node.Spelled) {depth : Nat}
    (deep : node.height < depth) (ps : State) :
    ∃ signs : List Lexer.Sign, signs ≠ [] ∧ signs.map Lexer.Sign.mark = node.row ∧
      within r depth node ps = (.ok (some (written signs)), ps) := by
  induction h generalizing depth with
  | @identifier name hname =>
    obtain ⟨depth, rfl⟩ := Nat.exists_eq_succ_of_ne_zero (Nat.ne_zero_of_lt deep)
    refine ⟨[.identifier name hname], List.cons_ne_nil _ _, rfl, ?_⟩
    rw [written_singleton]
    rfl
  | number n =>
    obtain ⟨depth, rfl⟩ := Nat.exists_eq_succ_of_ne_zero (Nat.ne_zero_of_lt deep)
    have hn := isNumeral_repr n
    refine ⟨[.number n.repr hn], List.cons_ne_nil _ _, rfl, ?_⟩
    rw [written_singleton]
    rfl
  | @binary left right t hl mem operator hr ihl ihr =>
    obtain ⟨depth, rfl⟩ := Nat.exists_eq_succ_of_ne_zero (Nat.ne_zero_of_lt deep)
    have height : max left.height right.height < depth := Nat.lt_of_succ_lt_succ deep
    obtain ⟨a, ha, hrow, hrun⟩ := ihl (lt_of_le_of_lt (le_max_left _ _) height)
    obtain ⟨b, hb, hrow', hrun'⟩ := ihr (lt_of_le_of_lt (le_max_right _ _) height)
    refine ⟨a ++ .operator t.text t.kind mem :: b, ?_, ?_, ?_⟩
    · simp
    · simp [Node.row, hrow, hrow', Lexer.Sign.mark, Token.mark]
    · have joined : written (a ++ .operator t.text t.kind mem :: b) =
          written a ++ " " ++ (t.text ++ " " ++ written b) := by
        rw [written_append ha (List.cons_ne_nil _ _), ← List.singleton_append,
          written_append (List.cons_ne_nil _ _) hb, written_singleton]
        rfl
      rw [within, step, expression, bind_print hrun, bind_print hrun', joined]
      simp only [inline, Option.getD_some, String.append_assoc]
      rfl

theorem run_written {signs : List Lexer.Sign} {node : Node} (formula : node.Formula)
    (h : signs.map Lexer.Sign.mark = node.marks) : ∃ again st, again.unplaced = node.unplaced ∧
      Parser.run (fun g => Parser.expression g 0) (written signs) = .ok (again, st) := by
  obtain ⟨tokens, scans, hmarks⟩ := scans_written signs .start
  obtain ⟨us, vs, rfl, hus, hvs⟩ := List.map_eq_append_iff.mp hmarks
  obtain ⟨last, rfl, hlast⟩ := List.map_eq_singleton_iff.mp hvs
  have ended : last.kind = .endOfFile := congrArg Prod.fst hlast
  obtain ⟨again, same, hrun⟩ :=
    Parser.expression_whole formula (Parser.spells_start last (hus.trans h)) ended
  have hread : Parser.run (fun g => Parser.expression g 0) (written signs) =
      .ok (again, Parser.State.skip { tokens := (us ++ [last]).toArray } us.length) := by
    rw [Parser.run, tokenize_eq_ok_iff.mpr scans]
    exact hrun
  exact ⟨again, _, same, hread⟩

/-- A printed tree is read back as it was just when it needs no parentheses. -/
theorem visit_reads_back_iff {source : String} {tokens : List Token} {d : Nat} {least : Int}
    {s s' : Parser.State} {node : Node} (scanned : tokenize source = .ok tokens)
    (held : s.tokens = tokens.toArray)
    (parsed : (Parser.expression (Parser.grammar d) least).run s = .ok (node, s'))
    (arithmetic : node.Arithmetic) (r : Registry) (ps : State) :
    ∃ text again st, (visit r node).run.run ps = (.ok (some text), ps) ∧
      Parser.run (fun g => Parser.expression g 0) text = .ok (again, st) ∧
      (again.unplaced = node.unplaced ↔ node.ungrouped = true) := by
  have spelled : ∀ t ∈ s.tokens, t.WellSpelled := by
    intro t mem
    rw [held, List.mem_toArray] at mem
    exact (tokenize_eq_ok_iff.mp scanned).wellSpelled mem
  obtain ⟨he, ho⟩ := Parser.grammar_sound d
  obtain ⟨hn, _⟩ := Parser.expression_sound he ho least parsed spelled arithmetic
  obtain ⟨signs, _, hrow, hprint⟩ :=
    within_row r hn (Nat.lt_add_of_pos_left (by decide : 0 < maxDepth)) ps
  obtain ⟨hregrouped, hungrouped, hsame⟩ := Node.regrouped_spec hn
  have marks : signs.map Lexer.Sign.mark = node.regrouped.marks := by
    rw [Node.marks_eq_row hregrouped hungrouped, hsame, hrow]
  obtain ⟨again, st, hagain, hread⟩ := run_written hregrouped.formula marks
  refine ⟨_, again, st, hprint, hread, ?_⟩
  -- the tree read again is the regrouped one, and also the first one if that has the same marks
  constructor
  · intro same
    rw [← Node.ungrouped_unplaced hn, ← same, hagain, Node.ungrouped_unplaced hregrouped, hungrouped]
  · intro ungrouped
    have marks' : signs.map Lexer.Sign.mark = node.marks := by
      rw [Node.marks_eq_row hn ungrouped, hrow]
    obtain ⟨again', st', hagain', hread'⟩ := run_written hn.formula marks'
    rw [hread] at hread'
    cases hread'
    exact hagain'

/-- A sum with a product in it, of which nothing is lost. -/
theorem visit_reads_back_sum :
    ∃ tokens node s',
      tokenize "a + 2 * b" = .ok tokens ∧
      (Parser.expression (Parser.grammar 20) 0).run { tokens := tokens.toArray } = .ok (node, s') ∧
      node.Arithmetic ∧ node.ungrouped = true ∧
      ∃ text again st, (visit [] node).run.run {} = (.ok (some text), {}) ∧
        Parser.run (fun g => Parser.expression g 0) text = .ok (again, st) ∧
        (again.unplaced = node.unplaced ↔ node.ungrouped = true) := by
  have scanned : tokenize "a + 2 * b" = .ok [
      ⟨.identifier, "a", 1, 1⟩, ⟨.plus, "+", 1, 3⟩, ⟨.number, "2", 1, 5⟩, ⟨.multiply, "*", 1, 7⟩,
      ⟨.identifier, "b", 1, 9⟩, ⟨.endOfFile, "", 1, 10⟩] := rfl
  obtain ⟨s', parsed⟩ : ∃ s', (Parser.expression (Parser.grammar 20) 0).run { tokens := #[
      ⟨.identifier, "a", 1, 1⟩, ⟨.plus, "+", 1, 3⟩, ⟨.number, "2", 1, 5⟩, ⟨.multiply, "*", 1, 7⟩,
      ⟨.identifier, "b", 1, 9⟩, ⟨.endOfFile, "", 1, 10⟩] } =
      .ok (.expression (.identifier "a") (some ⟨.plus, "+", 1, 3⟩)
        (some (.expression (.literal (.int 2))
        (some ⟨.multiply, "*", 1, 7⟩) (some (.identifier "b")))), s') := by
    cbv
    exact ⟨_, rfl⟩
  have arithmetic := Node.Arithmetic.binary (t := ⟨.plus, "+", 1, 3⟩) (.identifier "a")
    (.binary (t := ⟨.multiply, "*", 1, 7⟩) (.number 2) (.identifier "b"))
  exact ⟨_, _, _, scanned, parsed, arithmetic, rfl,
    visit_reads_back_iff scanned rfl parsed arithmetic [] {}⟩

/-- A product of a sum is printed as a sum, and read again as one. -/
theorem visit_loses_parentheses :
    ∃ node st again st',
      Parser.run (fun g => Parser.expression g 0) "(a + b) * c" = .ok (node, st) ∧ node.Arithmetic ∧
      (visit [] node).run.run {} = (.ok (some "a + b * c"), {}) ∧
      Parser.run (fun g => Parser.expression g 0) "a + b * c" = .ok (again, st') ∧
      again.unplaced ≠ node.unplaced := by
  let tokens : Array Token := #[
    ⟨.leftParen, "(", 1, 1⟩, ⟨.identifier, "a", 1, 2⟩, ⟨.plus, "+", 1, 4⟩, ⟨.identifier, "b", 1, 6⟩,
    ⟨.rightParen, ")", 1, 7⟩, ⟨.multiply, "*", 1, 9⟩, ⟨.identifier, "c", 1, 11⟩,
    ⟨.endOfFile, "", 1, 12⟩]
  let tokens' : Array Token := #[
    ⟨.identifier, "a", 1, 1⟩, ⟨.plus, "+", 1, 3⟩, ⟨.identifier, "b", 1, 5⟩, ⟨.multiply, "*", 1, 7⟩,
    ⟨.identifier, "c", 1, 9⟩, ⟨.endOfFile, "", 1, 10⟩]
  let node : Node := .expression
    (.expression (.identifier "a") (some ⟨.plus, "+", 1, 4⟩) (some (.identifier "b")))
    (some ⟨.multiply, "*", 1, 9⟩) (some (.identifier "c"))
  let again : Node := .expression (.identifier "a") (some ⟨.plus, "+", 1, 3⟩)
    (some (.expression (.identifier "b") (some ⟨.multiply, "*", 1, 7⟩) (some (.identifier "c"))))
  refine ⟨node, { tokens := tokens, pos := 7 }, again,
    { tokens := tokens', pos := 5 }, by cbv, ?_, by cbv, by cbv, ?_⟩
  · exact .binary (.binary (.identifier "a") (.identifier "b")) (.identifier "c")
  · intro same
    have : again.unplaced.ungrouped = node.unplaced.ungrouped := congrArg Node.ungrouped same
    revert this
    decide

end Printer

end Stratus
