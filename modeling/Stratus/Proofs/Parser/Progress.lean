import Stratus.Proofs.Parser.Ending
import Stratus.Proofs.Typing.Check

/-!
Progress of the parser. Every nonterminal that returns has read a token and none behind the end, so
the tokens that are left bound every repetition and the depth of nesting.
-/
namespace Stratus.Parser

variable {depth : Nat} {s : State} {L : State → Prop} {t : Token}

section Types

variable {o : State} {n : Nat}

theorem isTypeWord_more (h : isTypeWord t = true) : t.kind ≠ .endOfFile := by
  intro ended
  simp [isTypeWord, ended] at h

theorem typeName_reaches : Reaches (Later o n) (Later o 1) typeName := by
  refine .current fun t => ?_
  split
  · next word => exact .advance (isTypeWord_more word) .pure
  · exact .throw ⟨nofun, nofun⟩

theorem typeAnnotation_reaches : Reaches (Later o n) (Later o 1) typeAnnotation := by
  have mem (s : State) (here : Behind o 1 s) :
      Ends (do if ← accept .pipe then some <$> typeName else return none) s fun a s' =>
        Later s a.isSome.toNat s' ∧ (a = none → True) := by
    refine (accept_ends (by decide) (Later.refl here.placed)).bind fun b s₁ h₁ => ?_
    cases b with
    | false => exact ⟨h₁, fun _ => trivial⟩
    | true => exact .map ((typeName_reaches s₁ h₁).mono fun a s' h' => ⟨h', nofun⟩)
  refine typeName_reaches.bind fun name => .bind (M := Later o 1) ?_ fun nullable s here => ?_
  · exact fun s here => (accept_ends (by decide) here).mono fun _ _ h' =>
      h'.weaken (Nat.le_add_right 1 _)
  · refine .bounded ((repeated_ends mem here.toBehind (enough s)).bind fun names s' h' => ?_)
    split <;> exact here.trans h'.1

theorem parameter_from : From o n parameter :=
  .of_moves fun _ _ => .consume (by decide) fun name =>
    .skip (by decide) (typeAnnotation_reaches.bind fun type => .pure)

theorem parameterList_reaches : Reaches (Later o n) (Later o n) parameterList := by
  refine .sees fun closed => ?_
  split
  · exact .pure
  · exact .separated parameter_from

end Types

/-- The nonterminals, once a token has been read. -/
structure Grammar.Inner (g : Grammar) (o : State) : Prop where
  expression (least : Int) : From o 1 (g.expression least)
  block : From o 1 g.block
  object : From o 1 g.object
  statement : From o 1 g.statement
  keyValueOrStatement : From o 1 g.keyValueOrStatement

section Expressions

variable {o : State} {g : Grammar} {fuel : Nat}

theorem listed_reaches {α : Type} (he : From o 1 (g.expression 0)) {close : TokenKind}
    {next : List Node → Parse α} (hn : ∀ nodes, Reaches (Later o 1) L (next nodes)) :
    Reaches (Later o 1) L (sees close >>= fun closed => if closed = true then pure [] >>= next
      else separated .comma (g.expression 0) >>= next) :=
  .sees fun _ => .branch .pure (.separated he) hn

theorem trailers_reaches (he : From o 1 (g.expression 0)) {node : Node} (enough : Enough o fuel) :
    Reaches (Later o 0) (Later o 0) (trailers g fuel node) := by
  induction fuel generalizing o node with
  | zero => exact fun s here => absurd enough here.exhausted
  | succ fuel ih =>
    have again {node : Node} : Reaches (Later o 1) (Later o 0) (trailers g fuel node) :=
      .weaken (.rebase fun s here => ih (he.behind here.toBehind) (enough.next here))
    refine .accept (by decide) (.consume (by decide) fun name => again) (.accept (by decide) ?_ .pure)
    exact listed_reaches he fun arguments => .skip (by decide) again

theorem numeralValue_raises (text : String) : Outcome.Raises Fault.Orderly (numeralValue text) := by
  unfold numeralValue
  split
  · split
    · exact .ok _
    · exact .error ⟨nofun, nofun⟩
  · split
    · exact .ok _
    · exact .error ⟨nofun, nofun⟩

theorem primary_moves (ho : From o 0 g.object) (he : From o 1 (g.expression 0)) :
    Moves o (primary g) := by
  refine .current fun t => ?_
  have passed {kind : TokenKind} (hk : t.kind = kind) (more : kind ≠ .endOfFile) : t.kind ≠
    .endOfFile := hk ▸ more
  split
  · next hk =>
    exact .advance (passed hk (by decide)) (.lift (numeralValue_raises t.text) fun _ => .pure)
  · next hk => exact .advance (passed hk (by decide)) .pure
  · next hk =>
      refine .advance (passed hk (by decide)) (listed_reaches he fun elements => ?_)
      exact .skip (by decide) .pure
  · exact ho.reaches.facing
  · next hk =>
      refine .advance (passed hk (by decide)) (.bounded fun s fuel here enough => ?_)
      exact trailers_reaches (he.behind here.toBehind) enough
  · next hk =>
      exact .advance (passed hk (by decide)) (he.reaches.bind fun inner => .skip (by decide) .pure)
  · next hk => exact .advance (passed hk (by decide)) .pure
  · next hk => exact .advance (passed hk (by decide)) .pure
  · next hk => exact .advance (passed hk (by decide)) .pure
  · exact .throw ⟨nofun, nofun⟩

theorem isOperator_more {kind : TokenKind} (h : isOperator kind = true) : kind ≠ .endOfFile := by
  rintro rfl
  cases h

theorem operations_reaches (he : ∀ least, From o 0 (g.expression least)) (hb : From o 0 g.block)
    {least : Int} {left : Node} (enough : Enough o fuel) :
    Reaches (Later o 0) (Later o 0) (operations g least fuel left) := by
  induction fuel generalizing o left with
  | zero => exact fun s here => absurd enough here.exhausted
  | succ fuel ih =>
    have again {left : Node} : Reaches (Later o 1) (Later o 0) (operations g least fuel left) := by
      refine .weaken (.rebase fun s here => ?_)
      have there := here.toBehind.weaken (Nat.zero_le 1)
      exact ih (fun _ => (he _).behind there) (hb.behind there) (enough.next here)
    refine .current fun t => ?_
    dsimp only
    split
    · exact .facing .pure
    split
    · next operator =>
        refine .advance (isOperator_more operator) (Reaches.bind ?_ fun right => again)
        exact fun s here => (he _).reaches s (here.weaken (Nat.zero_le 1))
    split
    · exact (hb.reaches.bind fun body => again).facing
    · exact .facing .pure

theorem expression_moves (hg : g.Inner o) (ho : From o 0 g.object) (least : Int) :
    Moves o (expression g least) := by
  refine (primary_moves ho (hg.expression 0)).bind fun left => .bounded fun s fuel here enough => ?_
  exact operations_reaches (fun _ => (hg.expression _).behind here.toBehind)
    (hg.block.behind here.toBehind) enough

theorem expressionOrObject_reaches (hg : g.Inner o) :
    Reaches (Later o 1) (Later o 1) (expressionOrObject g) := by
  refine .sees fun opened => ?_
  split
  · exact hg.object.reaches
  · exact (hg.expression 0).reaches

end Expressions

section Blocks

variable {o : State} {g : Grammar} (hg : g.Inner o)

include hg

theorem block_moves : Moves o (block g) := by
  have statement : From o 1
      (do if isTypeWord (← current) then g.keyValueOrStatement else g.statement : Parse Node) := by
    intro s here
    refine (current_ends here.placed).bind ?_
    rintro t s' ⟨rfl, -⟩
    split
    · exact hg.keyValueOrStatement _ here
    · exact hg.statement _ here
  refine .skip (by decide) fun s₁ h₁ => ?_
  -- The statements are counted from inside the block, one level below.
  have start : Later { s₁ with level := s₁.level + 1 } 0 { s₁ with level := s₁.level + 1 } :=
    .refl ⟨h₁.placed.closed, h₁.placed.inside⟩
  have inside : Behind o 1 { s₁ with level := s₁.level + 1 } := ⟨h₁.tokens, h₁.read, start.placed⟩
  refine .modify ((untilToken_ends statement .rightBrace inside).bind fun statements s₂ h₂ => ?_)
  refine ((Reaches.word (by decide)).map s₂ h₂.1).bind fun _ s₃ h₃ => ?_
  have read : s₁.pos + 1 ≤ s₃.pos := h₃.read
  have level : s₃.level = s₁.level + 1 := h₃.level
  refine (⟨⟨h₃.tokens.trans h₁.tokens, ?_, h₃.placed.closed, h₃.placed.inside⟩, ?_⟩ :
    Later o 1 { s₃ with level := s₃.level - 1 })
  · have := h₁.read
    dsimp only
    omega
  · rw [← h₁.level]
    dsimp only
    omega

omit hg in
/-- A comma behind an item may be left out. -/
theorem From.loose {item : Parse Node} (hi : From o 1 item) : From o 1 (do
      let mem ← item
      discard <| accept .comma
      return mem : Parse Node) :=
  .of_moves fun _ here => (hi.behind here).reaches.bind fun mem => .skipIf (by decide) .pure

theorem object_moves : Moves o (object g) :=
  .skip (by decide) ((Reaches.untilToken hg.keyValueOrStatement.loose _).bind fun _ =>
    .skip (by decide) .pure)

theorem looseList_moves : Moves o (looseList g) :=
  .skip (by decide) ((Reaches.untilToken (hg.expression 0).loose _).bind fun _ =>
    .skip (by decide) .pure)

omit hg in
theorem label_reaches {α : Type} {next : Option String → Parse α}
    (hn : ∀ label, Reaches (Later o 1) L (next label)) :
    Reaches (Later o 1) L (sees .string >>= fun labelled =>
      if labelled = true then (some <$> Token.text <$> consume .string) >>=
        next else pure none >>= next) :=
  .sees fun _ => .branch (Reaches.word (by decide)).map.map .pure hn

theorem keyValueOrStatement_moves (hs : From o 0 g.statement) : Moves o (keyValueOrStatement g) := by
  refine .current fun key => ?_
  split
  · exact hs.reaches.facing
  next word =>
  have more : key.kind ≠ .endOfFile := by
    intro ended
    simp [isTypeWord, ended] at word
  have value : Reaches (Later o 1) (Later o 1)
      (do return Node.keyValue key.text (← expressionOrObject g)) :=
    (expressionOrObject_reaches hg).bind fun _ => .pure
  refine .advance more (label_reaches fun label =>
    .accept (by decide) (.sees fun named => .seesBehind fun opened => ?_)
    (.accept (by decide) value (.sees fun opened => ?_)))
  · split
    · exact .consume (by decide) fun type => hg.block.reaches.bind fun body => .pure
    · exact value
  · split
    · exact hg.block.reaches.bind fun body => .pure
    · -- The key has been read, so that one token back is still not in front of it.
      intro s here
      have read := here.read
      have inside := here.placed.inside
      have back : Later o 0 { s with pos := s.pos - 1 } :=
        ⟨⟨here.tokens, by dsimp only; omega, here.placed.closed, by dsimp only; omega⟩, here.level⟩
      exact .modify (hs.reaches _ back)

end Blocks

section Statements

variable {o : State} {g : Grammar} (hg : g.Inner o)

include hg

theorem mapsTo_reaches (more : t.kind ≠ .endOfFile) : Reaches (Facing o 0 t) (Later o 1) (mapsTo g) :=
  .current_known (.advance more (.skip (by decide) ((hg.expression 0).reaches.bind fun _ => .pure)))

theorem returnStatement_moves : Moves o (returnStatement g) :=
  .skip (by decide) ((hg.expression 0).reaches.bind fun _ => .pure)

omit hg in
theorem problemsOf_raises (r : Registry) (type values : Data) :
    Outcome.Raises Fault.Orderly (r.problemsOf type values) := by
  intro fault failed
  have check := r.problemsOf_checks type values fault failed
  constructor <;> rintro rfl <;> cases check

omit hg in
theorem register_raises (r : Registry) (t : TypeDef) :
    Outcome.Raises Fault.Orderly (r.register t) := by
  unfold Registry.register
  split
  · split
    · exact .error ⟨nofun, nofun⟩
    · exact .ok _
  · exact .ok _

theorem resource_moves : Moves o (resource g) := by
  refine .skip (by decide) (.consume (by decide) fun kind => .consume (by decide) fun name => ?_)
  refine hg.block.reaches.bind fun body => ?_
  dsimp only
  split
  · exact .get fun _ => .lift (problemsOf_raises _ _ _) fun problems =>
      .refuse ⟨nofun, nofun⟩ fun _ => .pure
  · exact .pure

theorem serviceBlock_moves : Moves o (serviceBlock g) :=
  .skip (by decide) (.consume (by decide) fun name => hg.block.reaches.bind fun body => .pure)

theorem forLoop_moves : Moves o (forLoop g) := by
  refine .skip (by decide) (.current fun t => .refuse ⟨nofun, nofun⟩ fun identifier => ?_)
  have named : t.kind = .identifier := by simpa using identifier
  refine .advance (by simp [named]) (.current fun t' => .refuse ⟨nofun, nofun⟩ fun word => ?_)
  have within : t'.kind = .inWord := by simpa using word
  refine .advance (by simp [within])
    ((hg.expression 0).reaches.bind fun iterable => .current fun _ => ?_)
  exact .refuse ⟨nofun, nofun⟩ fun _ => (hg.block.reaches.bind fun body => .pure).facing

theorem conditional_moves : Moves o (conditional g) := by
  refine .skip (by decide) ((hg.expression 0).reaches.bind fun condition =>
    hg.block.reaches.bind fun yes => ?_)
  exact .accept (by decide) (hg.block.reaches.map.bind fun no => .pure) (.bind .pure fun no => .pure)

theorem switchBranch_from : From o 1 (switchBranch g) := by
  intro s here
  have reads : Moves s (switchBranch g) := by
    refine .accept (by decide) ?_ (.accept (by decide) ?_ (.current fun t => .throw ⟨nofun, nofun⟩))
    · exact ((hg.expression 0).behind here).reaches.bind fun value =>
        (hg.block.behind here).reaches.bind fun body => .pure
    · exact (hg.block.behind here).reaches.bind fun body => .pure
  exact reads s (.refl here.placed)

theorem switch_moves : Moves o (switch g) := by
  refine .skip (by decide) ((hg.expression 0).reaches.bind fun value => .skip (by decide) ?_)
  exact (Reaches.untilToken (switchBranch_from hg) _).bind fun branches => .skip (by decide) .pure

theorem function_moves : Moves o (function g) := by
  refine .skip (by decide) (.consume (by decide) fun name => .skip (by decide) ?_)
  refine parameterList_reaches.bind fun params => .skip (by decide) (.accept (by decide) ?_ ?_)
  · exact typeAnnotation_reaches.map.bind fun result => hg.block.reaches.bind fun body => .pure
  · exact .bind .pure fun result => hg.block.reaches.bind fun body => .pure

omit hg in
theorem typeMember_from (he : From o 1 (g.expression 0)) : From o 1 (typeMember g) := by
  intro s here
  have value : Reaches (Later s 1) (Later s 1) (g.expression 0) := (he.behind here).reaches
  have finish {mem : TypeMember} :
      Reaches (Later s 1) (Later s 1) (do discard <| accept .comma; return mem) :=
    .skipIf (by decide) .pure
  have reads : Moves s (typeMember g) := by
    refine .current fun name => .refuse ⟨nofun, nofun⟩ fun identifier => ?_
    have named : name.kind = .identifier := by simpa using identifier
    refine .advance (by simp [named]) (.skip (by decide) ?_)
    split
    · exact (Reaches.word (by decide)).map.map.bind fun mem => finish
    · refine typeAnnotation_reaches.bind fun type =>
        .accept (by decide) (.accept (by decide) ?_ ?_) finish
      · exact .skip (by decide) (value.bind fun e => .skip (by decide) finish)
      · exact value.bind fun e => finish
  exact reads s (.refl here.placed)

theorem typeDefinition_moves : Moves o (typeDefinition g) := by
  refine .current fun word => .refuse ⟨nofun, nofun⟩ fun typeWord => ?_
  have more : word.kind ≠ .endOfFile := by
    intro ended
    simp [ended] at typeWord
  refine .advance more (.consume (by decide) fun name => .skip (by decide) ?_)
  refine (Reaches.untilToken (typeMember_from (hg.expression 0)) _).bind fun members =>
    .skip (by decide) ?_
  refine .get fun _ => .lift (register_raises _ _) fun registry s here => ?_
  exact (⟨⟨here.tokens, here.read, here.placed.closed, here.placed.inside⟩, here.level⟩ :
    Later o 1 { s with registry })

theorem assignment_moves : Moves o (assignment g) :=
  .consume (by decide) fun name => .skip (by decide) ((hg.expression 0).reaches.bind fun _ => .pure)

omit hg in
theorem expressionStatement_moves (he : From o 0 (g.expression 0)) :
    Moves o (expressionStatement g) :=
  he.reaches.bind fun _ => .pure

theorem namedBlock_moves : Moves o (namedBlock g) :=
  .consume (by decide) fun name => label_reaches fun label =>
    .refuse ⟨nofun, nofun⟩ fun _ => hg.block.reaches.bind fun _ => .pure

theorem statement_moves (he : From o 0 (g.expression 0)) : Moves o (statement g) := by
  refine .current fun t => ?_
  split
  · exact (returnStatement_moves hg).facing
  · exact (resource_moves hg).facing
  · exact (forLoop_moves hg).facing
  · exact (conditional_moves hg).facing
  · exact (switch_moves hg).facing
  · exact (function_moves hg).facing
  · refine .get fun s => ?_
    split
    · exact (typeDefinition_moves hg).facing
    split
    · exact (serviceBlock_moves hg).facing
    split
    · next word =>
        refine .seesBehind fun mapped => ?_
        split
        · exact mapsTo_reaches hg (isTypeWord_more word)
        refine .seesBehind fun assigned => ?_
        split
        · exact (assignment_moves hg).facing
        refine .seesBehind fun opened => ?_
        split
        · exact (namedBlock_moves hg).facing
        · exact (expressionStatement_moves he).facing
    · exact (expressionStatement_moves he).facing

end Statements

def State.left (s : State) : Nat := s.tokens.size - 1 - s.pos

theorem Behind.left_le {o s : State} {n : Nat} (h : Behind o n s) : s.left + n ≤ o.left := by
  have tokens := congrArg Array.size h.tokens
  have read := h.read
  have inside := h.placed.inside
  unfold State.left
  omega

/-- The nonterminals, as far as a depth of nesting allows them: at most four open between two
tokens, in the order from last to first. -/
structure Grammar.Proceeds (g : Grammar) (depth : Nat) : Prop where
  object {o : State} {n : Nat} (deep : 4 * o.left < depth + 4 * n) : From o n g.object
  block {o : State} {n : Nat} (deep : 4 * o.left < depth + 4 * n) : From o n g.block
  expression {o : State} {n : Nat} (deep : 4 * o.left + 1 < depth + 4 * n) (least : Int) :
    From o n (g.expression least)
  statement {o : State} {n : Nat} (deep : 4 * o.left + 2 < depth + 4 * n) : From o n g.statement
  keyValueOrStatement {o : State} {n : Nat} (deep : 4 * o.left + 3 < depth + 4 * n) :
    From o n g.keyValueOrStatement

theorem Grammar.Proceeds.inner {g : Grammar} (hg : g.Proceeds depth)
    (deep : 4 * s.left < depth + 1) : g.Inner s where
  expression := hg.expression (by omega)
  block := hg.block (by omega)
  object := hg.object (by omega)
  statement := hg.statement (by omega)
  keyValueOrStatement := hg.keyValueOrStatement (by omega)

theorem grammar_proceeds (depth : Nat) : (grammar depth).Proceeds depth := by
  induction depth with
  | zero =>
    constructor <;> intro o n deep
    case expression => exact fun _ s here => absurd here.left_le (by omega)
    all_goals exact fun s here => absurd here.left_le (by omega)
  | succ depth hg =>
    constructor <;> intro o n deep
    case' expression => intro least
    all_goals
      refine .of_moves fun s here => ?_
      have left := here.left_le
    case object => exact object_moves (hg.inner (by omega))
    case block => exact block_moves (hg.inner (by omega))
    case expression => exact expression_moves (hg.inner (by omega)) (hg.object (by omega)) least
    case statement => exact statement_moves (hg.inner (by omega)) (hg.expression (by omega) 0)
    case keyValueOrStatement =>
      exact keyValueOrStatement_moves (hg.inner (by omega)) (hg.statement (by omega))

/-! ### Runs -/

inductive Nonterminal where
  | statement
  | expression (least : Int)
  | primary
  | block
  | object
  | keyValueOrStatement
  | looseList

def Nonterminal.parse (g : Grammar) : Nonterminal → Parse Node
  | statement => Parser.statement g
  | expression least => Parser.expression g least
  | primary => Parser.primary g
  | block => Parser.block g
  | object => Parser.object g
  | keyValueOrStatement => Parser.keyValueOrStatement g
  | looseList => Parser.looseList g

/-- A depth of nesting for all the tokens that are left is enough. -/
theorem nonterminal_moves (x : Nonterminal) (deep : 4 * s.left + 3 < depth) :
    Moves s (x.parse (grammar depth)) := by
  have hg := grammar_proceeds depth
  have inner := hg.inner (s := s) (by omega)
  have ho : From s 0 (grammar depth).object := hg.object (by omega)
  cases x with
  | statement => exact statement_moves inner (hg.expression (by omega) 0)
  | expression least => exact expression_moves inner ho least
  | primary => exact primary_moves ho (inner.expression 0)
  | block => exact block_moves inner
  | object => exact object_moves inner
  | keyValueOrStatement => exact keyValueOrStatement_moves inner (hg.statement (by omega))
  | looseList => exact looseList_moves inner

theorem program_ends (h : s.Placed) (deep : 4 * s.left + 3 < depth) :
    Ends (program (grammar depth)) s fun _ s' => Later s 0 s' ∧ s'.pos + 1 = s'.tokens.size := by
  have statement : From s 0 (statement (grammar depth)) := by
    refine .of_moves fun s' here => nonterminal_moves .statement ?_
    have := here.left_le
    omega
  refine (untilToken_ends statement .endOfFile (Later.refl h).toBehind).bind ?_
  rintro statements s₁ ⟨h₁, t, ts, ahead, ended⟩
  obtain ⟨t', ts', ahead', last⟩ := h₁.placed.next
  rw [ahead] at ahead'
  cases ahead'
  exact ⟨h₁, last.mp ended⟩

theorem closed_of_ended {body : List Token} {last : Token} (ended : last.kind = .endOfFile)
    (only : ∀ t ∈ body, t.kind ≠ .endOfFile) : Closed (body ++ [last]).toArray := by
  intro i t found
  rw [List.getElem?_toArray] at found
  have inside : i < body.length + 1 := by
    have := (List.getElem?_eq_some_iff.mp found).1
    simpa using this
  rw [List.size_toArray, List.length_append, List.length_singleton]
  by_cases front : i < body.length
  · rw [List.getElem?_append_left front] at found
    have other := only t (List.mem_of_getElem? found)
    exact ⟨fun h => absurd h other, fun h => by omega⟩
  · obtain rfl : i = body.length := by omega
    rw [List.getElem?_append_right (Nat.le_refl _), Nat.sub_self] at found
    cases found
    exact ⟨fun _ => rfl, fun _ => ended⟩

/-- In front of the only end mark, a nonterminal that returns has read a token and none behind the
end; a program that returns has read all of them. Neither repeats without end nor looks for a token
outside. -/
theorem nonterminal_progress {body : List Token} {last : Token} (ended : last.kind = .endOfFile)
    (only : ∀ t ∈ body, t.kind ≠ .endOfFile) {s : State}
    (held : s.tokens = (body ++ [last]).toArray) :
    (s.pos < body.length → ∀ x : Nonterminal,
      match (x.parse (grammar (depthFor (body ++ [last])))).run s with
      | .ok (_, s') => s.pos < s'.pos ∧ s'.pos ≤ body.length ∧ s'.level = s.level
      | .error fault => fault ≠ .endless ∧ fault ≠ .indexOutOfRange "list") ∧
    (s.pos ≤ body.length →
      match (program (grammar (depthFor (body ++ [last])))).run s with
      | .ok (_, s') => s'.pos = body.length ∧ s'.level = s.level
      | .error fault => fault ≠ .endless ∧ fault ≠ .indexOutOfRange "list") := by
  have size : s.tokens.size = body.length + 1 := by simp [held]
  have deep : 4 * s.left + 3 < depthFor (body ++ [last]) := by
    simp only [State.left, depthFor, size, List.length_append, List.length_singleton]
    omega
  have placed (inside : s.pos ≤ body.length) : s.Placed :=
    ⟨held ▸ closed_of_ended ended only, by omega⟩
  constructor
  · intro before x
    have ends := nonterminal_moves x deep s (.refl (placed before.le))
    cases run : (x.parse (grammar (depthFor (body ++ [last])))).run s with
    | error fault => exact ends.error run
    | ok result =>
      have h : Later s 1 result.2 := ends.ok run
      have tokens := congrArg Array.size h.tokens
      have inside := h.placed.inside
      exact ⟨h.read, by omega, h.level⟩
  · intro inside
    have ends := program_ends (placed inside) deep
    cases run : (program (grammar (depthFor (body ++ [last])))).run s with
    | error fault => exact ends.error run
    | ok result =>
      obtain ⟨h, atEnd⟩ : Later s 0 result.2 ∧ result.2.pos + 1 = result.2.tokens.size := ends.ok run
      have tokens := congrArg Array.size h.tokens
      exact ⟨by omega, h.level⟩

/-- A word and a label that start nothing: the parser goes back by one token and reads the label as
a statement. -/
theorem nonterminal_progress_rewound :
    let body : List Token := [⟨.identifier, "a", 1, 1⟩, ⟨.string, "b", 1, 4⟩,
      ⟨.identifier, "c", 1, 7⟩]
    let last : Token := ⟨.endOfFile, "", 1, 8⟩
    let s : State := { tokens := (body ++ [last]).toArray, level := 2 }
    last.kind = .endOfFile ∧ (∀ t ∈ body, t.kind ≠ .endOfFile) ∧ s.pos < body.length ∧
      ∃ node s', (keyValueOrStatement (grammar (depthFor (body ++ [last])))).run s = .ok (node, s') ∧
        s'.pos = 2 ∧ s.pos < s'.pos ∧ s'.pos ≤ body.length ∧ s'.level = s.level := by
  intro body last s
  have only : ∀ t ∈ body, t.kind ≠ .endOfFile := by decide
  have before : s.pos < body.length := by decide
  refine ⟨rfl, only, before, ?_⟩
  have ended : last.kind = .endOfFile := rfl
  have progress := (nonterminal_progress ended only (s := s) rfl).1 before .keyValueOrStatement
  obtain ⟨node, s', run, at_⟩ : ∃ node s',
      (keyValueOrStatement (grammar (depthFor (body ++ [last])))).run s = .ok (node, s') ∧
        s'.pos = 2 := by
    cbv
    exact ⟨_, _, rfl, rfl⟩
  rw [Nonterminal.parse, run] at progress
  exact ⟨node, s', run, at_, progress⟩

end Stratus.Parser
