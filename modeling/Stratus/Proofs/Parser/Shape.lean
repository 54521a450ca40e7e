import Stratus.Proofs.Assoc
import Stratus.Proofs.Parser.Reading

/-!
The shape of parsed trees. Some forms never come out of the parser, a mapping starts at a text, and
only statements stand in blocks.
-/
namespace Stratus

open List

namespace Node

variable {n : Node}

def children : Node → List Node
  | keyValue _ value => [value]
  | block statements => statements
  | typed _ _ body => [body]
  | ternary condition yes no => [condition, yes, no]
  | resource _ _ body _ => [body]
  | forLoop _ iterable body => [iterable, body]
  | conditional condition yes no => condition :: yes :: no.toList
  | switch value cases otherwise => value :: cases.flatMap (fun c => [c.1, c.2]) ++ otherwise.toList
  | function _ _ _ body => [body]
  | assignment _ value => [value]
  | expression left _ right => left :: right.toList
  | returns value => [value]
  | range _ arguments => arguments
  | literal _ | identifier _ | raw .. => []
  | call callee arguments => callee :: arguments
  | access owner _ => [owner]
  | list elements => elements
  | object attributes => attributes.map Prod.snd
  | named _ _ body => [body]
  | typeDef _ _ fields _ => fields.filterMap fun field => field.2.2
  | applied head body => [head, body]
  | mapsTo source target => [source, target]

/-- The trees inside a tree, and the tree itself. -/
inductive Subtree : Node → Node → Prop where
  | self (n : Node) : Subtree n n
  | inner {part child n : Node} : child ∈ n.children → Subtree part child → Subtree part n

/-- A property holds of a tree and of every tree inside it. -/
def Throughout (P : Node → Prop) (n : Node) : Prop := ∀ part : Node, part.Subtree n → P part

theorem throughout_iff {P : Node → Prop} :
    n.Throughout P ↔ P n ∧ ∀ child ∈ n.children, child.Throughout P := by
  constructor
  · exact fun h => ⟨h n (.self n), fun child member part inside => h part (.inner member inside)⟩
  · rintro ⟨whole, inner⟩ part inside
    cases inside with
    | self => exact whole
    | inner member inside => exact inner _ member part inside

theorem Throughout.leaf {P : Node → Prop} (own : P n) (bare : n.children = []) : n.Throughout P :=
  throughout_iff.mpr ⟨own, bare ▸ forall_mem_nil _⟩

theorem Throughout.around {P : Node → Prop} {child : Node} (own : P n) (only : n.children = [child])
    (inner : child.Throughout P) : n.Throughout P :=
  throughout_iff.mpr ⟨own, only ▸ forall_mem_singleton.mpr inner⟩

theorem Throughout.mono {P Q : Node → Prop} (h : n.Throughout P) (weaker : ∀ part, P part → Q part) :
    n.Throughout Q := fun part inside => weaker part (h part inside)

def isBlock : Node → Bool
  | block _ => true
  | _ => false

def isStatement : Node → Bool
  | keyValue .. | typed .. | resource .. | forLoop .. | conditional .. | switch .. | function ..
  | assignment .. | expression .. | returns _ | named .. | typeDef .. | mapsTo .. => true
  | _ => false

/-- What the grammar grants a tree, apart from the trees inside it. -/
def Regular : Node → Prop
  | ternary .. | applied .. | range .. | raw .. => False
  | mapsTo source _ => ∃ text, source = literal (.str text)
  | block statements => ∀ s ∈ statements, s.isStatement = true
  | named _ _ body => body.isBlock = true
  | object attributes => (Assoc.keys attributes).Nodup
  | _ => True

def Shaped (n : Node) : Prop := n.Throughout Regular

theorem Shaped.of_children (whole : n.Regular)
    (inner : ∀ child ∈ n.children, child.Shaped) : n.Shaped :=
  throughout_iff.mpr ⟨whole, inner⟩

theorem Shaped.child {n child : Node} (h : n.Shaped) (member : child ∈ n.children) : child.Shaped :=
  (throughout_iff.mp h).2 child member

theorem Regular.form_notMem (h : n.Regular) :
    n.form ∉ ["TernaryExpressionNode", "BlockExpressionNode", "RangeNode", "RawBlockNode"] := by
  cases n with
  | ternary | applied | range | raw => exact h.elim
  | _ => simp [form]

theorem form_notMem_of_isStatement (h : n.isStatement = true) : n.form ∉
    ["ObjectNode", "ListNode", "LiteralNode", "IdentifierNode", "FunctionCallNode",
      "AttributeAccessNode"] := by
  cases n with
  | object | list | literal | identifier | call | access => cases h
  | _ => simp [form]

end Node

namespace Parser

variable {b : Bool}

/-- Whatever state a parser starts in, what it returns has a property. -/
def Yields {α : Type} (P : α → Prop) (p : Parse α) : Prop := ∀ s a s', p s = .ok (a, s') → P a

namespace Yields

variable {α β : Type} {P : α → Prop} {Q : β → Prop} {p : Parse α} {next : α → Parse β}
  {f : α → Parse β}

theorem pure {a : α} (h : P a) : Yields P (Pure.pure a : Parse α) := by
  intro s a' s' run
  cases run
  exact h

theorem throw (fault : Fault) : Yields P (MonadExcept.throw fault : Parse α) := by
  intro s a s' run
  cases run

theorem bind (hp : Yields P p) (hf : ∀ a, P a → Yields Q (f a)) : Yields Q (p >>= f) := by
  intro s b s' run
  obtain ⟨a, m, first, rest⟩ := bind_eq_ok run
  exact hf a (hp s a m first) m b s' rest

theorem after (hf : ∀ a, Yields Q (f a)) : Yields Q (p >>= f) :=
  bind (P := fun _ => True) (fun _ _ _ _ => trivial) fun a _ => hf a

theorem map {f : α → β} (h : Yields (fun a => Q (f a)) p) : Yields Q (f <$> p) := by
  rw [map_eq_pure_bind]
  exact h.bind fun a ha => pure ha

theorem mono {P' : α → Prop} (h : Yields P p) (weaker : ∀ a, P a → P' a) : Yields P' p :=
  fun s a s' run => weaker a (h s a s' run)

theorem branch {p q : Parse α} (hp : Yields P p) (hq : Yields P q)
    (hn : ∀ a, P a → Yields Q (next a)) : Yields Q (if b = true then p >>= next else q >>= next) := by
  cases b with
  | true => exact hp.bind hn
  | false => exact hq.bind hn

theorem either {p q : Parse α} (hn : ∀ a, Yields Q (next a)) :
    Yields Q (if b = true then p >>= next else q >>= next) := by
  cases b with
  | true => exact after hn
  | false => exact after hn

theorem refuse {fault : Fault} {next : Unit → Parse α} (hn : Yields P (next ())) :
    Yields P (if b = true then MonadExcept.throw fault >>= next else next ()) := by
  cases b with
  | true => exact bind (throw (P := fun _ => False) fault) fun _ h => h.elim
  | false => exact hn

end Yields

section Repetitions

variable {α : Type} {P : α → Prop} {item : Parse α}

theorem repeated_yields {step : Parse (Option α)} (h : Yields (fun o => ∀ a, o = some a → P a) step)
    (fuel : Nat) :
    Yields (fun items => ∀ a ∈ items, P a) (repeated step fuel) := by
  induction fuel with
  | zero => exact .throw _
  | succ fuel ih =>
    refine h.bind fun o ho => ?_
    cases o with
    | none => exact .pure (by simp)
    | some a =>
      refine ih.bind fun rest hrest => .pure ?_
      exact forall_mem_cons.mpr ⟨ho a rfl, hrest⟩

theorem untilToken_yields (h : Yields P item) (close : TokenKind) :
    Yields (fun items => ∀ a ∈ items, P a) (untilToken close item) := by
  refine .after fun fuel => repeated_yields (.after fun closed => ?_) fuel
  split
  · exact .pure nofun
  · refine .map (h.mono fun a ha a' same => ?_)
    cases same
    exact ha

theorem separatedFrom_yields (h : Yields P item) (sep : TokenKind) (fuel : Nat) :
    Yields (fun items => ∀ a ∈ items, P a) (separatedFrom sep item fuel) := by
  induction fuel with
  | zero => exact .throw _
  | succ fuel ih =>
    refine h.bind fun a ha => .after fun more => ?_
    split
    · exact ih.bind fun rest hrest => .pure (forall_mem_cons.mpr ⟨ha, hrest⟩)
    · exact .pure (by simpa using ha)

theorem separated_yields (h : Yields P item) (sep : TokenKind) :
    Yields (fun items => ∀ a ∈ items, P a) (separated sep item) :=
  .after fun fuel => separatedFrom_yields h sep fuel

end Repetitions

def Stands (n : Node) : Prop := n.Shaped ∧ n.isStatement = true

theorem attribute?_shaped {member n : Node} {key : String} (h : member.Shaped)
    (added : attribute? member = some (key, n)) :
    n.Shaped := by
  cases member with
  | keyValue | named =>
    cases added
    exact h.child (by simp [Node.children])
  | typed =>
    cases added
    exact h
  | _ => cases added

def TypeMember.Shaped (member : TypeMember) : Prop :=
  ∀ field, member.written? = some field → ∀ n ∈ field.2.2.toList, n.Shaped

/-- What the nonterminals return: an expression is asked for with a precedence of its own or with
none. -/
structure Grammar.Regular (g : Grammar) : Prop where
  expression {least : Int} (asked : 0 ≤ least) : Yields Node.Shaped (g.expression least)
  block : Yields (fun n => n.Shaped ∧ n.isBlock = true) g.block
  object : Yields Node.Shaped g.object
  keyValueOrStatement : Yields Stands g.keyValueOrStatement
  statement : Yields Stands g.statement

section Nonterminals

variable {g : Grammar} (hg : g.Regular) {least : Int}

include hg

theorem Grammar.Regular.operand : Yields Node.Shaped (g.expression 0) := hg.expression (le_refl 0)

/-! ### Expressions -/

theorem listed_yields {β : Type} {Q : β → Prop} {sep : TokenKind} {next : List Node → Parse β}
    (hn : ∀ elements, (∀ n ∈ elements, n.Shaped) → Yields Q (next elements)) :
    Yields Q (if b = true then pure [] >>= next else separated sep (g.expression 0) >>= next) :=
  .branch (.pure (by simp)) (separated_yields hg.operand sep) hn

theorem trailers_yields (fuel : Nat) {node : Node} (h : node.Shaped) :
    Yields Node.Shaped (trailers g fuel node) := by
  induction fuel generalizing node with
  | zero => exact .throw _
  | succ fuel ih =>
    refine .after fun dotted => ?_
    split
    · exact .after fun name => ih (.of_children trivial (by simpa [Node.children] using h))
    · refine .after fun called => ?_
      split
      · refine .after fun empty => listed_yields hg fun arguments harguments => ?_
        refine .after fun _ => ih (.of_children trivial ?_)
        exact forall_mem_cons.mpr ⟨h, harguments⟩
      · exact .pure h

theorem primary_yields : Yields Node.Shaped (primary g) := by
  refine .after fun t => ?_
  split
  · exact .after fun _ => .after fun value => .pure (.leaf trivial rfl)
  · exact .after fun _ => .pure (.leaf trivial rfl)
  · refine .after fun _ => .after fun empty => listed_yields hg fun elements helements => ?_
    exact .after fun _ => .pure (.of_children trivial helements)
  · exact hg.object
  · exact .after fun _ => .after fun fuel => trailers_yields hg fuel (.leaf trivial rfl)
  · exact .after fun _ => hg.operand.bind fun inner hinner => .after fun _ => .pure hinner
  · exact .after fun _ => .pure (.leaf trivial rfl)
  · exact .after fun _ => .pure (.leaf trivial rfl)
  · exact .after fun _ => .pure (.leaf trivial rfl)
  · exact .throw _

/-- A block is never taken for a part of an expression: no precedence that is asked for is as low.
-/
theorem operations_yields (asked : 0 ≤ least) (fuel : Nat) {left : Node} (h : left.Shaped) :
    Yields Node.Shaped (operations g least fuel left) := by
  induction fuel generalizing left with
  | zero => exact .throw _
  | succ fuel ih =>
    refine .after fun t => ?_
    dsimp only
    split
    · exact .pure h
    next strong =>
    split
    · refine .after fun _ => (hg.expression (by omega)).bind fun right hright =>
        ih (.of_children trivial ?_)
      simp [Node.children, h, hright]
    split
    · next brace =>
        -- A brace got this far only if its precedence is at least the one asked for.
        have lowest : precedence t.kind = -1 := by
          rw [beq_iff_eq.mp brace]
          rfl
        omega
    · exact .pure h

theorem expression_yields (asked : 0 ≤ least) : Yields Node.Shaped (expression g least) :=
  (primary_yields hg).bind fun _ hleft => .after fun fuel => operations_yields hg asked fuel hleft

theorem expressionOrObject_yields : Yields Node.Shaped (expressionOrObject g) := by
  refine .after fun opened => ?_
  split
  · exact hg.object
  · exact hg.operand

theorem block_yields : Yields (fun n => n.Shaped ∧ n.isBlock = true) (block g) := by
  have statement : Yields Stands (do
      if isTypeWord (← current) then g.keyValueOrStatement else g.statement) := by
    refine .after fun t => ?_
    split
    · exact hg.keyValueOrStatement
    · exact hg.statement
  refine .after fun _ => .after fun _ =>
    (untilToken_yields statement _).bind fun statements hstatements => ?_
  refine .after fun _ => .after fun _ => .pure ⟨.of_children ?_ ?_, rfl⟩
  · exact fun s member => (hstatements s member).2
  · exact fun s member => (hstatements s member).1

theorem object_yields : Yields Node.Shaped (object g) := by
  have item : Yields Stands (do
      let member ← g.keyValueOrStatement
      discard <| accept .comma
      return member) :=
    hg.keyValueOrStatement.bind fun member hmember => .after fun _ => .pure hmember
  refine .after fun _ => (untilToken_yields item _).bind fun members hmembers =>
    .after fun _ => .pure ?_
  -- Members of one key are written over each other, so no key is left twice.
  refine .of_children (Assoc.nodup_keys_ofPairs _) fun n below => ?_
  obtain ⟨⟨key, _⟩, source, rfl⟩ := mem_map.mp below
  obtain ⟨member, listed, added⟩ := mem_filterMap.mp (Assoc.mem_of_mem_ofPairs source)
  exact attribute?_shaped (hmembers member listed).1 added

theorem keyValueOrStatement_yields : Yields Stands (keyValueOrStatement g) := by
  refine .after fun key => ?_
  split
  · exact hg.statement
  · refine .after fun _ => .after fun labelled => .either fun label => .after fun colon => ?_
    split
    · refine .after fun named => .after fun opened => ?_
      split
      · exact .after fun type => hg.block.bind fun body hbody =>
          .pure ⟨.around trivial rfl hbody.1, rfl⟩
      · exact (expressionOrObject_yields hg).bind fun n hn => .pure ⟨.around trivial rfl hn, rfl⟩
    · refine .after fun equals => ?_
      split
      · exact (expressionOrObject_yields hg).bind fun n hn => .pure ⟨.around trivial rfl hn, rfl⟩
      · refine .after fun opened => ?_
        split
        · exact hg.block.bind fun body hbody => .pure ⟨.around hbody.2 rfl hbody.1, rfl⟩
        · exact .after fun _ => hg.statement

/-! ### Statements -/

theorem mapsTo_yields : Yields Stands (mapsTo g) := by
  refine .after fun source => .after fun _ => .after fun _ => hg.operand.bind fun target htarget =>
    .pure ⟨?_, rfl⟩
  refine .of_children ⟨_, rfl⟩ ?_
  have text : (Node.literal (.str source.text)).Shaped :=
    .of_children trivial (by simp [Node.children])
  simp [Node.children, text, htarget]

theorem returnStatement_yields : Yields Stands (returnStatement g) :=
  .after fun _ => hg.operand.bind fun _ hvalue => .pure ⟨.around trivial rfl hvalue, rfl⟩

theorem resource_yields : Yields Stands (resource g) := by
  refine .after fun _ => .after fun kind => .after fun name => hg.block.bind fun body hbody => ?_
  have stands (type : Data) : Stands (.resource kind.text name.text body type) :=
    ⟨.around trivial rfl hbody.1, rfl⟩
  dsimp only
  split
  · exact .after fun _ => .after fun problems => .refuse (.pure (stands _))
  · exact .pure (stands _)

theorem serviceBlock_yields : Yields Stands (serviceBlock g) :=
  .after fun _ => .after fun _ => hg.block.bind fun _ hbody =>
    .pure ⟨.around hbody.2 rfl hbody.1, rfl⟩

theorem forLoop_yields : Yields Stands (forLoop g) := by
  refine .after fun _ => .after fun t =>
    .refuse (.after fun _ => .after fun next => .refuse (.after fun _ => ?_))
  refine hg.operand.bind fun iterable hiterable => .after fun last => .refuse ?_
  refine hg.block.bind fun body hbody => .pure ⟨.of_children trivial ?_, rfl⟩
  simp [Node.children, hiterable, hbody.1]

theorem conditional_yields : Yields Stands (conditional g) := by
  refine .after fun _ => hg.operand.bind fun condition hcondition => hg.block.bind fun yes hyes =>
    .after fun _ => ?_
  refine .branch (P := fun no : Option Node => ∀ n ∈ no.toList, n.Shaped) ?_ (.pure (by simp))
    fun no hno =>
    .pure ⟨.of_children trivial ?_, rfl⟩
  · exact .map (hg.block.mono fun n hn => by simpa using hn.1)
  · exact forall_mem_cons.mpr ⟨hcondition, forall_mem_cons.mpr ⟨hyes.1, hno⟩⟩

theorem switchBranch_yields :
    Yields (fun branch => (∀ n ∈ branch.1.toList, Node.Shaped n) ∧ branch.2.Shaped)
      (switchBranch g) := by
  refine .after fun case => ?_
  split
  · exact hg.operand.bind fun value hvalue => hg.block.bind fun body hbody =>
      .pure ⟨by simpa using hvalue, hbody.1⟩
  · refine .after fun default => ?_
    split
    · exact hg.block.bind fun body hbody => .pure ⟨by simp, hbody.1⟩
    · exact .after fun t => .throw _

theorem switch_yields : Yields Stands (switch g) := by
  refine .after fun _ => hg.operand.bind fun value hvalue => .after fun _ => ?_
  refine (untilToken_yields (switchBranch_yields hg) _).bind fun branches hbranches =>
    .after fun _ => ?_
  refine .pure ⟨.of_children trivial fun n below => ?_, rfl⟩
  rcases mem_cons.mp below with rfl | below
  · exact hvalue
  rcases mem_append.mp below with inCase | inDefault
  · obtain ⟨pair, listed, part⟩ := mem_flatMap.mp inCase
    obtain ⟨branch, member, added⟩ := mem_filterMap.mp listed
    obtain ⟨value', given, rfl⟩ := Option.map_eq_some_iff.mp added
    have hbranch := hbranches branch member
    simp only [mem_cons, not_mem_nil, or_false] at part
    rcases part with rfl | rfl
    · exact hbranch.1 _ (by simp [given])
    · exact hbranch.2
  · obtain ⟨branch, last, rfl⟩ := Option.map_eq_some_iff.mp (Option.mem_toList.mp inDefault)
    exact (hbranches branch (mem_of_mem_filter (mem_of_getLast? last))).2

theorem function_yields : Yields Stands (function g) := by
  refine .after fun _ => .after fun name => .after fun _ => .after fun params => .after fun _ =>
    .after fun annotated => ?_
  exact .either fun result => hg.block.bind fun body hbody => .pure ⟨.around trivial rfl hbody.1, rfl⟩

theorem typeMember_yields : Yields TypeMember.Shaped (typeMember g) := by
  have finish {member : TypeMember} (h : member.Shaped) :
      Yields TypeMember.Shaped (do discard <| accept .comma; return member) :=
    .after fun _ => .pure h
  refine .after fun name => .refuse (.after fun _ => .after fun _ => ?_)
  split
  · have base : Yields TypeMember.Shaped (TypeMember.base <$> Token.text <$> consume .identifier) :=
      .map (.map fun _ _ _ _ => nofun)
    exact base.bind fun _ hbase => finish hbase
  · refine .after fun type => .after fun equals => ?_
    split
    · refine .after fun calculated => ?_
      split
      · exact .after fun _ => .after fun e => .after fun _ =>
          finish (by simp [TypeMember.Shaped, TypeMember.written?])
      · exact hg.operand.bind fun e he =>
          finish (by simpa [TypeMember.Shaped, TypeMember.written?] using he)
    · exact finish (by simp [TypeMember.Shaped, TypeMember.written?])

theorem typeDefinition_yields : Yields Stands (typeDefinition g) := by
  refine .after fun word => .refuse (.after fun _ => .after fun name => .after fun _ => ?_)
  refine (untilToken_yields (typeMember_yields hg) _).bind fun members hmembers => .after fun _ =>
    .after fun _ => ?_
  refine .after fun registry => .after fun _ => .pure ⟨.of_children trivial fun n below => ?_, rfl⟩
  obtain ⟨field, written, initial⟩ := mem_filterMap.mp below
  obtain ⟨member, listed, same⟩ := mem_filterMap.mp written
  exact hmembers member listed field same n (by simp [initial])

theorem assignment_yields : Yields Stands (assignment g) :=
  .after fun _ => .after fun _ => hg.operand.bind fun _ hvalue =>
    .pure ⟨.around trivial rfl hvalue, rfl⟩

theorem expressionStatement_yields : Yields Stands (expressionStatement g) :=
  hg.operand.bind fun _ hvalue => .pure ⟨.around trivial rfl hvalue, rfl⟩

theorem namedBlock_yields : Yields Stands (namedBlock g) := by
  refine .after fun name => .after fun labelled => .either fun label => .refuse ?_
  exact hg.block.bind fun _ hbody => .pure ⟨.around hbody.2 rfl hbody.1, rfl⟩

theorem statement_yields : Yields Stands (statement g) := by
  refine .after fun t => ?_
  split
  · exact returnStatement_yields hg
  · exact resource_yields hg
  · exact forLoop_yields hg
  · exact conditional_yields hg
  · exact switch_yields hg
  · exact function_yields hg
  · refine .after fun s => ?_
    split
    · exact typeDefinition_yields hg
    split
    · exact serviceBlock_yields hg
    split
    · refine .after fun mapped => ?_
      split
      · exact mapsTo_yields hg
      refine .after fun assigned => ?_
      split
      · exact assignment_yields hg
      refine .after fun opened => ?_
      split
      · exact namedBlock_yields hg
      · exact expressionStatement_yields hg
    · exact expressionStatement_yields hg

end Nonterminals

/-! ### The knot -/

theorem grammar_regular (depth : Nat) : (grammar depth).Regular := by
  induction depth with
  | zero => exact ⟨fun _ => .throw _, .throw _, .throw _, .throw _, .throw _⟩
  | succ depth hg =>
    exact ⟨expression_yields hg, block_yields hg, object_yields hg, keyValueOrStatement_yields hg,
      statement_yields hg⟩

theorem program_yields (depth : Nat) : Yields Node.Shaped (program (grammar depth)) := by
  refine (untilToken_yields (statement_yields (grammar_regular depth)) _).bind
    fun statements hstatements => .pure ?_
  exact .of_children (fun s member => (hstatements s member).2) fun s member =>
    (hstatements s member).1

/-- In the tree of a program there is no conditional expression, no block behind an expression, no
range and no raw block; every mapping starts at a text, and only statements stand in blocks. -/
theorem program_shape {depth : Nat} {s s' : State} {node : Node}
    (run : (program (grammar depth)).run s = .ok (node, s')) :
    node.Throughout fun part =>
      part.form ∉ ["TernaryExpressionNode", "BlockExpressionNode", "RangeNode", "RawBlockNode"] ∧
      (∀ source target, part = .mapsTo source target → ∃ text, source = .literal (.str text)) ∧
      ∀ statements, part = .block statements → ∀ statement ∈ statements, statement.form ∉
        ["ObjectNode", "ListNode", "LiteralNode", "IdentifierNode", "FunctionCallNode",
          "AttributeAccessNode"] := by
  have shaped : node.Shaped := program_yields depth s node s' run
  refine shaped.mono fun part regular => ⟨regular.form_notMem, ?_, ?_⟩
  · rintro source target rfl
    exact regular
  · rintro statements rfl statement member
    exact Node.form_notMem_of_isStatement (regular statement member)

/-- A block with a mapping and a pair. -/
theorem program_shape_mapping :
    let tokens : List Token := [⟨.identifier, "web", 1, 1⟩, ⟨.leftBrace, "\x7b", 1, 5⟩,
      ⟨.string, "a", 1, 7⟩,
      ⟨.mapsTo, "maps_to", 1, 11⟩, ⟨.identifier, "b", 1, 19⟩, ⟨.identifier, "x", 1, 21⟩,
        ⟨.equals, "=", 1, 23⟩,
      ⟨.leftBracket, "[", 1, 25⟩, ⟨.number, "1", 1, 26⟩, ⟨.rightBracket, "]", 1, 27⟩,
        ⟨.rightBrace, "\x7d", 1, 29⟩,
      ⟨.endOfFile, "", 1, 30⟩]
    let node : Node :=
      .block [.named "web" none (.block [.mapsTo (.literal (.str "a")) (.identifier "b"),
      .keyValue "x" (.list [.literal (.int 1)])])]
    Prod.fst <$> (program (grammar (depthFor tokens))).run { tokens := tokens.toArray } = .ok node ∧
      node.Throughout fun part =>
        part.form ∉ ["TernaryExpressionNode", "BlockExpressionNode", "RangeNode", "RawBlockNode"] ∧
        (∀ source target, part = .mapsTo source target → ∃ text, source = .literal (.str text)) ∧
        ∀ statements, part = .block statements → ∀ statement ∈ statements, statement.form ∉
          ["ObjectNode", "ListNode", "LiteralNode", "IdentifierNode", "FunctionCallNode",
            "AttributeAccessNode"] := by
  intro tokens node
  have read : Prod.fst <$> (program (grammar (depthFor tokens))).run { tokens := tokens.toArray } =
    .ok node := by cbv
  obtain ⟨⟨_, s'⟩, run, rfl⟩ := Outcome.map_eq_ok read
  exact ⟨read, program_shape run⟩

end Parser

end Stratus
