import Stratus.Source.Lexer
import Stratus.Typing.Check

/-!
Trees from tokens. The nonterminals that call each other are the fields of a `Grammar`, tied into a
knot by a bound on the depth of nesting.
-/
namespace Stratus.Parser

structure State where
  tokens : Array Token
  pos : Nat := 0
  level : Int := 0
  registry : Registry := []

abbrev Parse := StateT State (Except Fault)

structure Grammar where
  expression : Int → Parse Node
  block : Parse Node
  object : Parse Node
  keyValueOrStatement : Parse Node
  statement : Parse Node

/-! ### Tokens -/

def tokenAt? (offset : Nat) : Parse (Option Token) := do
  let s ← get
  return s.tokens[s.pos + offset]?

def current : Parse Token := do
  match ← tokenAt? 0 with
  | some t => return t
  | none => throw (.indexOutOfRange "list")

def peek? (offset : Nat) : Parse (Option Token) := tokenAt? offset

def sees (kind : TokenKind) : Parse Bool := do return (← current).kind == kind

def seesBehind (kind : TokenKind) : Parse Bool := do
  return ((← peek? 1).map Token.kind) == some kind

def advance : Parse Unit := modify fun s => { s with pos := s.pos + 1 }

def consume (kind : TokenKind) : Parse Token := do
  let t ← current
  if t.kind == kind then
    advance
    return t
  else throw (.expectedToken kind t.kind t.line t.column)

def accept (kind : TokenKind) : Parse Bool := do
  if ← sees kind then
    advance
    return true
  else return false

def bound : Parse Nat := do return (← get).tokens.size + 1

def repeated {α : Type} (step : Parse (Option α)) : Nat → Parse (List α)
  | 0 => throw .endless
  | fuel + 1 => do
    match ← step with
    | some a => return a :: (← repeated step fuel)
    | none => return []

def untilToken {α : Type} (close : TokenKind) (item : Parse α) : Parse (List α) := do
  repeated (do if ← sees close then return none else some <$> item) (← bound)

def separatedFrom {α : Type} (sep : TokenKind) (item : Parse α) : Nat → Parse (List α)
  | 0 => throw .endless
  | fuel + 1 => do
    let a ← item
    if ← accept sep then return a :: (← separatedFrom sep item fuel) else return [a]

def separated {α : Type} (sep : TokenKind) (item : Parse α) : Parse (List α) := do
  separatedFrom sep item (← bound)

/-! ### Types -/

def isTypeWord (t : Token) : Bool := t.kind == .identifier || t.kind == .string

def typeName : Parse String := do
  let t ← current
  if isTypeWord t then
    advance
    return t.text
  else throw (.unexpectedInType t.kind t.line)

/-- A type: a name, perhaps nullable, or a union of names; only the first name takes the mark. -/
def typeAnnotation : Parse TypeRef := do
  let name ← typeName
  let nullable ← accept .question
  let members ← repeated (do if ← accept .pipe then some <$> typeName else return none) (← bound)
  if members.isEmpty then return { name, nullable }
  else return { name := "", nullable, members := (name :: members).map fun m => { name := m } }

def parameter : Parse Param := do
  let name ← consume .identifier
  discard <| consume .colon
  return ⟨name.text, ← typeAnnotation⟩

def parameterList : Parse (List Param) := do
  if ← sees .rightParen then return [] else separated .comma parameter

/-! ### Expressions -/

def precedence : TokenKind → Int
  | .orOp => 1
  | .andOp => 2
  | .equalEqual | .notEqual | .mapsTo => 3
  | .greaterThan | .greaterEqual | .lessThan | .lessEqual => 4
  | .plus | .minus => 5
  | .multiply | .divide | .modulo => 6
  | .question => 0
  | _ => -1

def isOperator : TokenKind → Bool
  | .orOp | .andOp | .equalEqual | .notEqual | .greaterThan | .greaterEqual | .lessThan | .lessEqual
  | .plus | .minus | .multiply | .divide | .modulo => true
  | _ => false

def numeralValue (text : String) : Outcome Data :=
  match Text.splitOnce? text "." with
  | some (whole, fraction) =>
    match Numeral.pointed? whole.toList fraction.toList with
    | some x => .ok (.float x)
    | none => .error (.badFloatNumeral text)
  | none =>
    match Numeral.nat? text.toList with
    | some n => .ok (.int n)
    | none => .error (.badNumeral text)

def trailers (g : Grammar) : Nat → Node → Parse Node
  | 0, _ => throw .endless
  | fuel + 1, node => do
    if ← accept .dot then
      let name ← consume .identifier
      trailers g fuel (.access node name.text)
    else if ← accept .leftParen then
      let arguments ← if ← sees .rightParen then pure [] else separated .comma (g.expression 0)
      discard <| consume .rightParen
      trailers g fuel (.call node arguments)
    else return node

def primary (g : Grammar) : Parse Node := do
  let t ← current
  match t.kind with
  | .number =>
    advance
    return .literal (← numeralValue t.text)
  | .string =>
    advance
    return .literal (.str t.text)
  | .leftBracket =>
    advance
    let elements ← if ← sees .rightBracket then pure [] else separated .comma (g.expression 0)
    discard <| consume .rightBracket
    return .list elements
  | .leftBrace => g.object
  | .identifier =>
    advance
    trailers g (← bound) (.identifier t.text)
  | .leftParen =>
    advance
    let inner ← g.expression 0
    discard <| consume .rightParen
    return inner
  | .trueWord =>
    advance
    return .literal (.bool true)
  | .falseWord =>
    advance
    return .literal (.bool false)
  | .nullWord =>
    advance
    return .literal .null
  | _ => throw (.unexpectedToken t.kind t.text t.line t.column)

/-- Operators of at least a given precedence behind an operand, and their right sides. -/
def operations (g : Grammar) (least : Int) : Nat → Node → Parse Node
  | 0, _ => throw .endless
  | fuel + 1, left => do
    let t ← current
    let p := precedence t.kind
    if p < least then return left
    else if isOperator t.kind then
      advance
      let right ← g.expression (p + 1)
      operations g least fuel (.expression left (some t) (some right))
    else if t.kind == .leftBrace then
      operations g least fuel (.applied left (← g.block))
    else return left

def expression (g : Grammar) (least : Int) : Parse Node := do
  let left ← primary g
  operations g least (← bound) left

def expressionOrObject (g : Grammar) : Parse Node := do
  if ← sees .leftBrace then g.object else g.expression 0

/-! ### Blocks -/

def block (g : Grammar) : Parse Node := do
  discard <| consume .leftBrace
  modify fun s => { s with level := s.level + 1 }
  let statements ← untilToken .rightBrace do
    if isTypeWord (← current) then g.keyValueOrStatement else g.statement
  discard <| consume .rightBrace
  modify fun s => { s with level := s.level - 1 }
  return .block statements

def attribute? : Node → Option (String × Node)
  | .keyValue key value => some (key, value)
  | .typed label typeName body => some (label.getD "", .typed label typeName body)
  | .named name _ body => some (name, body)
  | _ => none

/-- An object; commas between its members may be left out. -/
def object (g : Grammar) : Parse Node := do
  discard <| consume .leftBrace
  let members ← untilToken .rightBrace do
    let member ← g.keyValueOrStatement
    discard <| accept .comma
    return member
  discard <| consume .rightBrace
  return .object (Assoc.ofPairs (members.filterMap attribute?))

def looseList (g : Grammar) : Parse Node := do
  discard <| consume .leftBracket
  let elements ← untilToken .rightBracket do
    let element ← g.expression 0
    discard <| accept .comma
    return element
  discard <| consume .rightBracket
  return .list elements

/-- A member of a block. A key without a value is read again as a statement, starting at its label
if it has one. -/
def keyValueOrStatement (g : Grammar) : Parse Node := do
  let key ← current
  if !(isTypeWord key || key.kind == .typeWord) then g.statement
  else
    advance
    let label ← if ← sees .string then some <$> Token.text <$> consume .string else pure none
    if ← accept .colon then
      if (← sees .identifier) && (← seesBehind .leftBrace) then
        let type ← consume .identifier
        return .typed (some key.text) type.text (← g.block)
      else return .keyValue key.text (← expressionOrObject g)
    else if ← accept .equals then return .keyValue key.text (← expressionOrObject g)
    else if ← sees .leftBrace then return .named key.text label (← g.block)
    else
      modify fun s => { s with pos := s.pos - 1 }
      g.statement

/-! ### Statements -/

def mapsTo (g : Grammar) : Parse Node := do
  let source ← current
  advance
  discard <| consume .mapsTo
  return .mapsTo (.literal (.str source.text)) (← g.expression 0)

def returnStatement (g : Grammar) : Parse Node := do
  discard <| consume .returnWord
  return .returns (← g.expression 0)

def statementsOf : Node → List Node
  | .block statements => statements
  | _ => []

/-- The value that the first plain `type` of a block gives. -/
def typeInstance : List Node → Data
  | [] => .null
  | .keyValue "type" (.identifier name) :: _ => .str name
  | .keyValue "type" (.literal value) :: _ => value
  | _ :: rest => typeInstance rest

def plainValues (statements : List Node) : Assoc Data :=
  Assoc.ofPairs <| statements.filterMap fun
    | .keyValue key (.literal value) => some (key, value)
    | .keyValue key (.identifier name) => some (key, .str name)
    | _ => none

/-- A resource; one that names its type has to fit it. -/
def resource (g : Grammar) : Parse Node := do
  discard <| consume .resourceWord
  let kind ← consume .string
  let name ← consume .string
  let body ← g.block
  let type := typeInstance (statementsOf body)
  if type.holds then
    let problems ← (← get).registry.problemsOf type (.map (plainValues (statementsOf body)))
    if !problems.isEmpty then throw (.invalidInstance kind.line problems)
  return .resource kind.text name.text body type

def serviceBlock (g : Grammar) : Parse Node := do
  discard <| consume .identifier
  let name ← consume .string
  return .named "service" (some name.text) (← g.block)

def forLoop (g : Grammar) : Parse Node := do
  discard <| consume .forWord
  let t ← current
  if t.kind != .identifier then throw (.expected .loopVariable t.line)
  advance
  let next ← current
  if next.kind != .inWord then throw (.expected .loopIn next.line)
  advance
  let iterable ← g.expression 0
  let next ← current
  if next.kind != .leftBrace then throw (.expected .loopBody next.line)
  return .forLoop t.text iterable (← g.block)

def conditional (g : Grammar) : Parse Node := do
  discard <| consume .ifWord
  let condition ← g.expression 0
  let yes ← g.block
  let no ← if ← accept .elseWord then some <$> g.block else pure none
  return .conditional condition yes no

def switchBranch (g : Grammar) : Parse (Option Node × Node) := do
  if ← accept .caseWord then
    let value ← g.expression 0
    return (some value, ← g.block)
  else if ← accept .defaultWord then return (none, ← g.block)
  else throw (.expected .switchCase (← current).line)

/-- A switch, in which the last default counts. -/
def switch (g : Grammar) : Parse Node := do
  discard <| consume .switchWord
  let value ← g.expression 0
  discard <| consume .leftBrace
  let branches ← untilToken .rightBrace (switchBranch g)
  discard <| consume .rightBrace
  let cases := branches.filterMap fun (value, body) => value.map (·, body)
  let defaults := branches.filter fun branch => branch.1.isNone
  return .switch value cases (defaults.getLast?.map Prod.snd)

def function (g : Grammar) : Parse Node := do
  discard <| consume .functionWord
  let name ← consume .identifier
  discard <| consume .leftParen
  let params ← parameterList
  discard <| consume .rightParen
  let result ← if ← accept .colon then some <$> typeAnnotation else pure none
  return .function name.text params result (← g.block)

inductive TypeMember where
  | base (name : String)
  | field (name : String) (type : TypeRef) (initial calculated : Option Node)

def typeMember (g : Grammar) : Parse TypeMember := do
  let name ← current
  if name.kind != .identifier then throw (.expected .fieldName name.line)
  advance
  discard <| consume .colon
  let member ← if name.text == "base" then
      TypeMember.base <$> Token.text <$> consume .identifier
    else do
      let type ← typeAnnotation
      if ← accept .equals then
        if ← accept .calcWord then
          discard <| consume .leftBrace
          let e ← g.expression 0
          discard <| consume .rightBrace
          pure (.field name.text type none (some e))
        else pure (.field name.text type (some (← g.expression 0)) none)
      else pure (.field name.text type none none)
  discard <| accept .comma
  return member

namespace TypeMember

def field? : TypeMember → Option (String × Field)
  | field name type initial calculated =>
    some (name, {
      constraint := { admits := .declared type }
      initial := match initial with
        | some node => .computed node
        | none => .absent
      calculated := calculated })
  | base _ => none

def written? : TypeMember → Option (String × TypeRef × Option Node)
  | field name type initial _ => some (name, type, initial)
  | base _ => none

def base? : TypeMember → Option String
  | base name => some name
  | field .. => none

end TypeMember

def typeDefinition (g : Grammar) : Parse Node := do
  let word ← current
  if !(word.kind == .identifier && word.text == "type") then throw (.expected .typeWord word.line)
  advance
  let name ← consume .identifier
  discard <| consume .leftBrace
  let members ← untilToken .rightBrace (typeMember g)
  discard <| consume .rightBrace
  let base := (members.filterMap TypeMember.base?).getLast?
  let fields := Assoc.ofPairs (members.filterMap TypeMember.field?)
  let registry ← (← get).registry.register { name := name.text, fields, base }
  modify fun s => { s with registry }
  return .typeDef false name.text (members.filterMap TypeMember.written?) base

def assignment (g : Grammar) : Parse Node := do
  let name ← consume .identifier
  discard <| consume .equals
  return .assignment name.text (← g.expression 0)

def expressionStatement (g : Grammar) : Parse Node := do
  return .expression (← g.expression 0) none none

/-- Words whose blocks have no statements of the language. -/
def isRawWord (word : String) : Bool := word == "configuration" || word == "containers"

def namedBlock (g : Grammar) : Parse Node := do
  let name ← consume .identifier
  let label ← if ← sees .string then some <$> Token.text <$> consume .string else pure none
  if isRawWord name.text then throw (.noMember "EnhancedHCLParser" "consume_raw_block")
  return .named name.text label (← g.block)

def statement (g : Grammar) : Parse Node := do
  let t ← current
  match t.kind with
  | .returnWord => returnStatement g
  | .resourceWord => resource g
  | .forWord => forLoop g
  | .ifWord => conditional g
  | .switchWord => switch g
  | .functionWord => function g
  | _ =>
    if t.kind == .identifier && t.text == "type" && (← get).level == 0 then typeDefinition g
    else if t.kind == .identifier && t.text == "service" then serviceBlock g
    else if isTypeWord t then
      if ← seesBehind .mapsTo then mapsTo g
      else if ← seesBehind .equals then assignment g
      else if ← seesBehind .leftBrace then namedBlock g
      else expressionStatement g
    else expressionStatement g

/-- The block of no values; the parser has no trees for others. -/
def emptyBlockOf : Data → Parse Node
  | .map [] => return .block []
  | .map _ => throw (.noMember "EnhancedHCLParser" "_value_to_node")
  | d => throw (.noMember d.kind "items")

/-! ### The knot -/

def grammar : Nat → Grammar
  | 0 => ⟨fun _ => throw .endless, throw .endless, throw .endless, throw .endless, throw .endless⟩
  | depth + 1 => {
    expression := fun least s => expression (grammar depth) least s
    block := fun s => block (grammar depth) s
    object := fun s => object (grammar depth) s
    keyValueOrStatement := fun s => keyValueOrStatement (grammar depth) s
    statement := fun s => statement (grammar depth) s }

/-- Nesting costs tokens: between two of them at most six nonterminals open. -/
def depthFor (tokens : List Token) : Nat := 6 * tokens.length + 8

def program (g : Grammar) : Parse Node := do
  return .block (← untilToken .endOfFile (statement g))

def run {α : Type} (p : Grammar → Parse α) (source : String) : Outcome (α × State) := do
  let tokens ← Lexer.tokenize source
  (p (grammar (depthFor tokens))).run { tokens := tokens.toArray }

def parse (source : String) : Outcome (Node × State) := run program source

end Stratus.Parser
