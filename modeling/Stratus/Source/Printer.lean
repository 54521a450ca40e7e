import Stratus.Source.Expand
import Stratus.Source.Parser
import Stratus.Source.Settle

/-!
Configuration text of trees. Printing keeps the depth of indentation, the functions seen so far and
the mappings collected for the next deployment block.
-/
namespace Stratus

namespace Printer

structure State where
  indent : Int := 0
  functions : Assoc (List Param × Node) := []
  mappings : Assoc String := []

abbrev Print := ExceptT Fault (StateM State)

abbrev Printed := Option String

abbrev Visit := Node → Print Printed

/-- How far settling may deepen a tree. -/
def maxDepth : Nat := 1000

/-! ### Pieces -/

def padding (level : Int) : String := Text.repeated level.toNat "  "

def indentation : Print String := do return padding (← get).indent

def indentBy (n : Int) : Print Unit := modify fun s => { s with indent := s.indent + n }

def inline (p : Printed) : String := p.getD "None"

/-- A print that has to be a text, asked for through an operation on texts. -/
def demand (member : String) : Printed → Print String
  | some s => return s
  | none => throw (.noMember "NoneType" member)

def joinPrints (sep : String) (prints : List Printed) : Print String := do
  Data.joinTexts sep (prints.map Data.ofText?)

def openBrace : String := "\x7b\n"

def isKeyStart (c : Char) : Bool := c.isAlpha || c == '_'

def isKeyPart (c : Char) : Bool := c.isAlphanum || c == '_' || c == '-'

/-- Keys that are written without quotes; a line feed at the end is overlooked. -/
def isPlainKey (key : String) : Bool :=
  match key.toList with
  | c :: rest =>
    isKeyStart c && (rest.dropWhile isKeyPart == [] || rest.dropWhile isKeyPart == ['\n'])
  | [] => false

def quoted (s : String) : String := "\"" ++ s ++ "\""

def key (k : String) : String := if isPlainKey k then k else quoted k

def label : Option String → String
  | some l => if l == "" then "" else " " ++ quoted l
  | none => ""

/-- A type as written in a comment: members of a union are quoted unless primitive. -/
def typeText (t : TypeRef) : String :=
  let one (m : TypeRef) : String :=
    if m.name == "string" || m.name == "bool" || m.name == "number" then m.name else quoted m.name
  let text := if t.members.isEmpty then t.name else " | ".intercalate (t.members.map one)
  if t.nullable then text ++ "?" else text

def literal : Data → String
  | .null => "null"
  | .str s => Text.jsonQuoted s
  | .bool b => if b then "true" else "false"
  | d => d.text

def indentLines (level : Int) (s : String) : String :=
  "\n".intercalate <| (Text.split s "\n").map fun line => if line == "" then line
    else padding level ++ line

def relaid (level : Int) (text : String) : String :=
  let inner := ((Text.split text "\n").drop 1).dropLast
  String.join <| inner.filterMap fun line =>
    let stripped := Text.strip line
    if stripped == "" then none else some (padding level ++ stripped ++ "\n")

def mappingsText : Print String := do
  indentBy 1
  let s ← get
  let entries := s.mappings.map fun (k, v) => s!"{padding s.indent}{key k} = {quoted v}\n"
  indentBy (-1)
  return "mappings = \x7b\n" ++ String.join entries ++ (← indentation) ++ "\x7d"

/-! ### Statements -/

/-- A header, the lines of a block laid out anew, and a closing brace at the margin. -/
def relaidBlock (visit : Visit) (header : String) (body : Node) : Print Printed := do
  indentBy 1
  let text ← demand "split" (← visit body)
  let lines := relaid (← get).indent text
  indentBy (-1)
  return some (header ++ lines ++ "\x7d")

def block (visit : Visit) (braces : Bool) (statements : List Node) : Print Printed := do
  if statements.isEmpty then return some (if braces then "\x7b\x7d" else "")
  let root := (← get).indent == 0
  let inner := braces && !root
  if inner then indentBy 1
  let mut result := if inner then openBrace else ""
  for (statement, index) in statements.zipIdx do
    let text := (← visit statement).getD ""
    if text != "" then
      if root && braces then result := result ++ (if index > 0 then "\n\n" else "") ++ text
      else result := result ++ (← indentation) ++ text ++ "\n"
  if inner then
    indentBy (-1)
    result := result ++ (← indentation) ++ "\x7d"
  return some (Text.stripEnd result)

def memberLines (visit : Visit) : List Node → Print String
  | [] => return ""
  | statement :: rest => do
    let text ← demand "strip" (← visit statement)
    let pad ← indentation
    let line := if Text.strip text == "" then "" else pad ++ text ++ "\n"
    return line ++ (← memberLines visit rest)

def isMapping : Node → Bool
  | .mapsTo .. => true
  | _ => false

/-- A deployment block shows the mappings first and forgets them. -/
def deployment (visit : Visit) (label? : Option String) (body : Node) : Print Printed := do
  let statements ← body.statements
  for statement in statements do
    if isMapping statement then discard <| visit statement
  indentBy 1
  let mappings ← if (← get).mappings.isEmpty then pure "" else do
    let text ← mappingsText
    let line := (← indentation) ++ text ++ "\n"
    modify fun s => { s with mappings := [] }
    pure line
  let lines ← memberLines visit (statements.filter (!isMapping ·))
  indentBy (-1)
  return some (s!"deployment{label label?} \x7b\n" ++ mappings ++ lines ++ (← indentation) ++ "\x7d")

def named (visit : Visit) (name : String) (label? : Option String) (body : Node) :
    Print Printed := do
  if name == "deployment" then deployment visit label? body
  else
    indentBy 1
    let lines ← memberLines visit (← body.statements)
    indentBy (-1)
    return some (s!"{name}{label label?} \x7b\n" ++ lines ++ (← indentation) ++ "\x7d")

def resource (visit : Visit) (r : Registry) (kind name : String) (body : Node) : Print Printed := do
  let body ← Settle.resourceBody r body
  relaidBlock visit (s!"resource {quoted kind} {quoted name} " ++ openBrace) body

def typed (visit : Visit) (label? : Option String) (typeName : String) (body : Node) :
    Print Printed := do
  let text ← visit body
  indentBy 1
  let lines := relaid (← get).indent (← demand "split" text)
  indentBy (-1)
  return some (s!"type = {typeName}{label label?} \x7b\n" ++ lines ++ "\x7d")

def carried : Node → Outcome Node
  | .typed _ _ body | .resource _ _ body _ | .named _ _ body | .applied _ body => .ok body
  | node => .error (.noMember node.form "block")

/-- A service block, whose name is printed for its effects only. -/
def serviceBlock (visit : Visit) (node : Node) : Print Printed := do
  let body ← carried node
  let name? := (← body.statements).findSome? fun
    | .keyValue "name" value => some value
    | _ => none
  if let some value := name? then discard <| visit value
  relaidBlock visit ("service \"web_app\" " ++ openBrace) body

def applied (visit : Visit) (head body : Node) : Print Printed := do
  match head with
  | .identifier "service" => serviceBlock visit (.applied head body)
  | head =>
    let text := inline (← visit head)
    relaidBlock visit (text ++ " " ++ openBrace) body

def forLoop (visit : Visit) (iterator : String) (iterable body : Node) : Print Printed := do
  let items := inline (← visit iterable)
  indentBy 1
  let pad ← indentation
  let content := inline (← visit body)
  indentBy (-1)
  return some (s!"dynamic {quoted iterator} \x7b\n{pad}for_each = {items}\n{pad}content {content}\n" ++
    (← indentation) ++ "\x7d")

def conditional (visit : Visit) (condition yes : Node) (no : Option Node) : Print Printed := do
  let test := inline (← visit condition)
  let content := inline (← visit yes)
  let other ← match no with
    | some no => do pure (some (inline (← visit no)))
    | none => pure none
  let (few, rest) := match other with
    | some text => ("[0]", s!"  else {text}\n")
    | none => ("[]", "")
  return some (s!"dynamic \"conditional\" \x7b\n  for_each = {test} ? [1] : {few}\n  content {content}\n{rest}" ++
    (← indentation) ++ "\x7d")

def switch (visit : Visit) (value : Node) (cases : List (Node × Node)) (otherwise : Option Node) :
    Print Printed := do
  let subject := inline (← visit value)
  let branches ← cases.mapM fun (test, body) => do
    let test := inline (← visit test)
    let body := inline (← visit body)
    return some s!"{subject} == {test} ? {body}"
  let last ← match otherwise with
    | some body => do pure [← visit body]
    | none => pure []
  return some (← joinPrints " : " (branches ++ last))

def function (visit : Visit) (name : String) (params : List Param) (body : Node) :
    Print Printed := do
  modify fun s => { s with functions := Assoc.set s.functions name (params, body) }
  indentBy 1
  let statements ← body.statements
  let lines ← statements.mapM fun
    | .returns value => do
      let text := inline (← visit value)
      return (← indentation) ++ s!"{name} = {text}\n"
    | _ => return ""
  indentBy (-1)
  return some ("locals \x7b\n" ++ String.join lines ++ "\x7d")

def typeDef (visit : Visit) (name : String) (fields : List (String × TypeRef × Option Node)) :
    Print Printed := do
  let lines ← fields.mapM fun (field, type, initial) => do
    let shown ← match initial with
      | some node => do pure (" = " ++ inline (← visit node))
      | none => pure ""
    return s!"#   {field}: {typeText type}{shown}\n"
  return some (s!"# Type {name} definition\n" ++ String.join lines)

def mapsTo (visit : Visit) (source target : Node) : Print Printed := do
  let bare (node : Node) : Print String := do
    return Text.stripChar '"' (← demand "strip" (← visit node))
  let source ← bare source
  let target ← bare target
  modify fun s => { s with mappings := Assoc.set s.mappings source target }
  return none

/-! ### Expressions -/

/-- The text of a value that a function returns; a text is quoted unless it is already. -/
def returned : Data → String
  | .str s => if Text.startsWith s "\"" && Text.endsWith s "\"" then s else quoted s
  | .bool b => if b then "true" else "false"
  | .null => "null"
  | d => d.text

/-- The value of a call to a known function; none if the function cannot be evaluated. -/
def called (params : List Param) (body : Node) (arguments : List Node) : Outcome (Option Data) := do
  let values ← arguments.mapM (Node.evaluate .values [])
  let vars := Assoc.ofPairs ((params.map Param.name).zip values)
  return (body.evaluate .body vars).toOption

def call (visit : Visit) (callee : Node) (arguments : List Node) : Print Printed := do
  let known? := match callee with
    | .identifier name => if name == "" then none else some name
    | _ => none
  let function? := known?.bind (Assoc.get? (← get).functions)
  let value? ← match function? with
    | some (params, body) => called params body arguments
    | none => pure none
  match value? with
  | some d => return some (returned d)
  | none =>
    let name := inline (← visit callee)
    let texts ← joinPrints ", " (← arguments.mapM visit)
    return some s!"{name}({texts})"

def list (visit : Visit) (elements : List Node) : Print Printed := do
  if elements.isEmpty then return some "[]"
  if elements.all Node.isAtom then
    return some ("[" ++ (← joinPrints ", " (← elements.mapM visit)) ++ "]")
  indentBy 1
  let lines ← elements.mapM fun element => do
    let text := inline (← visit element)
    return (← indentation) ++ text
  indentBy (-1)
  return some ("[\n" ++ ",\n".intercalate lines ++ "\n" ++ (← indentation) ++ "]")

def object (visit : Visit) (attributes : Assoc Node) : Print Printed := do
  if attributes.isEmpty then return some "\x7b\x7d"
  indentBy 1
  let lines ← attributes.mapM fun (k, node) => do
    let text := inline (← visit node)
    return (← indentation) ++ s!"{key k} = {text}\n"
  indentBy (-1)
  return some (openBrace ++ String.join lines ++ (← indentation) ++ "\x7d")

def expression (visit : Visit) (left : Node) (operator : Option Token) (right : Option Node) :
    Print Printed :=
  match operator, right with
  | some op, some right => do
    let a := inline (← visit left)
    let b := inline (← visit right)
    return some s!"{a} {op.text} {b}"
  | _, _ => visit left

/-- A statement that is an expression has no print of its own, be it a service or not. -/
def expressionStatement (node : Node) : Print Printed :=
  match node with
  | .expression (.identifier "service") .. => do discard <| carried node; return none
  | .expression .. => throw (.noMember "super" "visit_expression_statement")
  | node => throw (.noMember node.form "left")

/-! ### The knot -/

def step (r : Registry) (visit : Visit) : Node → Print Printed
  | .keyValue k value => do return some (key k ++ " = " ++ inline (← visit value))
  | .block statements => block visit true statements
  | .typed label? typeName body => typed visit label? typeName body
  | .ternary condition yes no => do
    let test := inline (← visit condition)
    let a := inline (← visit yes)
    let b := inline (← visit no)
    return some s!"{test} ? {a} : {b}"
  | .resource kind name body _ => resource visit r kind name body
  | .forLoop iterator iterable body => forLoop visit iterator iterable body
  | .conditional condition yes no => conditional visit condition yes no
  | .switch value cases otherwise => switch visit value cases otherwise
  | .function name params _ body => function visit name params body
  | .assignment name value => do return some (name ++ " = " ++ inline (← visit value))
  | .expression left operator right => expression visit left operator right
  | .returns value => do return some ("return " ++ inline (← visit value))
  | .range callee arguments => do
    let texts ← joinPrints ", " (← arguments.mapM visit)
    return some s!"{callee}({texts})"
  | .literal value => return some (literal value)
  | .identifier name => return some name
  | .call callee arguments => call visit callee arguments
  | .access owner member => do return some (inline (← visit owner) ++ "." ++ member)
  | .list elements => list visit elements
  | .object attributes => object visit attributes
  | .named name label? body => named visit name label? body
  | .typeDef _ name fields _ => typeDef visit name fields
  | .applied head body => applied visit head body
  | .raw name label? content => do
    return some (s!"{name}{label label?} \x7b\n{content}\n" ++ (← indentation) ++ "\x7d")
  | .mapsTo source target => mapsTo visit source target

def within (r : Registry) : Nat → Node → Print Printed
  | 0, _ => throw .tooDeep
  | depth + 1, node => step r (within r depth) node

/-- Prints a tree; its own height never exceeds the bound. -/
def visit (r : Registry) (node : Node) : Print Printed := within r (maxDepth + node.height) node

/-- The statements of a program, each on a line of its own; silent definitions are passed over. -/
def program (visit : Visit) (statements : List Node) : Print Printed := do
  let texts ← statements.zipIdx.mapM fun (statement, index) => do
    match statement with
    | .typeDef true .. => return ""
    | statement =>
      let text := (← visit statement).getD ""
      return if text == "" then "" else if index > 0 then "\n" ++ text else text
  return some (Text.strip (String.join texts))

def print (r : Registry) : Node → Print Printed
  | .block statements => program (visit r) statements
  | node => visit r node

end Printer

def configurationText (source : String) : Outcome String := do
  let (tree, state) ← Parser.parse source
  let tree ← tree.expand state.registry
  return Printer.inline (← ((Printer.print state.registry tree).run.run {}).1)

end Stratus
