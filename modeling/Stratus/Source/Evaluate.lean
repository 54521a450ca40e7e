import Stratus.Data.Order
import Stratus.Source.Node

/-!
Values of expressions. Identifiers without a value stand for their own names, and texts may hold
references to variables. How far an expression may go depends on where it stands.
-/
namespace Stratus

inductive Setting where
  | fields
  | values
  | body
deriving DecidableEq

namespace Text

/-- The name and the rest of a reference whose opening mark has been read. -/
def reference? (cs : List Char) : Option (String × List Char) :=
  match cs.takeWhile isWordChar, cs.dropWhile isWordChar with
  | c :: name, '\x7d' :: rest => some (String.ofList (c :: name), rest)
  | _, _ => none

/-- Replaces each reference by the text of its variable, last character first; the fuel is the
number of characters left. -/
def interpolateFrom (value : String → String) : Nat → List Char → List Char → List Char
  | fuel + 1, done, '$' :: '\x7b' :: rest =>
    match reference? rest with
    | some (name, rest) => interpolateFrom value fuel ((value name).toList.reverse ++ done) rest
    | none => interpolateFrom value fuel ('$' :: done) ('\x7b' :: rest)
  | fuel + 1, done, c :: rest => interpolateFrom value fuel (c :: done) rest
  | _, done, _ => done

def interpolate (value : String → String) (s : String) : String :=
  String.ofList (interpolateFrom value s.length [] s.toList).reverse

end Text

namespace Node

/-- The value of a literal: in a function's body booleans are spelled out. -/
def literalValue (setting : Setting) (vars : Assoc Data) : Data → Data
  | .str s => .str (Text.interpolate (fun name => (Assoc.getD vars name (.str "")).text) s)
  | .bool b => if setting == .body then .str (if b then "true" else "false") else .bool b
  | d => d

def operate (setting : Setting) (operator : Option String) (left right : Data) : Outcome Data :=
  match operator, setting with
  | some "+", _ => left.add right
  | some "==", _ => .ok (.bool (left.same right))
  | some "!=", _ => .ok (.bool (!left.same right))
  | some ">", _ => .bool <$> Data.compareBy .gt left right
  | some ">=", _ => .bool <$> Data.compareBy .ge left right
  | some "<", _ => .bool <$> Data.compareBy .lt left right
  | some "<=", _ => .bool <$> Data.compareBy .le left right
  | some "&&", _ => .ok (if left.holds then right else left)
  | some "||", _ => .ok (if left.holds then left else right)
  | some "-", .body => left.sub right
  | operator, .body => .error (.operatorUnknown (operator.getD "None"))
  | some ".", _ => .ok (.str (left.text ++ "." ++ right.text))
  | operator, _ => .error (.operatorUnsupported (operator.getD "None"))

def refusal (setting : Setting) (node : Node) : Fault :=
  if setting == .fields then .notEvaluable node.formPath else .notComputable node.formPath

mutual

def evaluate (setting : Setting) (vars : Assoc Data) : Node → Outcome Data
  | literal value => .ok (literalValue setting vars value)
  | identifier name => .ok (Assoc.getD vars name (.str name))
  | expression left operator right => do
    let a ← evaluate setting vars left
    let b ← evaluate? setting vars right
    operate setting (operator.map Token.text) a b
  | ternary condition yes no => do
    if (← evaluate setting vars condition).holds then evaluate setting vars yes
    else evaluate setting vars no
  | list elements =>
    if setting == .fields then .list <$> evaluateAll setting vars elements
    else .error (refusal setting (list elements))
  | object attributes =>
    if setting == .fields then .map <$> evaluateEntries setting vars attributes
    else .error (refusal setting (object attributes))
  | access owner member =>
    if setting == .values then .error (refusal setting (access owner member))
    else do return .str ((← evaluate setting vars owner).text ++ "." ++ member)
  | call callee arguments =>
    match setting with
    | .fields => .error .callsUnsupported
    | .body => .error .nestedCallsUnsupported
    | .values => .error (refusal setting (call callee arguments))
  | block statements =>
    if setting == .body then evaluateBody setting vars statements
    else .error (refusal setting (block statements))
  | returns value =>
    if setting == .body then evaluate setting vars value
    else .error (refusal setting (returns value))
  | node => .error (refusal setting node)

def evaluate? (setting : Setting) (vars : Assoc Data) : Option Node → Outcome Data
  | some node => evaluate setting vars node
  | none => .ok .null

def evaluateAll (setting : Setting) (vars : Assoc Data) : List Node → Outcome (List Data)
  | [] => .ok []
  | n :: rest => do return (← evaluate setting vars n) :: (← evaluateAll setting vars rest)

def evaluateEntries (setting : Setting) (vars : Assoc Data) :
    List (String × Node) → Outcome (List (String × Data))
  | [] => .ok []
  | (k, n) :: rest =>
    do return (k, ← evaluate setting vars n) :: (← evaluateEntries setting vars rest)

def evaluateBody (setting : Setting) (vars : Assoc Data) : List Node → Outcome Data
  | [] => .error .noReturn
  | returns value :: _ => evaluate setting vars value
  | _ :: rest => evaluateBody setting vars rest

end

end Node

end Stratus
