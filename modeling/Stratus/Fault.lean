import Stratus.Data.Shown
import Stratus.Source.Token

/-!
Causes of failure, with the wording of each in one place. A fault is deliberate when a rule of the
library refuses its input, and not when a value turned out to have the wrong shape on the way.
-/
namespace Stratus

inductive Expectation where
  | loopVariable | loopIn | loopBody | switchCase | fieldName | typeWord
deriving DecidableEq

def Expectation.text : Expectation → String
  | loopVariable => "Expected identifier after 'for'"
  | loopIn => "Expected 'in' after iterator"
  | loopBody => "Expected '\x7b' after for loop header"
  | switchCase => "Expected 'case' or 'default' in switch statement"
  | fieldName => "Expected field name in type definition"
  | typeWord => "Expected 'type' keyword"

inductive JsonError where
  | expectingValue | expectingName | expectingColon | expectingComma | extraData
  | unterminatedString | controlCharacter | badEscape | badUnicodeEscape | byteOrderMark
deriving DecidableEq

def JsonError.text : JsonError → String
  | expectingValue => "Expecting value"
  | byteOrderMark => "Unexpected UTF-8 BOM (decode using utf-8-sig)"
  | expectingName => "Expecting property name enclosed in double quotes"
  | expectingColon => "Expecting ':' delimiter"
  | expectingComma => "Expecting ',' delimiter"
  | extraData => "Extra data"
  | unterminatedString => "Unterminated string starting at"
  | controlCharacter => "Invalid control character at"
  | badEscape => "Invalid \\escape"
  | badUnicodeEscape => "Invalid \\uXXXX escape"

inductive Fault where
  -- the description language
  | unknownCharacter (c : Char) (line column : Nat)
  | unknownOperator (c : Char) (line column : Nat)
  | unterminatedString (line column : Nat)
  | expectedToken (want got : TokenKind) (line column : Nat)
  | unexpectedToken (kind : TokenKind) (text : String) (line column : Nat)
  | unexpectedInType (kind : TokenKind) (line : Nat)
  | expected (what : Expectation) (line : Nat)
  | badNumeral (text : String)
  | badFloatNumeral (text : String)
  -- types
  | invalidInstance (line : Nat) (problems : List String)
  | baseNotFound (name : String)
  | typeNotFound (name : String)
  | evaluatorMissing
  | unsupportedTypeValue (node : String)
  -- evaluation
  | unsupportedValue (kind : String)
  | notAValue (node : String)
  | notPlainValue (node : String)
  | operatorUnsupported (operator : String)
  | operatorUnknown (operator : String)
  | callsUnsupported
  | nestedCallsUnsupported
  | notEvaluable (node : String)
  | notComputable (node : String)
  | noReturn
  -- services and deployment
  | imageMissing (container : String)
  | providerUnsupported (provider : String)
  | publicKeyMissing (path : String)
  | sourceMissing (path : String)
  | sourceUnreadable (reason : String)
  | failure (reason : String)
  | deploymentFailed
  -- values of the wrong shape
  | noMember (kind member : String)
  | missingKey (key : Data)
  | indexOutOfRange (container : String)
  | notSubscriptable (kind : String)
  | badIndex (container index : String)
  | notIterable (kind : String)
  | notAContainer (kind : String)
  | badTextSearch (kind : String)
  | unhashable (kind : String)
  | unordered (operator left right : String)
  | badOperands (operator left right : String)
  | badConcatenation (kind other : String)
  | badJoin (index : Nat) (kind : String)
  | badArguments (reason : String)
  | notAssignable (kind : String)
  | notErasable (kind : String)
  | badPairs (index length : Nat)
  | unbound (name : String)
  | unplaceable
  | overflow
  | tooDeep
  /-- A repetition that nothing bounds. -/
  | endless
  -- the world outside
  | noFile (path : String)
  | isDirectory (path : String)
  | fileExists (path : String)
  | directoryNotEmpty (path : String)
  | commandFailed (argv : List Data) (code : Int)
  | serviceRefused (code operation : String)
  | badJson (error : JsonError) (line column position : Nat)
  | badDocument (reason : String)
  | badMarkup (reason : String)
  | inputEnded
deriving Inhabited

/-- The families of faults that callers tell apart. -/
inductive Fault.Family where
  | grammar | value | type | unsupported | member | key | index | unbound | overflow | recursion
  | file | directory | present | os | command | service | json | document | markup | input
  | general | deployment
deriving DecidableEq

namespace Fault

def family : Fault → Family
  | unknownCharacter .. | unknownOperator .. | unterminatedString .. | expectedToken ..
  | unexpectedToken .. | unexpectedInType .. | expected .. => .grammar
  | badNumeral _ | badFloatNumeral _ | baseNotFound _ | typeNotFound _ | evaluatorMissing
  | unsupportedTypeValue _ | unsupportedValue _ | operatorUnknown _ | noReturn | imageMissing _
  | providerUnsupported _ | badPairs .. => .value
  | invalidInstance .. | notSubscriptable _ | badIndex .. | notIterable _ | notAContainer _
  | badTextSearch _ | unhashable _ | unordered .. | badOperands .. | badConcatenation ..
  | badJoin .. | badArguments _ | notAssignable _ | notErasable _ | unplaceable => .type
  | notAValue _ | notPlainValue _ | operatorUnsupported _ | callsUnsupported
  | nestedCallsUnsupported | notEvaluable _ | notComputable _ => .unsupported
  | publicKeyMissing _ | sourceMissing _ | noFile _ => .file
  | sourceUnreadable _ | directoryNotEmpty _ => .os
  | isDirectory _ => .directory
  | fileExists _ => .present
  | failure _ => .general
  | deploymentFailed => .deployment
  | noMember .. => .member
  | missingKey _ => .key
  | indexOutOfRange _ => .index
  | unbound _ => .unbound
  | overflow => .overflow
  | tooDeep | endless => .recursion
  | commandFailed .. => .command
  | serviceRefused .. => .service
  | badJson .. => .json
  | badDocument _ => .document
  | badMarkup _ => .markup
  | inputEnded => .input

def deliberate : Fault → Bool
  | unknownCharacter .. | unknownOperator .. | unterminatedString .. | expectedToken ..
  | unexpectedToken .. | unexpectedInType .. | expected .. | invalidInstance .. | baseNotFound _
  | typeNotFound _ | evaluatorMissing | unsupportedTypeValue _ | unsupportedValue _ | notAValue _
  | notPlainValue _ | operatorUnsupported _ | operatorUnknown _ | callsUnsupported
  | nestedCallsUnsupported | notEvaluable _ | notComputable _ | noReturn | imageMissing _
  | providerUnsupported _ | publicKeyMissing _ | sourceMissing _ | sourceUnreadable _ | failure _
  | deploymentFailed => true
  | _ => false

def at_ (line column : Nat) : String := s!" at line {line} column {column}"

def quoted (s : String) : String := "'" ++ s ++ "'"

def message : Fault → String
  | unknownCharacter c line column => s!"Unknown character '{c}'" ++ at_ line column
  | unknownOperator c line column => s!"Unknown operator '{c}'" ++ at_ line column
  | unterminatedString line column => "Unterminated string starting" ++ at_ line column
  | expectedToken want got line column =>
    "Expected token " ++ want.label ++ at_ line column ++ ", got " ++ got.label
  | unexpectedToken kind text line column =>
    "Unexpected token " ++ kind.label ++ " ('" ++ text ++ "')" ++ at_ line column
  | unexpectedInType kind line =>
    "Unexpected token " ++ kind.label ++ s!" in type annotation at line {line}"
  | expected what line => what.text ++ s!" at line {line}"
  | badNumeral text => "invalid literal for int() with base 10: " ++ Text.shown text
  | badFloatNumeral text => "could not convert string to float: " ++ Text.shown text
  | invalidInstance line problems => s!"At line {line}: " ++ "\n".intercalate problems
  | baseNotFound name => s!"Base type {name} not found"
  | typeNotFound name => s!"Type {name} not found"
  | evaluatorMissing => "Evaluator function must be provided to apply_defaults."
  | unsupportedTypeValue node => "Unsupported type value: " ++ node
  | unsupportedValue kind => "Unsupported value type: <class '" ++ kind ++ "'>"
  | notAValue node => "Cannot convert node type: " ++ node ++ " to value"
  | notPlainValue node => "Cannot convert node type " ++ node ++ " to value"
  | operatorUnsupported operator => s!"Operator {operator} not implemented in evaluator."
  | operatorUnknown operator => "Unsupported operator: " ++ operator
  | callsUnsupported => "Function calls are not supported in the evaluator."
  | nestedCallsUnsupported => "Nested function calls are not supported in evaluator."
  | notEvaluable node => "Cannot evaluate node type " ++ node
  | notComputable node => "Cannot evaluate node type: " ++ node
  | noReturn => "No return statement found in function body."
  | imageMissing container => s!"Container {container} is missing required 'image' field"
  | providerUnsupported provider => "Unsupported provider: " ++ provider
  | publicKeyMissing path => "Public key not found at " ++ path
  | sourceMissing path => s!"The file at {path} was not found."
  | sourceUnreadable reason => "An error occurred while reading the file: " ++ reason
  | failure reason => reason
  | deploymentFailed => "Direct ansible deployment failed"
  | noMember kind member => quoted kind ++ " object has no attribute " ++ quoted member
  | missingKey key => key.shown
  | indexOutOfRange container => container ++ " index out of range"
  | notSubscriptable kind => quoted kind ++ " object is not subscriptable"
  | badIndex container index =>
    if container == "str" then "string indices must be integers, not " ++ quoted index
    else container ++ " indices must be integers or slices, not " ++ index
  | notIterable kind => quoted kind ++ " object is not iterable"
  | notAContainer kind => "argument of type " ++ quoted kind ++ " is not iterable"
  | badTextSearch kind => "'in <string>' requires string as left operand, not " ++ kind
  | unhashable kind => "unhashable type: " ++ quoted kind
  | unordered operator left right =>
    quoted operator ++ " not supported between instances of " ++ quoted left ++ " and " ++
      quoted right
  | badOperands operator left right =>
    "unsupported operand type(s) for " ++ operator ++ ": " ++ quoted left ++ " and " ++ quoted right
  | badConcatenation kind other =>
    s!"can only concatenate {kind} (not \"{other}\") to {kind}"
  | badJoin index kind => s!"sequence item {index}: expected str instance, {kind} found"
  | badArguments reason => reason
  | notAssignable kind => quoted kind ++ " object does not support item assignment"
  | notErasable kind => quoted kind ++ " object does not support item deletion"
  | badPairs index length =>
    s!"dictionary update sequence element #{index} has length {length}; 2 is required"
  | unbound name =>
    s!"cannot access local variable '{name}' where it is not associated with a value"
  | unplaceable => "CloudSourceLocation.__init__() got an unexpected keyword argument 'block_name'"
  | overflow => "int too large to convert to float"
  | tooDeep => "maximum recursion depth exceeded"
  | endless => "repetition without end"
  | noFile path => "[Errno 2] No such file or directory: " ++ Text.shown path
  | isDirectory path => "[Errno 21] Is a directory: " ++ Text.shown path
  | fileExists path => "[Errno 17] File exists: " ++ Text.shown path
  | directoryNotEmpty path => "[Errno 39] Directory not empty: " ++ Text.shown path
  | commandFailed argv code =>
    s!"Command '{(Data.list argv).shown}' returned non-zero exit status {code}."
  | serviceRefused code operation =>
    s!"An error occurred ({code}) when calling the {operation} operation: x"
  | badJson error line column position =>
    error.text ++ s!": line {line} column {column} (char {position})"
  | badDocument reason => reason
  | badMarkup reason => reason
  | inputEnded => ""

end Fault

abbrev Outcome (α : Type) := Except Fault α

end Stratus
