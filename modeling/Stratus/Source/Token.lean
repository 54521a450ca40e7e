/-!
Tokens of the cloud description language: kinds with their names, spellings, and the tables of
keywords and operators.
-/
namespace Stratus

inductive TokenKind where
  | identifier | number | string
  | forWord | inWord | ifWord | elseWord | switchWord | caseWord | defaultWord | typeWord
  | resourceWord | variableWord | outputWord | functionWord | returnWord | nullWord | trueWord
  | falseWord | mapsTo
  | equals | plus | minus | multiply | divide | andOp | orOp | notOp | question | colon | pipe
  | comma | dot
  | equalEqual | notEqual | greaterEqual | lessEqual | greaterThan | lessThan | modulo
  | leftParen | rightParen | leftBrace | rightBrace | leftBracket | rightBracket
  | endOfFile | calcWord
deriving DecidableEq, Inhabited

namespace TokenKind

def name : TokenKind → String
  | identifier => "IDENTIFIER" | number => "NUMBER" | string => "STRING"
  | forWord => "FOR" | inWord => "IN" | ifWord => "IF" | elseWord => "ELSE"
  | switchWord => "SWITCH" | caseWord => "CASE" | defaultWord => "DEFAULT" | typeWord => "TYPE"
  | resourceWord => "RESOURCE" | variableWord => "VARIABLE" | outputWord => "OUTPUT"
  | functionWord => "FUNCTION"
  | returnWord => "RETURN" | nullWord => "NULL" | trueWord => "TRUE" | falseWord => "FALSE"
  | mapsTo => "MAPS_TO" | equals => "EQUALS" | plus => "PLUS" | minus => "MINUS"
  | multiply => "MULTIPLY" | divide => "DIVIDE" | andOp => "AND" | orOp => "OR" | notOp => "NOT"
  | question => "QUESTION" | colon => "COLON" | pipe => "PIPE" | comma => "COMMA" | dot => "DOT"
  | equalEqual => "EQUAL_EQUAL" | notEqual => "NOT_EQUAL" | greaterEqual => "GREATER_EQUAL"
  | lessEqual => "LESS_EQUAL" | greaterThan => "GREATER_THAN" | lessThan => "LESS_THAN"
  | modulo => "MODULO" | leftParen => "LPAREN" | rightParen => "RPAREN" | leftBrace => "LBRACE"
  | rightBrace => "RBRACE" | leftBracket => "LBRACKET" | rightBracket => "RBRACKET"
  | endOfFile => "EOF" | calcWord => "CALC"

/-- Keywords by their spelling; every other word is an identifier. -/
def keywords : List (String × TokenKind) := [
  ("for", forWord), ("in", inWord), ("if", ifWord), ("else", elseWord), ("switch", switchWord),
  ("case", caseWord), ("default", defaultWord), ("resource", resourceWord),
  ("variable", variableWord), ("output", outputWord), ("function", functionWord),
    ("return", returnWord), ("null", nullWord),
  ("true", trueWord), ("false", falseWord), ("calc", calcWord), ("maps_to", mapsTo)]

def operators : List (String × TokenKind) := [
  ("==", equalEqual), ("!=", notEqual), ("&&", andOp), ("||", orOp), (">=", greaterEqual),
  ("<=", lessEqual), (">", greaterThan), ("<", lessThan), ("=", equals), ("+", plus), ("-", minus),
  ("*", multiply), ("/", divide), ("%", modulo), ("!", notOp), ("?", question), (":", colon),
  ("|", pipe), (",", comma), (".", dot), ("(", leftParen), (")", rightParen), ("\x7b", leftBrace),
  ("\x7d", rightBrace), ("[", leftBracket), ("]", rightBracket)]

def ofWord (word : String) : TokenKind := (keywords.lookup word).getD identifier

def spelling (k : TokenKind) : String :=
  match (keywords ++ operators).find? (·.2 == k) with
  | some (word, _) => word
  | none => if k == typeWord then "type" else k.name

def label (k : TokenKind) : String := "TokenType." ++ k.name

end TokenKind

structure Token where
  kind : TokenKind
  text : String
  line : Nat
  column : Nat
deriving DecidableEq, Inhabited

end Stratus
