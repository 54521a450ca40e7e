import Stratus.Fault
import Stratus.Text.Split

/-!
Text of the description language as tokens. Line breaks inside a string count as columns, and of a
comment only its mark does.
-/
namespace Stratus.Lexer

structure Position where
  line : Nat
  column : Nat
deriving DecidableEq, Inhabited

namespace Position

def start : Position := ⟨1, 1⟩

def right (p : Position) (n : Nat) : Position := { p with column := p.column + n }

def nextLine (p : Position) : Position := ⟨p.line + 1, 1⟩

def past (p : Position) (c : Char) : Position := if c == '\n' then p.nextLine else p.right 1

end Position

def startsWord (c : Char) : Bool := Text.isLetter c || c == '_'

def continuesWord (c : Char) : Bool := Text.isAlphanumeric c || c == '_' || c == '$'

def numeral : Bool → List Char → List Char × List Char
  | _, [] => ([], [])
  | pointed, c :: cs =>
    if Text.isDigit c then
      let (run, rest) := numeral pointed cs
      (c :: run, rest)
    else if c == '.' && !pointed then
      let (run, rest) := numeral true cs
      (c :: run, rest)
    else ([], c :: cs)

/-- The character that an escaped one stands for; unknown escapes stand for themselves. -/
def unescape (c : Char) : Char :=
  if c == 'n' then '\n' else if c == 'r' then '\r' else if c == 't' then '\t' else c

/-- A string behind its opening quote: its value, the characters up to the closing quote, and the
rest. -/
def quotedRun (quote : Char) : List Char → Option (List Char × Nat × List Char)
  | [] => none
  | ['\\'] => none
  | '\\' :: c :: cs =>
    (quotedRun quote cs).map fun (value, n, rest) => (unescape c :: value, n + 2, rest)
  | c :: cs =>
    if c == quote then some ([], 1, cs)
    else (quotedRun quote cs).map fun (value, n, rest) => (c :: value, n + 1, rest)

def operator? (cs : List Char) : Option (String × TokenKind) :=
  TokenKind.operators.find? fun op => (Text.after? op.1.toList cs).isSome

/-- The rest behind a comment and its line break, and the position there. -/
def skipComment (p : Position) (cs : List Char) : Position × List Char :=
  match cs.dropWhile (· != '\n') with
  | _ :: rest => (p.nextLine, rest)
  | [] => (p, [])

def step (p : Position) (c : Char) (cs : List Char) :
    Outcome (Option Token × Position × List Char) :=
  if Text.isBlank c then .ok (none, p.past c, cs)
  else if c == '#' then
    let (p, rest) := skipComment (p.right 1) cs
    .ok (none, p, rest)
  else if c == '/' && cs.head? == some '/' then
    let (p, rest) := skipComment (p.right 2) (cs.drop 1)
    .ok (none, p, rest)
  else if startsWord c then
    let word := c :: cs.takeWhile continuesWord
    let text := String.ofList word
    .ok (some ⟨.ofWord text, text, p.line, p.column⟩, p.right word.length,
      cs.dropWhile continuesWord)
  else if Text.isDigit c then
    let (run, rest) := numeral false (c :: cs)
    .ok (some ⟨.number, String.ofList run, p.line, p.column⟩, p.right run.length, rest)
  else if c == '"' || c == '\'' then
    match quotedRun c cs with
    | some (value, n, rest) =>
      .ok (some ⟨.string, String.ofList value, p.line, p.column + 1⟩, p.right (n + 1), rest)
    | none => .error (.unterminatedString p.line (p.column + 1))
  else
    match operator? (c :: cs) with
    | some (text, kind) =>
      .ok (some ⟨kind, text, p.line, p.column⟩, p.right text.length, (c :: cs).drop text.length)
    | none => .error (.unknownCharacter c p.line p.column)

/-- Tokens of the rest of a text, behind those read so far, last first; each step reads a character
or more. -/
def scan : Nat → Position → List Token → List Char → Outcome (List Token)
  | _, p, read, [] => .ok (⟨.endOfFile, "", p.line, p.column⟩ :: read).reverse
  | 0, p, _, c :: _ => .error (.unknownCharacter c p.line p.column)
  | fuel + 1, p, read, c :: cs => do
    let (token, p, rest) ← step p c cs
    scan fuel p (token.toList ++ read) rest

def tokenize (source : String) : Outcome (List Token) :=
  scan source.length .start [] source.toList

/-- The operator that stands at an index, as if the text began there, and the index behind it. -/
def operatorAt (source : String) (index : Nat) : Outcome (Token × Nat) :=
  match source.toList.drop index with
  | [] => .error (.indexOutOfRange "string")
  | c :: cs =>
    match operator? (c :: cs) with
    | some (text, kind) => .ok (⟨kind, text, 1, 1⟩, index + text.length)
    | none => .error (.unknownOperator c 1 1)

end Stratus.Lexer
