import Stratus.Fault
import Stratus.Text.Split

/-!
JSON text as data. A failure names its cause and the place in the text: its line, its column and the
number of characters before it.
-/
namespace Stratus.Json

structure Cursor where
  rest : List Char
  position : Nat

abbrev Attempt := Except (JsonError × Nat)

namespace Cursor

def fail {α : Type} (c : Cursor) (e : JsonError) : Attempt α := .error (e, c.position)

def advance (c : Cursor) (n : Nat) : Cursor := ⟨c.rest.drop n, c.position + n⟩

def isGap (ch : Char) : Bool := ch == ' ' || ch == '\t' || ch == '\n' || ch == '\r'

def skipGaps (c : Cursor) : Cursor :=
  let gap := c.rest.takeWhile isGap
  c.advance gap.length

end Cursor

def hexValue? (c : Char) : Option Nat :=
  if '0' ≤ c && c ≤ '9' then some (c.toNat - 48)
  else if 'a' ≤ c && c ≤ 'f' then some (c.toNat - 87)
  else if 'A' ≤ c && c ≤ 'F' then some (c.toNat - 55)
  else none

/-- The value of four hexadecimal digits that do not end the text. -/
def unit? : List Char → Option Nat
  | a :: b :: c :: d :: _ :: _ => do
    let a ← hexValue? a
    let b ← hexValue? b
    let c ← hexValue? c
    let d ← hexValue? d
    some (((a * 16 + b) * 16 + c) * 16 + d)
  | _ => none

def simpleEscape? : Char → Option Char
  | '"' => some '"'
  | '\\' => some '\\'
  | '/' => some '/'
  | 'b' => some '\x08'
  | 'f' => some '\x0c'
  | 'n' => some '\n'
  | 'r' => some '\r'
  | 't' => some '\t'
  | _ => none

/-- The character of one unit or of a pair of surrogates, and how many characters were read behind
the `u`. A surrogate without its partner is replaced. -/
def unicodeEscape? (cs : List Char) : Option (Char × Nat) := do
  let high ← unit? cs
  if 0xd800 ≤ high && high < 0xdc00 then
    match cs.drop 4 with
    | '\\' :: 'u' :: more =>
      match unit? more with
      | some low =>
        if 0xdc00 ≤ low && low < 0xe000 then
          some (Char.ofNat (0x10000 + (high - 0xd800) * 0x400 + (low - 0xdc00)), 10)
        else some (Char.ofNat 0xfffd, 4)
      | none => some (Char.ofNat 0xfffd, 4)
    | _ => some (Char.ofNat 0xfffd, 4)
  else if 0xdc00 ≤ high && high < 0xe000 then some (Char.ofNat 0xfffd, 4)
  else some (Char.ofNat high, 4)

/-- Reads a string behind its opening quote at `start`, the read characters last first; the fuel
bounds the characters left. -/
def stringFrom (start : Nat) : Nat → List Char → Cursor → Attempt (String × Cursor)
  | 0, _, _ => .error (.unterminatedString, start)
  | fuel + 1, read, c =>
    match c.rest with
    | [] => .error (.unterminatedString, start)
    | '"' :: _ => .ok (String.ofList read.reverse, c.advance 1)
    | ['\\'] => .error (.unterminatedString, start)
    | '\\' :: 'u' :: more =>
      match unicodeEscape? more with
      | some (ch, n) => stringFrom start fuel (ch :: read) (c.advance (2 + n))
      | none => .error (.badUnicodeEscape, c.position + 1)
    | '\\' :: e :: _ =>
      match simpleEscape? e with
      | some ch => stringFrom start fuel (ch :: read) (c.advance 2)
      | none => c.fail .badEscape
    | ch :: _ =>
      if ch.toNat < 0x20 then c.fail .controlCharacter
      else stringFrom start fuel (ch :: read) (c.advance 1)

def isDigitChar (c : Char) : Bool := '0' ≤ c && c ≤ '9'

def digitsNat (cs : List Char) : Nat := cs.foldl (fun n c => 10 * n + (c.toNat - 48)) 0

def exponent? (cs : List Char) : Option (Int × Nat) :=
  match cs with
  | mark :: more =>
    if mark == 'e' || mark == 'E' then
      let (negative, signs, digits) := match more with
        | '-' :: ds => (true, 1, ds)
        | '+' :: ds => (false, 1, ds)
        | ds => (false, 0, ds)
      let digits := digits.takeWhile isDigitChar
      if digits.isEmpty then none
      else
        let n : Int := digitsNat digits
        some (if negative then -n else n, 1 + signs + digits.length)
    else none
  | [] => none

/-- Reads a number: an integer part without leading zeros, then a fraction and an exponent if they
have digits. -/
def number? (cs : List Char) : Option (Data × Nat) := do
  let (negative, sign, body) := match cs with
    | '-' :: more => (true, 1, more)
    | more => (false, 0, more)
  let whole ← match body with
    | '0' :: _ => some ['0']
    | d :: _ => if isDigitChar d then some (body.takeWhile isDigitChar) else none
    | [] => none
  let afterWhole := body.drop whole.length
  let fraction := match afterWhole with
    | '.' :: more => more.takeWhile isDigitChar
    | _ => []
  let fractionLength := if fraction.isEmpty then 0 else fraction.length + 1
  let e := exponent? (afterWhole.drop fractionLength)
  let length := sign + whole.length + fractionLength + (e.map (·.2)).getD 0
  if fraction.isEmpty && e.isNone then
    let n : Int := digitsNat whole
    some (.int (if negative then -n else n), length)
  else
    let x := Binary64.ofDecimal negative (digitsNat (whole ++ fraction))
      ((e.map (·.1)).getD 0 - fraction.length)
    some (.float x, length)

def words : List (String × Data) := [
  ("null", .null), ("true", .bool true), ("false", .bool false),
  ("NaN", .float ⟨0x7ff8000000000000⟩), ("Infinity", .float ⟨0x7ff0000000000000⟩),
  ("-Infinity", .float ⟨0xfff0000000000000⟩)]

def scalar (c : Cursor) : Attempt (Data × Cursor) :=
  match words.find? fun w => (Text.after? w.1.toList c.rest).isSome with
  | some (word, d) => .ok (d, c.advance word.length)
  | none =>
    match number? c.rest with
    | some (d, n) => .ok (d, c.advance n)
    | none => c.fail .expectingValue

mutual

/-- Reads a value at the cursor; the fuel bounds the characters left. -/
def value : Nat → Cursor → Attempt (Data × Cursor)
  | 0, c => c.fail .expectingValue
  | fuel + 1, c =>
    match c.rest with
    | '"' :: _ => do
      let (s, c) ← stringFrom c.position (fuel + 1) [] (c.advance 1)
      .ok (.str s, c)
    | '[' :: _ =>
      let c := (c.advance 1).skipGaps
      match c.rest with
      | ']' :: _ => .ok (.list [], c.advance 1)
      | _ => items fuel [] c
    | '\x7b' :: _ =>
      let c := (c.advance 1).skipGaps
      match c.rest with
      | '\x7d' :: _ => .ok (.map [], c.advance 1)
      | _ => members fuel [] c
    | _ => scalar c

def items : Nat → List Data → Cursor → Attempt (Data × Cursor)
  | 0, _, c => c.fail .expectingValue
  | fuel + 1, read, c => do
    let (d, c) ← value fuel c
    let c := c.skipGaps
    match c.rest with
    | ']' :: _ => .ok (.list (d :: read).reverse, c.advance 1)
    | ',' :: _ => items fuel (d :: read) (c.advance 1).skipGaps
    | _ => c.fail .expectingComma

def members : Nat → List (String × Data) → Cursor → Attempt (Data × Cursor)
  | 0, _, c => c.fail .expectingName
  | fuel + 1, read, c =>
    match c.rest with
    | '"' :: _ => do
      let (name, c) ← stringFrom c.position (fuel + 1) [] (c.advance 1)
      let c := c.skipGaps
      match c.rest with
      | ':' :: _ =>
        let (d, c) ← value fuel (c.advance 1).skipGaps
        let c := c.skipGaps
        match c.rest with
        | '\x7d' :: _ => .ok (.map (Assoc.ofPairs ((name, d) :: read).reverse), c.advance 1)
        | ',' :: _ => members fuel ((name, d) :: read) (c.advance 1).skipGaps
        | _ => c.fail .expectingComma
      | _ => c.fail .expectingColon
    | _ => c.fail .expectingName

end

def faultAt (text : List Char) (e : JsonError) (position : Nat) : Fault :=
  let before := text.take position
  let column := (before.reverse.takeWhile (· != '\n')).length + 1
  .badJson e (before.count '\n' + 1) column position

def read (text : String) : Outcome Data :=
  let cs := text.toList
  if cs.head? == some '\ufeff' then .error (faultAt cs .byteOrderMark 0) else
  match value (cs.length + 1) (Cursor.skipGaps ⟨cs, 0⟩) with
  | .error (e, position) => .error (faultAt cs e position)
  | .ok (d, c) =>
    let c := c.skipGaps
    if c.rest.isEmpty then .ok d else .error (faultAt cs .extraData c.position)

end Stratus.Json
