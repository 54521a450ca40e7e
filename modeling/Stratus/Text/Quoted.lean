import Stratus.Text.Printable

/-!
Quoted text in two conventions: JSON strings in which every character beyond printable ASCII is
escaped, and shown strings, which keep printable characters.
-/
namespace Stratus.Text

def hexDigit (n : Nat) : Char := if n < 10 then Char.ofNat (48 + n) else Char.ofNat (87 + n)

def hex : Nat → Nat → List Char
  | 0, _ => []
  | width + 1, n => hex width (n / 16) ++ [hexDigit (n % 16)]

def unitEscape (n : Nat) : List Char := '\\' :: 'u' :: hex 4 n

def jsonChar (c : Char) : List Char :=
  match c with
  | '"' => ['\\', '"']
  | '\\' => ['\\', '\\']
  | '\n' => ['\\', 'n']
  | '\r' => ['\\', 'r']
  | '\t' => ['\\', 't']
  | '\x08' => ['\\', 'b']
  | '\x0c' => ['\\', 'f']
  | c =>
    let n := c.toNat
    if 0x20 ≤ n && n < 0x7f then [c]
    else if n < 0x10000 then unitEscape n
    else unitEscape (0xd800 + (n - 0x10000) / 0x400) ++ unitEscape (0xdc00 + (n - 0x10000) % 0x400)

def jsonEscaped (s : String) : String := String.ofList (s.toList.flatMap jsonChar)

def jsonQuoted (s : String) : String := "\"" ++ jsonEscaped s ++ "\""

def shownChar (quote c : Char) : List Char :=
  if c == quote || c == '\\' then ['\\', c]
  else if c == '\n' then ['\\', 'n']
  else if c == '\r' then ['\\', 'r']
  else if c == '\t' then ['\\', 't']
  else if isPrintable c then [c]
  else
    let n := c.toNat
    if n < 0x100 then '\\' :: 'x' :: hex 2 n
    else if n < 0x10000 then unitEscape n
    else '\\' :: 'U' :: hex 8 n

/-- Double quotes are used only around a text with single quotes and no double ones. -/
def shownQuote (s : String) : Char :=
  if s.toList.contains '\'' && !s.toList.contains '"' then '"' else '\''

def shown (s : String) : String :=
  let quote := shownQuote s
  String.ofList (quote :: s.toList.flatMap (shownChar quote) ++ [quote])

def commas (parts : List String) : String := ", ".intercalate parts

end Stratus.Text
