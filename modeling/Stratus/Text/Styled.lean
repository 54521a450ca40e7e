/-!
Text with terminal colours.
-/
namespace Stratus.Text

inductive Colour where
  | red | green | yellow | blue | cyan | white | grey
deriving DecidableEq

def Colour.code : Colour → Nat
  | red => 31
  | green => 32
  | yellow => 33
  | blue => 34
  | cyan => 36
  | white => 37
  | grey => 90

def escape (code : Nat) : String := s!"\x1b[{code}m"

def coloured (c : Colour) (s : String) : String := escape c.code ++ s ++ escape 0

def bold (c : Colour) (s : String) : String := escape c.code ++ escape 1 ++ s ++ escape 0

def plainFrom : Bool → List Char → List Char
  | _, [] => []
  | true, c :: cs => plainFrom (c != 'm') cs
  | false, c :: cs => if c == '\x1b' then plainFrom true cs else c :: plainFrom false cs

def plain (s : String) : String := String.ofList (plainFrom false s.toList)

end Stratus.Text
