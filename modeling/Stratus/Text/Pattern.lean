import Stratus.Text.Case
import Stratus.Text.Numeral
import Stratus.Text.Split

/-!
Patterns over characters: literals, runs of a class of characters, and marks. A run takes as much as
it can, or as little, and gives way when what follows does not fit.
-/
namespace Stratus.Text

inductive Piece where
  | literal (cs : List Char)
  | oneOf (choices : List (List Char))
  | run (p : Char → Bool) (least : Nat)
  | shortRun (p : Char → Bool) (least : Nat)
  | maybe (c : Char)
  | mark

abbrev Pattern := List Piece

/-- A character up to case: besides its small form, the long s and the dotless and dotted i count.
-/
def foldCase (c : Char) : Char :=
  if c == 'ſ' then 's' else if c == 'ı' || c == 'İ' then 'i' else Char.ofNat (lowered c.toNat)

namespace Piece

def text (s : String) : Piece := literal s.toList

def words (ss : List String) : Piece := oneOf (ss.map String.toList)

def blanks : Piece := run isBlank 0

def gap : Piece := run isBlank 1

def word : Piece := run isWordChar 1

def digits : Piece := run isDecimal 1

def solid : Piece := run (fun c => !isBlank c) 1

def upTo (c : Char) (least : Nat) : Piece := run (· != c) least

def inLine (c : Char) : Bool := c != '\n'

end Piece

def grab (p : Piece) : Pattern := [.mark, p, .mark]

def quotedGrab : Pattern := .text "\"" :: grab (.upTo '"' 1) ++ [.text "\""]

namespace Pattern

def literalRest (eq : Char → Char → Bool) : List Char → List Char → Option (List Char)
  | [], cs => some cs
  | _ :: _, [] => none
  | x :: xs, c :: cs => if eq x c then literalRest eq xs cs else none

/-- Matches at the start of a text; answers the positions of the marks and of the end. -/
def fit (eq : Char → Char → Bool) : Pattern → List Char → Nat → Option (List Nat × Nat)
  | [], _, here => some ([], here)
  | .mark :: rest, cs, here => (fit eq rest cs here).map fun (marks, stop) => (here :: marks, stop)
  | .literal x :: rest, cs, here =>
    (literalRest eq x cs).bind fun cs => fit eq rest cs (here + x.length)
  | .oneOf xs :: rest, cs, here =>
    xs.findSome? fun x => (literalRest eq x cs).bind fun cs => fit eq rest cs (here + x.length)
  | .maybe c :: rest, cs, here =>
    ((literalRest eq [c] cs).bind fun cs => fit eq rest cs (here + 1)) <|> fit eq rest cs here
  | .run p least :: rest, cs, here =>
    let most := (cs.takeWhile p).length
    (List.range' least (most + 1 - least)).reverse.findSome? fun n => fit eq rest
    (cs.drop n) (here + n)
  | .shortRun p least :: rest, cs, here =>
    let most := (cs.takeWhile p).length
    (List.range' least (most + 1 - least)).findSome? fun n => fit eq rest (cs.drop n) (here + n)

def parts (cs : List Char) : List Nat → List String
  | start :: stop :: rest => String.ofList ((cs.drop start).take (stop - start)) :: parts cs rest
  | _ => []

def searchFrom (eq : Char → Char → Bool) (patterns : List Pattern) :
    List Char → Nat → Option (Nat × List Nat × Nat)
  | cs, here =>
    match patterns.findSome? fun p => fit eq p cs here with
    | some (marks, stop) => some (here, marks, stop)
    | none =>
      match cs with
      | [] => none
      | _ :: rest => searchFrom eq patterns rest (here + 1)
termination_by cs => cs.length

def sameChar (a b : Char) : Bool := a == b

def anyCase (a b : Char) : Bool := foldCase a == foldCase b

/-- The parts asked for in the first match anywhere in a text, of the first pattern that fits there.
-/
def searchAny (patterns : List Pattern) (s : String) : Option (List String) :=
  (searchFrom sameChar patterns s.toList 0).map fun (_, marks, _) => parts s.toList marks

def search (p : Pattern) (s : String) : Option (List String) := searchAny [p] s

def searchAnyCase (p : Pattern) (s : String) : Option (List String) :=
  (searchFrom anyCase [p] s.toList 0).map fun (_, marks, _) => parts s.toList marks

def atStart (p : Pattern) (s : String) : Option (List String) :=
  (fit sameChar p s.toList 0).map fun (marks, _) => parts s.toList marks

def first (p : Pattern) (s : String) : Option String := (search p s).bind List.head?

/-- Drops all matches of a pattern, from left to right; `n` bounds the number of steps. -/
def dropAllFrom (eq : Char → Char → Bool) (p : Pattern) : Nat → List Char → List Char
  | 0, cs => cs
  | _, [] => []
  | n + 1, c :: cs =>
    match fit eq p (c :: cs) 0 with
    | some (_, stop + 1) => dropAllFrom eq p n (cs.drop stop)
    | _ => c :: dropAllFrom eq p n cs

def dropAll (eq : Char → Char → Bool) (p : Pattern) (s : String) : String :=
  String.ofList (dropAllFrom eq p s.length s.toList)

end Pattern

end Stratus.Text
