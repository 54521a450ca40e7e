import Stratus.Text.Ranges

/-!
Cutting and searching text: stripping, splitting at characters, separators and lines, replacing.
The work is done on character lists; the functions on `String` are their readings.
-/
namespace Stratus.Text

def trimEnd (p : Char → Bool) (cs : List Char) : List Char := (cs.reverse.dropWhile p).reverse

def trim (p : Char → Bool) (cs : List Char) : List Char := trimEnd p (cs.dropWhile p)

def after? : List Char → List Char → Option (List Char)
  | [], cs => some cs
  | p :: ps, c :: cs => if p == c then after? ps cs else none
  | _ :: _, [] => none

def cut? (sep : List Char) : List Char → Option (List Char × List Char)
  | [] => if sep.isEmpty then some ([], []) else none
  | c :: cs =>
    match after? sep (c :: cs) with
    | some rest => some ([], rest)
    | none => (cut? sep cs).map fun (before, rest) => (c :: before, rest)

def occurs (part cs : List Char) : Bool := (cut? part cs).isSome

/-- Pieces between the non-overlapping occurrences of a separator; `skip` characters of an
occurrence are still to be passed and `piece` is read so far, last first. -/
def piecesFrom (sep : List Char) : Nat → List Char → List Char → List (List Char)
  | _, piece, [] => [piece.reverse]
  | skip + 1, piece, _ :: cs => piecesFrom sep skip piece cs
  | 0, piece, c :: cs =>
    if (after? sep (c :: cs)).isSome then piece.reverse :: piecesFrom sep (sep.length - 1) [] cs
    else piecesFrom sep 0 (c :: piece) cs

def pieces (sep cs : List Char) : List (List Char) := piecesFrom sep 0 [] cs

def wordsFrom (p : Char → Bool) : List Char → List Char → List (List Char)
  | word, [] => if word.isEmpty then [] else [word.reverse]
  | word, c :: cs =>
    if p c then (if word.isEmpty then wordsFrom p [] cs else word.reverse :: wordsFrom p [] cs)
    else wordsFrom p (c :: word) cs

/-- Lines ended by any line boundary; a carriage return and line feed are one, and a text that ends
at one has no empty last line. -/
def linesFrom : List Char → List Char → List (List Char)
  | line, [] => if line.isEmpty then [] else [line.reverse]
  | line, '\r' :: '\n' :: cs => line.reverse :: linesFrom [] cs
  | line, c :: cs =>
    if isLineBreak c then line.reverse :: linesFrom [] cs else linesFrom (c :: line) cs

def feedLinesFrom : List Char → List Char → List (List Char)
  | line, [] => if line.isEmpty then [] else [line.reverse]
  | line, c :: cs =>
    if c == '\n' then ('\n' :: line).reverse :: feedLinesFrom [] cs else feedLinesFrom (c :: line) cs

def unifyNewlines : List Char → List Char
  | [] => []
  | '\r' :: '\n' :: cs => '\n' :: unifyNewlines cs
  | c :: cs => (if c == '\r' then '\n' else c) :: unifyNewlines cs

def strip (s : String) : String := String.ofList (trim isBlank s.toList)

def stripEnd (s : String) : String := String.ofList (trimEnd isBlank s.toList)

def stripChar (c : Char) (s : String) : String := String.ofList (trim (· == c) s.toList)

def startsWith (s start : String) : Bool := (after? start.toList s.toList).isSome

def endsWith (s tail : String) : Bool := (after? tail.toList.reverse s.toList.reverse).isSome

def contains (s part : String) : Bool := occurs part.toList s.toList

def containsAny (s : String) (parts : List String) : Bool := parts.any (contains s)

def find? (s part : String) : Option Nat := (cut? part.toList s.toList).map (·.1.length)

def split (s sep : String) : List String := (pieces sep.toList s.toList).map String.ofList

def before (s sep : String) : String :=
  match cut? sep.toList s.toList with
  | some (head, _) => String.ofList head
  | none => s

def splitOnce? (s sep : String) : Option (String × String) :=
  (cut? sep.toList s.toList).map fun (head, tail) => (String.ofList head, String.ofList tail)

def replace (s old new : String) : String := new.intercalate (split s old)

def words (s : String) : List String := (wordsFrom isBlank [] s.toList).map String.ofList

def lines (s : String) : List String := (linesFrom [] s.toList).map String.ofList

def feedLines (s : String) : List String := (feedLinesFrom [] s.toList).map String.ofList

def withUnixNewlines (s : String) : String := String.ofList (unifyNewlines s.toList)

def drop (n : Nat) (s : String) : String := String.ofList (s.toList.drop n)

def take (n : Nat) (s : String) : String := String.ofList (s.toList.take n)

def repeated (n : Nat) (s : String) : String := String.join (List.replicate n s)

def joined (sep : String) (parts : List String) : String := sep.intercalate parts

end Stratus.Text
