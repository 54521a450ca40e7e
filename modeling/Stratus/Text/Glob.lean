import Stratus.Text.Split

/-!
File name patterns: `*` stands for any text, `?` for one character, and a bracket for one character
of a set, which may be negated and may hold ranges.
-/
namespace Stratus.Text

inductive Glob where
  | anyText
  | anyChar
  | char (c : Char)
  | set (negated : Bool) (ranges : List (Char × Char))

namespace Glob

/-- Splits the inside of a bracket at the hyphens that make ranges: the first character of a piece
is never one. -/
def chunksFrom : Nat → List Char → List Char → List (List Char)
  | _, piece, [] => [piece.reverse]
  | 0, piece, '-' :: cs => piece.reverse :: chunksFrom 1 [] cs
  | n, piece, c :: cs => chunksFrom (n - 1) (c :: piece) cs

/-- A hyphen at the end belongs to the piece before it. -/
def mendLast : List (List Char) → List (List Char)
  | [piece, []] => [piece ++ ['-']]
  | piece :: rest => piece :: mendLast rest
  | [] => []

/-- Ranges of the pieces: a hyphen joins the last character of a piece and the first of the next,
and falls out with both when they are in the wrong order. -/
def joinChunks : List Char → List (List Char) → List (Char × Char)
  | piece, [] => piece.map fun c => (c, c)
  | piece, next :: rest =>
    match piece.getLast?, next with
    | some low, high :: more =>
      if high < low then piece.dropLast.map (fun c => (c, c)) ++ joinChunks more rest
      else (piece.dropLast.map fun c => (c, c)) ++ (low, high) :: joinChunks more rest
    | _, _ => (piece.map fun c => (c, c)) ++ joinChunks next rest

def ranges (inside : List Char) : List (Char × Char) :=
  match mendLast (chunksFrom 1 [] inside) with
  | [] => []
  | piece :: rest => joinChunks piece rest

/-- The inside of a bracket and the rest behind it; a closing bracket at its start is part of it. -/
def bracket? (cs : List Char) : Option (Bool × List Char × List Char) :=
  let (negated, cs) := match cs with
    | '!' :: rest => (true, rest)
    | cs => (false, cs)
  let (first, cs) := match cs with
    | ']' :: rest => ([']'], rest)
    | cs => ([], cs)
  match cs.dropWhile (· != ']') with
  | _ :: rest => some (negated, first ++ cs.takeWhile (· != ']'), rest)
  | [] => none

def parse : Nat → List Char → List Glob
  | 0, _ | _, [] => []
  | fuel + 1, '*' :: cs => anyText :: parse fuel cs
  | fuel + 1, '?' :: cs => anyChar :: parse fuel cs
  | fuel + 1, '[' :: cs =>
    match bracket? cs with
    | some (negated, inside, rest) => set negated (ranges inside) :: parse fuel rest
    | none => char '[' :: parse fuel cs
  | fuel + 1, c :: cs => char c :: parse fuel cs

def someRest (p : List Char → Bool) : List Char → Bool
  | [] => p []
  | c :: cs => p (c :: cs) || someRest p cs

def admits : Glob → Char → Bool
  | anyText, _ | anyChar, _ => true
  | char d, c => c == d
  | set negated ranges, c => (ranges.any fun (low, high) => low ≤ c && c ≤ high) != negated

def matchesAll : List Glob → List Char → Bool
  | [], cs => cs.isEmpty
  | anyText :: parts, cs => someRest (matchesAll parts) cs
  | _ :: _, [] => false
  | part :: parts, c :: cs => part.admits c && matchesAll parts cs

end Glob

def globMatches (pattern text : String) : Bool :=
  Glob.matchesAll (Glob.parse pattern.length pattern.toList) text.toList

end Stratus.Text
