import Stratus.Text.Split

/-!
Paths as texts. A path is shown without empty and dot parts; the text before the last point of a
name, if it is neither empty nor all of it, is the stem, and the rest the suffix.
-/
namespace Stratus.Path

def parts (path : String) : List String :=
  (Text.split path "/").filter fun part => part != "" && part != "."

def isAbsolute (path : String) : Bool := Text.startsWith path "/"

def ofParts (absolute : Bool) (ps : List String) : String :=
  if absolute then "/" ++ "/".intercalate ps else if ps.isEmpty then "." else "/".intercalate ps

def shown (path : String) : String := ofParts (isAbsolute path) (parts path)

/-- A path below another one, unless it stands for itself. -/
def join (base path : String) : String :=
  if base == "" || isAbsolute path then shown path else shown (base ++ "/" ++ path)

def name (path : String) : String := (parts path).getLast?.getD ""

def parent (path : String) : String := ofParts (isAbsolute path) (parts path).dropLast

/-- The characters after the last point, counted with it; none if the name starts or ends there. -/
def suffixLength (name : List Char) : Nat :=
  let tail := (name.reverse.takeWhile (· != '.')).length + 1
  if tail < name.length && tail > 1 then tail else 0

def suffix (path : String) : String :=
  let n := (name path).toList
  String.ofList (n.drop (n.length - suffixLength n))

def stem (path : String) : String :=
  let n := (name path).toList
  String.ofList (n.take (n.length - suffixLength n))

def withSuffix (path suffix : String) : String :=
  ofParts (isAbsolute path) ((parts path).dropLast ++ [stem path ++ suffix])

end Stratus.Path
