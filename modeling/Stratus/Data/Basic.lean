import Stratus.Assoc
import Stratus.Number.Binary64

/-!
Structured data: null, booleans, integers, floating-point numbers, texts, lists and maps that keep
the order of their entries.
-/
namespace Stratus

inductive Data where
  | null
  | bool (b : Bool)
  | int (n : Int)
  | float (x : Binary64)
  | str (s : String)
  | list (items : List Data)
  | map (entries : List (String × Data))
deriving Inhabited

namespace Data

def int? : Data → Option Int
  | bool b => some (if b then 1 else 0)
  | int n => some n
  | _ => none

def str? : Data → Option String
  | str s => some s
  | _ => none

def list? : Data → Option (List Data)
  | list items => some items
  | _ => none

def map? : Data → Option (Assoc Data)
  | map entries => some entries
  | _ => none

def isNull : Data → Bool
  | null => true
  | _ => false

def isStr : Data → Bool
  | str _ => true
  | _ => false

def isList : Data → Bool
  | list _ => true
  | _ => false

def isMap : Data → Bool
  | map _ => true
  | _ => false

/-- Null, false, zero and the empty text, list and map do not hold. -/
def holds : Data → Bool
  | null => false
  | bool b => b
  | int n => n != 0
  | float x => !x.isZero
  | str s => s != ""
  | list items => !items.isEmpty
  | map entries => !entries.isEmpty

def ofOption : Option Data → Data
  | some d => d
  | none => null

def ofText? : Option String → Data
  | some s => str s
  | none => null

def texts (ss : List String) : Data := list (ss.map str)

def kind : Data → String
  | null => "NoneType"
  | bool _ => "bool"
  | int _ => "int"
  | float _ => "float"
  | str _ => "str"
  | list _ => "list"
  | map _ => "dict"

def sameNumber : Data → Data → Bool
  | float x, float y => x.compare? y == some .eq
  | float x, d => (d.int?.bind x.compareInt?) == some .eq
  | d, float y => (d.int?.bind y.compareInt?) == some .eq
  | a, b => match a.int?, b.int? with
    | some m, some n => m == n
    | _, _ => false

mutual

/-- Equality of values: numbers by value whatever their kind, lists in order, maps as sets of
entries. -/
def same : Data → Data → Bool
  | null, null => true
  | str a, str b => a == b
  | list a, list b => sameItems a b
  | map a, map b => a.length == b.length && sameEntries a b
  | a, b => sameNumber a b

def sameItems : List Data → List Data → Bool
  | [], [] => true
  | a :: as, b :: bs => same a b && sameItems as bs
  | _, _ => false

def sameEntries : List (String × Data) → List (String × Data) → Bool
  | [], _ => true
  | (k, a) :: rest, b =>
    (match Assoc.get? b k with
      | some v => same a v
      | none => false) && sameEntries rest b

end

instance : BEq Data := ⟨same⟩

def dropNulls (entries : Assoc Data) : Assoc Data := entries.filter fun e => !e.2.isNull

end Data

end Stratus
