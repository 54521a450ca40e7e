import Stratus.Fault

/-!
Order and arithmetic of values: numbers compare across kinds, texts by code points, lists by their
first difference; sums join numbers, texts or lists.
-/
namespace Stratus

inductive Comparison where
  | lt | le | gt | ge
deriving DecidableEq

namespace Comparison

def sign : Comparison → String
  | lt => "<"
  | le => "<="
  | gt => ">"
  | ge => ">="

def admits : Comparison → Ordering → Bool
  | lt, o => o == .lt
  | le, o => o != .gt
  | gt, o => o == .gt
  | ge, o => o != .lt

end Comparison

namespace Data

/-- Order of two numbers; the inner option is empty when one of them is not a number. -/
def compareNumbers? : Data → Data → Option (Option Ordering)
  | float x, float y => some (x.compare? y)
  | float x, d => d.int?.map x.compareInt?
  | d, float y => d.int?.map fun n => (y.compareInt? n).map Ordering.swap
  | a, b => do
    let m ← a.int?
    let n ← b.int?
    some (some (compare m n))

def compareTexts : List Char → List Char → Ordering
  | [], [] => .eq
  | [], _ => .lt
  | _, [] => .gt
  | a :: as, b :: bs => if a == b then compareTexts as bs else compare a.toNat b.toNat

mutual

def compareBy (c : Comparison) : Data → Data → Outcome Bool
  | str a, str b => .ok (c.admits (compareTexts a.toList b.toList))
  | list a, list b => compareItems c a b
  | a, b =>
    match compareNumbers? a b with
    | some (some o) => .ok (c.admits o)
    | some none => .ok false
    | none => .error (.unordered c.sign a.kind b.kind)

def compareItems (c : Comparison) : List Data → List Data → Outcome Bool
  | a :: as, b :: bs => if same a b then compareItems c as bs else compareBy c a b
  | [], [] => .ok (c.admits .eq)
  | [], _ :: _ => .ok (c.admits .lt)
  | _ :: _, [] => .ok (c.admits .gt)

end

/-- A number as a floating-point one; integers beyond its range have none. -/
def toFloat? : Data → Option (Outcome Binary64)
  | float x => some (.ok x)
  | d => d.int?.map fun n =>
    let x := Binary64.ofInt n
    if x.isInfinite then .error .overflow else .ok x

/-- Sum or difference of numbers: exact on integers, rounded as soon as one side is a
floating-point number. -/
def arithmetic? (exact : Int → Int → Int) (rounded : Binary64 → Binary64 → Binary64)
    (a b : Data) : Option (Outcome Data) :=
  match a.int?, b.int? with
  | some m, some n => some (.ok (int (exact m n)))
  | _, _ => do
    let x ← a.toFloat?
    let y ← b.toFloat?
    some do return float (rounded (← x) (← y))

def add (a b : Data) : Outcome Data :=
  match a, b with
  | str s, str t => .ok (str (s ++ t))
  | list xs, list ys => .ok (list (xs ++ ys))
  | a, b =>
    match arithmetic? (· + ·) .add a b with
    | some result => result
    | none =>
      match a with
      | str _ | list _ => .error (.badConcatenation a.kind b.kind)
      | a => .error (.badOperands "+" a.kind b.kind)

def sub (a b : Data) : Outcome Data :=
  (arithmetic? (· - ·) .sub a b).getD (.error (.badOperands "-" a.kind b.kind))

end Data

end Stratus
