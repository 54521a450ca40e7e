import Stratus.Number.Shortest
import Stratus.Text.Numeral

/-!
Numbers as text. A floating-point number is written with the fewest digits that read back,
positional for exponents from -4 to 15; an integral one keeps its `.0`.
-/
namespace Stratus

structure FloatLayout where
  positionalFrom : Int
  positionalBelow : Int
  exponentDigits : Nat
  notANumber : String
  infinity : String

namespace FloatLayout

def zeros (n : Nat) : String := String.ofList (List.replicate n '0')

def signed (negative : Bool) (s : String) : String := if negative then "-" ++ s else s

def exponentText (layout : FloatLayout) (e : Int) : String :=
  let digits := toString e.natAbs
  (if e < 0 then "e-" else "e+") ++ zeros (layout.exponentDigits - digits.length) ++ digits

/-- Digits with the point behind the `lead + 1`-st of them. -/
def positional (digits : List Char) (lead : Int) : String :=
  if lead < 0 then "0." ++ zeros (-lead - 1).toNat ++ String.ofList digits
  else
    let whole := lead.toNat + 1
    let fraction := digits.drop whole
    String.ofList (digits.take whole) ++ zeros (whole - digits.length) ++ "." ++
      (if fraction.isEmpty then "0" else String.ofList fraction)

def scientific (layout : FloatLayout) (digits : List Char) (lead : Int) : String :=
  let fraction := digits.drop 1
  String.ofList (digits.take 1) ++ (if fraction.isEmpty then "" else "." ++ String.ofList fraction) ++
    layout.exponentText lead

def write (layout : FloatLayout) (x : Binary64) : String :=
  if x.isNaN then layout.notANumber
  else if x.isInfinite then signed x.negative layout.infinity
  else if x.isZero then signed x.negative "0.0"
  else
    let d := x.shortest
    let digits := Nat.toDigits 10 d.digits
    let lead : Int := digits.length + d.exponent - 1
    signed x.negative
      (if layout.positionalFrom ≤ lead && lead < layout.positionalBelow then positional digits lead
      else layout.scientific digits lead)

end FloatLayout

def FloatLayout.shown : FloatLayout := ⟨-4, 16, 2, "nan", "inf"⟩

def FloatLayout.json : FloatLayout := ⟨-4, 16, 2, "NaN", "Infinity"⟩

namespace Numeral

/-- The number written by decimal digits of any script; none if a character is no decimal digit. -/
def digitsValue? : Nat → List Char → Option Nat
  | n, [] => some n
  | n, c :: cs => (Text.decimalValue? c).bind fun d => digitsValue? (10 * n + d) cs

def nat? (cs : List Char) : Option Nat := if cs.isEmpty then none else digitsValue? 0 cs

def pointed? (whole fraction : List Char) : Option Binary64 :=
  if whole.isEmpty && fraction.isEmpty then none
  else (digitsValue? 0 (whole ++ fraction)).map fun n => .ofDecimal false n (-(fraction.length : Int))

end Numeral

end Stratus
