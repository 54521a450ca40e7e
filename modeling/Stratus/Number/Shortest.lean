import Stratus.Number.Binary64

/-!
The shortest decimal that reads back as a given number, found in exact arithmetic: the first grid of
1, 2, … 17 digits with a point among the reals that round to it gives the digits.
-/
namespace Stratus.Binary64

/-- `digits · 10 ^ exponent`. -/
structure Decimal where
  digits : Nat
  exponent : Int
deriving DecidableEq, Inhabited

structure Quotient where
  num : Nat
  den : Nat

namespace Quotient

def lt (a b : Quotient) : Bool := a.num * b.den < b.num * a.den

def le (a b : Quotient) : Bool := a.num * b.den ≤ b.num * a.den

def ofDecimal (n : Nat) (e : Int) : Quotient :=
  if e < 0 then ⟨n, Nat.pow 10 (-e).toNat⟩ else ⟨n * Nat.pow 10 e.toNat, 1⟩

def ofDyadic (n : Nat) (e : Int) : Quotient :=
  if e < 0 then ⟨n, Nat.pow 2 (-e).toNat⟩ else ⟨n * Nat.pow 2 e.toNat, 1⟩

def distance (a b : Quotient) : Quotient :=
  ⟨((a.num * b.den : Nat) - (b.num * a.den : Nat) : Int).natAbs, a.den * b.den⟩

end Quotient

/-- The reals that round to a positive finite number; the ends belong to it iff the mantissa is
even. -/
structure Interval where
  low : Quotient
  value : Quotient
  high : Quotient
  closed : Bool

def interval (x : Binary64) : Interval where
  low :=
    if x.fractionField == 0 && x.exponentField > 1 then .ofDyadic (4 * x.mantissa - 1) (x.scale - 2)
    else .ofDyadic (2 * x.mantissa - 1) (x.scale - 1)
  value := .ofDyadic x.mantissa x.scale
  high := .ofDyadic (2 * x.mantissa + 1) (x.scale - 1)
  closed := x.mantissa % 2 == 0

def Interval.holds (i : Interval) (q : Quotient) : Bool :=
  if i.closed then i.low.le q && q.le i.high else i.low.lt q && q.lt i.high

/-- The power of ten above a positive rational, corrected from an estimate that is off by one at
most. -/
def decimalOrder (q : Quotient) : Int :=
  let guess : Int := ((q.num.log2 : Int) - q.den.log2) * 30103 / 100000 + 1
  let guess := if q.lt (.ofDecimal 1 (guess - 1)) then guess - 1 else guess
  if (Quotient.ofDecimal 1 guess).le q then guess + 1 else guess

/-- The point of the grid `10 ^ exponent` that lies in the interval nearest to its value. -/
def gridPoint? (i : Interval) (exponent : Int) : Option Decimal :=
  let below :=
    if exponent < 0 then i.value.num * Nat.pow 10 (-exponent).toNat / i.value.den
    else i.value.num / (i.value.den * Nat.pow 10 exponent.toNat)
  let under := Quotient.ofDecimal below exponent
  let above := Quotient.ofDecimal (below + 1) exponent
  match i.holds under, i.holds above with
  | true, true =>
    let down := under.distance i.value
    let up := above.distance i.value
    if down.lt up || (!up.lt down && below % 2 == 0) then some ⟨below, exponent⟩
    else some ⟨below + 1, exponent⟩
  | true, false => some ⟨below, exponent⟩
  | false, true => some ⟨below + 1, exponent⟩
  | false, false => none

def search (i : Interval) (order : Int) : Nat → Nat → Decimal
  | 0, count => (gridPoint? i (order - count)).getD ⟨0, 0⟩
  | more + 1, count => (gridPoint? i (order - count)).getD (search i order more (count + 1))

/-- Drops the trailing zeros of the digits; there are fewer zeros than `fuel`. -/
def Decimal.normalize : Nat → Decimal → Decimal
  | fuel + 1, ⟨digits, exponent⟩ =>
    if digits != 0 && digits % 10 == 0 then normalize fuel ⟨digits / 10, exponent + 1⟩
    else ⟨digits, exponent⟩
  | 0, d => d

def shortest (x : Binary64) : Decimal :=
  let i := x.interval
  (search i (decimalOrder i.value) 16 1).normalize 20

end Stratus.Binary64
