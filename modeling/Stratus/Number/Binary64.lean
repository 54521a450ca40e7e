/-!
Floating-point numbers of 64 bits, given by their bits and read as exact dyadic rationals: order,
rounding of a quotient to the nearest number (a tie goes to the even one), sum and difference.
-/
namespace Stratus

structure Binary64 where
  bits : UInt64
deriving DecidableEq, Inhabited

namespace Binary64

def negative (x : Binary64) : Bool := x.bits ≥ 0x8000000000000000

def magnitude (x : Binary64) : Nat := x.bits.toNat % Nat.pow 2 63

def exponentField (x : Binary64) : Nat := x.magnitude / Nat.pow 2 52

def fractionField (x : Binary64) : Nat := x.magnitude % Nat.pow 2 52

def isNaN (x : Binary64) : Bool := x.exponentField == 0x7ff && x.fractionField != 0

def isInfinite (x : Binary64) : Bool := x.exponentField == 0x7ff && x.fractionField == 0

def isZero (x : Binary64) : Bool := x.magnitude == 0

/-- A finite number is `mantissa · 2 ^ scale` up to its sign. -/
def mantissa (x : Binary64) : Nat :=
  if x.exponentField == 0 then x.fractionField else x.fractionField + Nat.pow 2 52

def scale (x : Binary64) : Int := (max x.exponentField 1 : Nat) - 1075

def ofMagnitude (negative : Bool) (n : Nat) : Binary64 :=
  ⟨(n + if negative then Nat.pow 2 63 else 0).toUInt64⟩

def infinityMagnitude : Nat := 0x7ff * Nat.pow 2 52

/-- The nearest integer to a quotient, a tie going to the even one. -/
def roundQuotient (num den : Nat) : Nat :=
  let q := num / den
  let r := num % den
  if 2 * r < den then q else if den < 2 * r then q + 1 else q + q % 2

def scaled (num den : Nat) (power : Int) : Nat × Nat :=
  if power < 0 then (num, den * Nat.pow 2 (-power).toNat) else (num * Nat.pow 2 power.toNat, den)

/-- The number nearest to `num / den`; beyond the largest one it is infinite. -/
def ofQuotient (negative : Bool) (num den : Nat) : Binary64 :=
  if num == 0 || den == 0 then ofMagnitude negative 0
  else
    let low : Int := (num.log2 : Int) - den.log2 - 53
    let (n, d) := scaled num den (-low)
    let q := max (if n < d * Nat.pow 2 53 then low else low + 1) (-1074)
    let (n, d) := scaled num den (-q)
    ofMagnitude negative (min ((q + 1074).toNat * Nat.pow 2 52 + roundQuotient n d) infinityMagnitude)

def ofDecimal (negative : Bool) (digits : Nat) (exponent : Int) : Binary64 :=
  let size : Int := (Nat.toDigits 10 digits).length + exponent
  if size > 400 then ofMagnitude negative (if digits == 0 then 0 else infinityMagnitude)
  else if size < -400 then ofMagnitude negative 0
  else if exponent < 0 then ofQuotient negative digits (Nat.pow 10 (-exponent).toNat)
  else ofQuotient negative (digits * Nat.pow 10 exponent.toNat) 1

def ofInt (n : Int) : Binary64 := ofQuotient (n < 0) n.natAbs 1

/-- Order of two finite numbers, or of a finite one with an infinite one, given as signed quotients.
-/
def compareQuotients (a : Int) (b : Nat) (c : Int) (d : Nat) : Ordering := compare (a * d) (c * b)

/-- A number as numerator and denominator; infinities stand beyond every other number. -/
def toQuotient (x : Binary64) : Int × Nat :=
  let (n, d) := if x.isInfinite then (Nat.pow 2 2000, 1) else scaled x.mantissa 1 x.scale
  (if x.negative then -(n : Int) else n, d)

def compare? (x y : Binary64) : Option Ordering :=
  if x.isNaN || y.isNaN then none
  else
    let (a, b) := x.toQuotient
    let (c, d) := y.toQuotient
    some (compareQuotients a b c d)

def compareInt? (x : Binary64) (n : Int) : Option Ordering :=
  if x.isNaN then none
  else if x.isInfinite then some (if x.negative then .lt else .gt)
  else
    let (a, b) := x.toQuotient
    some (compareQuotients a b n 1)

def add (x y : Binary64) : Binary64 := ⟨(Float.ofBits x.bits + Float.ofBits y.bits).toBits⟩

def sub (x y : Binary64) : Binary64 := ⟨(Float.ofBits x.bits - Float.ofBits y.bits).toBits⟩

end Binary64

end Stratus
