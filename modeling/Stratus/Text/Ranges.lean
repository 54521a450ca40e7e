/-! Sets of characters by ranges of code points, white space among them. -/
namespace Stratus.Text

/-- Membership in a union of half-open intervals given by its ascending bounds. -/
def within : List Nat → Nat → Bool
  | lo :: hi :: rest, n => if n < lo then false else n < hi || within rest n
  | _, _ => false

/-- Membership in a union of half-open intervals given by the gaps before them and their widths. -/
def among : List Nat → Nat → Bool
  | gap :: width :: rest, n =>
    if n < gap then false else n < gap + width || among rest (n - (gap + width))
  | _, _ => false

def blankRanges : List Nat := [
  9, 0xe, 0x1c, 0x21, 0x85, 0x86, 0xa0, 0xa1, 0x1680, 0x1681, 0x2000, 0x200b, 0x2028, 0x202a,
  0x202f, 0x2030, 0x205f, 0x2060, 0x3000, 0x3001]

def isBlank (c : Char) : Bool := within blankRanges c.toNat

/-- Line boundaries, the vertical tab, form feed and the separators among them. -/
def isLineBreak (c : Char) : Bool :=
  within [0xa, 0xe, 0x1c, 0x1f, 0x85, 0x86, 0x2028, 0x202a] c.toNat

end Stratus.Text
