import Stratus.Number.Text
import Stratus.Proofs.Text.Ranges
import Stratus.Text.Split

/-!
Decimal numerals. The digits that a natural number is written with are read back as that number.
-/
namespace Stratus

open Text

theorem Numeral.isDigit_of_mem_repr {n : Nat} {c : Char} (h : c ∈ n.repr.toList) :
    c.isDigit = true := by
  rw [Nat.toList_repr] at h
  exact Nat.isDigit_of_mem_toDigits (by omega) (by omega) h

theorem Numeral.repr_ne_nil (n : Nat) : n.repr.toList ≠ [] := by
  rw [Nat.toList_repr]
  exact Nat.toDigits_ne_nil

theorem Text.cut?_eq_none {c : Char} {cs : List Char} (h : c ∉ cs) : cut? [c] cs = none := by
  induction cs with
  | nil => rfl
  | cons d cs ih =>
    have hd : c ≠ d := by
      rintro rfl
      exact h List.mem_cons_self
    have later := ih fun mem => h (List.mem_cons_of_mem _ mem)
    simp [cut?, after?, hd, later]

theorem Text.decimalValue?_of_ascii {c : Char} (h : c.isDigit = true) :
    decimalValue? c = some (c.toNat - '0'.toNat) := by
  obtain ⟨lower, upper⟩ := toNat_of_ascii_digit h
  rw [decimalValue?, decimalZeros, List.find?_cons_of_pos (by simp [lower, upper])]
  rfl

theorem Numeral.digitsValue?_of_ascii {cs : List Char} (h : ∀ c ∈ cs, c.isDigit = true) (n : Nat) :
    Numeral.digitsValue? n cs = some (Nat.ofDigitChars 10 cs n) := by
  induction cs generalizing n with
  | nil => rfl
  | cons c cs ih =>
    have later : ∀ c ∈ cs, c.isDigit = true := fun d mem => h d (List.mem_cons_of_mem _ mem)
    rw [Numeral.digitsValue?, decimalValue?_of_ascii (h c List.mem_cons_self), Option.bind_some,
      ih later, Nat.ofDigitChars_cons]

theorem Numeral.nat?_repr (n : Nat) : Numeral.nat? n.repr.toList = some n := by
  have filled : n.repr.toList.isEmpty = false := List.isEmpty_eq_false_iff.mpr (Numeral.repr_ne_nil n)
  rw [Numeral.nat?, filled, Numeral.digitsValue?_of_ascii fun _ => Numeral.isDigit_of_mem_repr,
    Nat.toList_repr, Nat.ofDigitChars_ten_toDigits]
  rfl

end Stratus
