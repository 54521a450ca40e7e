import Mathlib
import Stratus.Text.Numeral

/-!
Comparison of character classes by their bounds: letters are no white space, and digits have a
numeric value.
-/
namespace Stratus.Text

variable {hi lo n : Nat} {c : Char}

/-- Membership does not depend on the early exit: the point lies in one of the intervals. -/
theorem within_cons {rest : List Nat} (h : within (lo :: hi :: rest) n = true) :
    (lo ≤ n ∧ n < hi) ∨ within rest n = true := by
  by_cases below : n < lo
  · simp [within, below] at h
  · simp only [within, below, if_false, Bool.or_eq_true, decide_eq_true_eq] at h
    exact h.imp_left fun h => ⟨Nat.le_of_not_lt below, h⟩

/-- The bounds at these distances, each from the one before it. -/
def bounds (last : Nat) : List Nat → List Nat
  | distance :: rest => (last + distance) :: bounds (last + distance) rest
  | [] => []

theorem within_bounds (spans : List Nat) (last n : Nat) :
    within (bounds last spans) (last + n) = among spans n := by
  induction spans, n using among.induct generalizing last with
  | case1 gap width rest n below => simp [bounds, within, among, below]
  | case2 gap width rest n above ih =>
    simp only [bounds, within, among, above, Nat.add_lt_add_iff_left, if_false, Nat.add_assoc]
    by_cases inside : n < gap + width
    · simp [inside]
    · have later := ih (last + (gap + width))
      rw [Nat.add_assoc, Nat.add_sub_cancel' (Nat.le_of_not_lt inside)] at later
      simp [inside, later]
  | case3 spans n short =>
    match spans with
    | [] | [_] => rfl
    | gap :: width :: rest => exact absurd rfl (short gap width rest)

theorem among_eq (spans : List Nat) (n : Nat) : among spans n = within (bounds 0 spans) n := by
  rw [← within_bounds spans 0, Nat.zero_add]

/-- No interval of the bounds meets the one from `lo` to `hi`. -/
def clear (lo hi : Nat) : List Nat → Bool
  | l :: h :: rest => (hi ≤ l || h ≤ lo) && clear lo hi rest
  | _ => true

/-- No interval of the first bounds meets one of the second. -/
def apart : List Nat → List Nat → Bool
  | lo :: hi :: rest, bounds => clear lo hi bounds && apart rest bounds
  | _, _ => true

theorem within_of_clear {bounds : List Nat} (h : clear lo hi bounds = true)
    (hlo : lo ≤ n) (hhi : n < hi) : within bounds n = false := by
  induction bounds using clear.induct with
  | case1 l u rest ih =>
    simp only [clear, Bool.and_eq_true, Bool.or_eq_true, decide_eq_true_eq] at h
    apply Bool.eq_false_iff.mpr
    intro inside
    rcases within_cons inside with between | inside
    · omega
    · simp [ih h.2] at inside
  | case2 bounds short =>
    unfold within
    split
    · exact absurd rfl (short _ _ _)
    · rfl

theorem within_of_apart {a b : List Nat} (h : apart a b = true) (ha : within a n = true) :
    within b n = false := by
  induction a, b using apart.induct with
  | case1 b lo hi rest ih =>
    simp only [apart, Bool.and_eq_true] at h
    rcases within_cons ha with between | inside
    · exact within_of_clear h.1 between.1 between.2
    · exact ih h.2 inside
  | case2 a b short =>
    unfold within at ha
    split at ha
    · exact absurd rfl (short _ _ _)
    · cases ha

/-- One interval of the bounds holds all from `lo` to `hi`. -/
def holdsAll (lo hi : Nat) : List Nat → Bool
  | l :: h :: rest => l ≤ lo && (hi ≤ h || holdsAll lo hi rest)
  | _ => false

/-- Each interval of the first bounds lies in one of the second. -/
def covers : List Nat → List Nat → Bool
  | lo :: hi :: rest, bounds => holdsAll lo hi bounds && covers rest bounds
  | _, _ => true

theorem within_of_holdsAll {bounds : List Nat} (h : holdsAll lo hi bounds = true)
    (hlo : lo ≤ n) (hhi : n < hi) : within bounds n = true := by
  induction bounds using holdsAll.induct with
  | case1 l u rest ih =>
    simp only [holdsAll, Bool.and_eq_true, Bool.or_eq_true, decide_eq_true_eq] at h
    have above : ¬ n < l := by omega
    simp only [within, above, if_false, Bool.or_eq_true, decide_eq_true_eq]
    rcases h.2 with upper | later
    · exact Or.inl (by omega)
    · exact Or.inr (ih later)
  | case2 bounds short => simp [holdsAll] at h

theorem within_of_covers {a b : List Nat} (h : covers a b = true) (ha : within a n = true) :
    within b n = true := by
  induction a, b using covers.induct with
  | case1 b lo hi rest ih =>
    simp only [covers, Bool.and_eq_true] at h
    rcases within_cons ha with between | inside
    · exact within_of_holdsAll h.1 between.1 between.2
    · exact ih h.2 inside
  | case2 a b short =>
    unfold within at ha
    split at ha
    · exact absurd rfl (short _ _ _)
    · cases ha

theorem letters_apart_blanks : apart (bounds 0 letterSpans) blankRanges = true := by decide +kernel

theorem numerics_cover_digits : covers (bounds 0 digitSpans) (bounds 0 numericSpans) = true := by
  decide +kernel

theorem isBlank_of_isLetter (h : isLetter c = true) : isBlank c = false :=
  within_of_apart letters_apart_blanks (among_eq _ _ ▸ h)

theorem isNumeric_of_isDigit (h : isDigit c = true) : isNumeric c = true := by
  rw [isNumeric, among_eq]
  exact within_of_covers numerics_cover_digits (among_eq _ _ ▸ h)

theorem toNat_of_ascii_digit (h : c.isDigit = true) : 48 ≤ c.toNat ∧ c.toNat < 58 := by
  simp only [Char.isDigit, Bool.and_eq_true, decide_eq_true_eq, ge_iff_le] at h
  have lower : 48 ≤ c.toNat := h.1
  have upper : c.toNat ≤ 57 := h.2
  exact ⟨lower, Nat.lt_succ_of_le upper⟩

theorem isDigit_of_ascii (h : c.isDigit = true) : isDigit c = true := by
  obtain ⟨lower, upper⟩ := toNat_of_ascii_digit h
  have all : holdsAll 48 58 (bounds 0 digitSpans) = true := by decide +kernel
  rw [isDigit, among_eq]
  exact within_of_holdsAll all lower upper

theorem isLetter_of_ascii_digit (h : c.isDigit = true) : isLetter c = false := by
  obtain ⟨lower, upper⟩ := toNat_of_ascii_digit h
  have none : clear 48 58 (bounds 0 letterSpans) = true := by decide +kernel
  rw [isLetter, among_eq]
  exact within_of_clear none lower upper

theorem isBlank_of_ascii_digit (h : c.isDigit = true) : isBlank c = false := by
  obtain ⟨lower, upper⟩ := toNat_of_ascii_digit h
  have none : clear 48 58 blankRanges = true := by decide +kernel
  exact within_of_clear none lower upper

end Stratus.Text
