import Mathlib
import Stratus.Text.Split

/-!
Starts and parts of texts, and texts cut at a single character. The pieces are those of the
library's `splitOn`, and the first of them ends at the first separator.
-/
namespace Stratus.Text

open List

variable {c : Char} {w a b : List Char} {s : String}

theorem after?_eq_some_iff {start cs rest : List Char} :
    after? start cs = some rest ↔ cs = start ++ rest := by
  induction start generalizing cs with
  | nil => simp [after?]
  | cons c start ih =>
    cases cs with
    | nil => simp [after?]
    | cons d cs =>
      by_cases same : c = d
      · subst same
        simp [after?, ih]
      · have other : ¬ d = c := fun h => same h.symm
        simp [after?, same, other]

theorem occurs_iff {part cs : List Char} : occurs part cs = true ↔ part <:+: cs := by
  rw [occurs]
  induction cs with
  | nil => cases part <;> simp [cut?]
  | cons c cs ih =>
    rw [infix_cons_iff, ← ih, cut?]
    cases start : after? part (c :: cs) with
    | some rest => simp [after?_eq_some_iff.mp start]
    | none =>
      have other : ¬ part <+: c :: cs := by
        rintro ⟨rest, same⟩
        cases start.symm.trans (after?_eq_some_iff.mpr same.symm)
      simp [other]

theorem contains_iff {s part : String} :
    contains s part = true ↔ part.toList <:+: s.toList := occurs_iff

theorem pieces_singleton (c : Char) (cs : List Char) : pieces [c] cs = cs.splitOn c := by
  have step (piece cs : List Char) :
      piecesFrom [c] 0 piece cs = splitOnPPrepend (· == c) cs piece := by
    induction cs generalizing piece with
    | nil => rfl
    | cons d cs ih =>
      rw [splitOnPPrepend_cons_eq_if]
      by_cases h : c = d
      · subst h
        simp [piecesFrom, after?, ih]
      · simp [piecesFrom, after?, h, Ne.symm h, ih]
  rw [splitOn_eq_splitOnP]
  exact step [] cs

theorem splitOn_first {piece : List Char} (clear : c ∉ piece) (rest : List Char) :
    (piece ++ c :: rest).splitOn c = piece :: rest.splitOn c := by
  simp only [splitOn_eq_splitOnP]
  apply splitOnP_append_cons_of_forall_mem
  · intro d mem
    rw [beq_eq_false_iff_ne]
    rintro rfl
    exact clear mem
  · exact beq_self_eq_true c

theorem split_singleton (s : String) (c : Char) :
    split s (String.singleton c) = (s.toList.splitOn c).map String.ofList := by
  rw [split, String.toList_singleton, pieces_singleton]

theorem split_first (clear : c ∉ s.toList) (t : String) :
    split (s ++ String.singleton c ++ t) (String.singleton c) = s ::
      split t (String.singleton c) := by
  have text : (s ++ String.singleton c ++ t).toList = s.toList ++ c :: t.toList := by
    simp [String.toList_append]
  rw [split_singleton, split_singleton, text, splitOn_first clear, map_cons, String.ofList_toList]

theorem split_of_notMem (clear : c ∉ s.toList) : split s (String.singleton c) = [s] := by
  rw [split_singleton, splitOn_eq_singleton clear, map_singleton, String.ofList_toList]

theorem intercalate_split (s : String) (c : Char) :
    (String.singleton c).intercalate (split s (String.singleton c)) = s := by
  apply String.toList_inj.mp
  rw [split_singleton, String.toList_intercalate, map_map, String.toList_singleton]
  simp only [Function.comp_def, String.toList_ofList, map_id']
  exact intercalate_splitOn c

theorem prefix_of_separated (absent : c ∉ w) (h : w <+: a ++ c :: b) : w <+: a := by
  rcases Nat.lt_or_ge a.length w.length with longer | shorter
  · have here : a ++ [c] <+: a ++ c :: b := ⟨b, by simp⟩
    have reached : a ++ [c] <+: w := prefix_of_prefix_length_le here h (by simpa using longer)
    exact absurd (reached.subset (mem_append_right a mem_cons_self)) absent
  · exact prefix_of_prefix_length_le h (prefix_append a (c :: b)) shorter

theorem infix_of_separated (absent : c ∉ w) (h : w <:+: a ++ c :: b) : w <:+: a ∨ w <:+: b := by
  induction a with
  | nil =>
    rcases infix_cons_iff.mp h with first | later
    · exact .inl (prefix_of_separated (a := []) absent first).isInfix
    · exact .inr later
  | cons x a ih =>
    rcases infix_cons_iff.mp h with first | later
    · exact .inl (prefix_of_separated (a := x :: a) absent first).isInfix
    · exact (ih later).imp_left infix_cons

theorem intercalate_splitOn_eq_map (cs : List Char) (a b : Char) :
    [b].intercalate (cs.splitOn a) = cs.map fun c => if c = a then b else c := by
  rw [splitOn_eq_splitOnP]
  induction cs with
  | nil => rfl
  | cons c cs ih =>
    obtain ⟨first, rest, pieces⟩ := exists_cons_of_ne_nil (splitOnP_ne_nil (· == a) cs)
    rw [splitOnP_cons_eq_if_modifyHead, map_cons, ← ih, pieces]
    by_cases same : c = a
    · simp [same, intercalate_cons_cons]
    · cases rest <;> simp [same, intercalate_cons_cons]

theorem unifyNewlines_of_notMem {cs : List Char} (h : '\r' ∉ cs) : unifyNewlines cs = cs := by
  induction cs with
  | nil => rfl
  | cons c cs ih =>
    rw [mem_cons, not_or] at h
    have other : c ≠ '\r' := Ne.symm h.1
    rw [unifyNewlines, ih h.2]
    · simp [other]
    · intro rest same
      exact absurd same other

/-- Replacing one character by another changes every occurrence and nothing else. -/
theorem replace_singleton (s : String) (a b : Char) :
    (replace s (String.singleton a) (String.singleton b)).toList = s.toList.map fun c =>
    if c = a then b else c := by
  rw [replace, split_singleton, String.toList_intercalate, map_map, String.toList_singleton]
  simp only [Function.comp_def, String.toList_ofList, map_id']
  exact intercalate_splitOn_eq_map s.toList a b

end Stratus.Text
