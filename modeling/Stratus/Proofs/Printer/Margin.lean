import Stratus.Proofs.Printer.Member

/-!
Texts that differ in their margins. A margin stands behind a line feed only, so two texts that are
alike have the same words and, stripped, the same lines.
-/
namespace Stratus.Printer

open List hiding isEmpty_iff
open Text

/-- The same characters, but for margins behind line feeds, which are those of related levels. -/
inductive Alike (W : Int → Int → Prop) : List Char → List Char → Prop where
  | nil : Alike W [] []
  | cons (c : Char) {a b : List Char} (rest : Alike W a b) : Alike W (c :: a) (c :: b)
  | margin {i j : Int} (level : W i j) {a b : List Char} (rest : Alike W a b) :
      Alike W ('\n' :: ((padding i).toList ++ a)) ('\n' :: ((padding j).toList ++ b))

variable {W : Int → Int → Prop} {i j : Int}

namespace Alike

variable {a b x y : List Char}

theorem refl (a : List Char) : Alike W a a := by
  induction a with
  | nil => exact .nil
  | cons c a ih => exact .cons c ih

theorem append (h : Alike W a b) (h' : Alike W x y) : Alike W (a ++ x) (b ++ y) := by
  induction h with
  | nil => exact h'
  | cons c _ ih => exact .cons c ih
  | margin level _ ih => simpa using Alike.margin level ih

theorem eq_nil_iff (h : Alike W a b) : a = [] ↔ b = [] := by
  cases h <;> simp

theorem eq_of_same (h : Alike Eq a b) : a = b := by
  induction h with
  | nil => rfl
  | cons c _ ih => rw [ih]
  | margin level _ ih => rw [level, ih]

end Alike

theorem isBlank_padding {c : Char} (h : c ∈ (padding i).toList) : isBlank c = true := by
  rw [eq_of_mem_padding h]
  decide

theorem trim_padding (i : Int) (a : List Char) :
    trim isBlank ((padding i).toList ++ a) = trim isBlank a := by
  rw [trim, dropWhile_append_of_pos fun _ => isBlank_padding, trim]

theorem wordsFrom_padding (i : Int) (a : List Char) :
    wordsFrom isBlank [] ((padding i).toList ++ a) = wordsFrom isBlank [] a := by
  have blank : ∀ c ∈ (padding i).toList, isBlank c = true := fun _ => isBlank_padding
  generalize (padding i).toList = margin at blank
  induction margin with
  | nil => rfl
  | cons c rest ih =>
    obtain ⟨here, later⟩ := forall_mem_cons.mp blank
    rw [cons_append, wordsFrom, if_pos here]
    exact ih later

variable {a b : List Char} {p : Char → Bool} {s t : String}

theorem Alike.wordsFrom_eq (h : Alike W a b) (word : List Char) :
    wordsFrom isBlank word a = wordsFrom isBlank word b := by
  have feed : isBlank '\n' = true := by decide
  induction h generalizing word with
  | nil => rfl
  | cons c _ ih => simp only [wordsFrom, ih]
  | margin _ _ ih => simp only [wordsFrom, feed, if_true, wordsFrom_padding, ih]

theorem trim_eq_nil_iff : trim p a = [] ↔ ∀ c ∈ a, p c = true := by
  rw [trim, trimEnd, reverse_eq_nil_iff, dropWhile_eq_nil_iff]
  constructor
  · intro rest
    by_contra some
    have left : a.dropWhile p ≠ [] := fun none => some (dropWhile_eq_nil_iff.mp none)
    have first := head_dropWhile_not p left
    rw [rest _ (mem_reverse.mpr (head_mem left))] at first
    cases first
  · exact fun all c mem => all c ((dropWhile_sublist p).mem (mem_reverse.mp mem))

theorem strip_eq_empty_iff_blank : strip s = "" ↔ ∀ c ∈ s.toList, isBlank c = true := by
  rw [strip, String.ofList_eq_empty_iff, trim_eq_nil_iff]

theorem Alike.blank_iff (h : Alike W a b) :
    (∀ c ∈ a, isBlank c = true) ↔ ∀ c ∈ b, isBlank c = true := by
  induction h with
  | nil => rfl
  | cons c _ ih => rw [forall_mem_cons, forall_mem_cons, ih]
  | @margin i j _ a b _ ih =>
    have passed (i : Int) (a : List Char) :
      (∀ c ∈ '\n' :: ((padding i).toList ++ a), isBlank c = true) ↔
        ∀ c ∈ a, isBlank c = true := by
      rw [forall_mem_cons, forall_mem_append]
      exact ⟨fun all => all.2.2, fun rest => ⟨by decide, fun _ => isBlank_padding, rest⟩⟩
    rw [passed, passed, ih]

theorem splitOn_cons (c d : Char) (a : List Char) :
    (c :: a).splitOn d = if c = d then [] :: a.splitOn d else (a.splitOn d).modifyHead (c :: ·) := by
  rw [splitOn_eq_splitOnP, splitOnP_cons_eq_if_modifyHead]
  simp only [beq_iff_eq, splitOn_eq_splitOnP]

theorem splitOn_padding (i : Int) (a : List Char) :
    ((padding i).toList ++ a).splitOn '\n' = (a.splitOn '\n').modifyHead
    ((padding i).toList ++ ·) := by
  have unbroken : ∀ c ∈ (padding i).toList, c ≠ '\n' := fun c mem => by
    rw [eq_of_mem_padding mem]
    decide
  generalize (padding i).toList = margin at unbroken
  induction margin with
  | nil => cases lines : a.splitOn '\n' <;> simp [lines]
  | cons c rest ih =>
    obtain ⟨here, later⟩ := forall_mem_cons.mp unbroken
    rw [cons_append, splitOn_cons, if_neg here, ih later, modifyHead_modifyHead]
    rfl

/-- The first lines of alike texts are equal, and the others once they are stripped. -/
theorem Alike.lines (h : Alike W a b) :
    ∃ first rest rest', a.splitOn '\n' = first :: rest ∧ b.splitOn '\n' = first :: rest' ∧
      rest.map (trim isBlank) = rest'.map (trim isBlank) := by
  induction h with
  | nil => exact ⟨[], [], [], rfl, rfl, rfl⟩
  | @cons c a b _ ih =>
    obtain ⟨first, rest, rest', here, there, same⟩ := ih
    by_cases feed : c = '\n'
    · subst feed
      refine ⟨[], first :: rest, first :: rest', ?_, ?_, ?_⟩
      · rw [splitOn_cons, if_pos rfl, here]
      · rw [splitOn_cons, if_pos rfl, there]
      · rw [map_cons, same, map_cons]
    · refine ⟨c :: first, rest, rest', ?_, ?_, same⟩
      · rw [splitOn_cons, if_neg feed, here, modifyHead_cons]
      · rw [splitOn_cons, if_neg feed, there, modifyHead_cons]
  | @margin i j _ a b _ ih =>
    obtain ⟨first, rest, rest', here, there, same⟩ := ih
    refine ⟨[], ((padding i).toList ++ first) :: rest,
      ((padding j).toList ++ first) :: rest', ?_, ?_, ?_⟩
    · rw [splitOn_cons, if_pos rfl, splitOn_padding, here, modifyHead_cons]
    · rw [splitOn_cons, if_pos rfl, splitOn_padding, there, modifyHead_cons]
    · rw [map_cons, trim_padding, same, map_cons, trim_padding]

theorem trimEnd_cons (c : Char) (a : List Char) :
    trimEnd p (c :: a) = if trimEnd p a = [] then (if p c then [] else [c])
      else c :: trimEnd p a := by
  simp only [trimEnd, reverse_cons, dropWhile_append, List.isEmpty_iff, reverse_eq_nil_iff]
  by_cases none : a.reverse.dropWhile p = []
  · cases holds : p c <;> simp [none, holds]
  · simp [none]

theorem trimEnd_append_of_all {x : List Char} (all : ∀ c ∈ x, p c = true) :
    trimEnd p (x ++ a) = if trimEnd p a = [] then [] else x ++ trimEnd p a := by
  induction x with
  | nil => by_cases empty : trimEnd p a = [] <;> simp [empty]
  | cons c x ih =>
    obtain ⟨here, later⟩ := forall_mem_cons.mp all
    rw [cons_append, trimEnd_cons, ih later]
    by_cases empty : trimEnd p a = [] <;> simp [empty, here]

theorem trimEnd_append_of_not {x : List Char} (solid : ∀ c ∈ x, p c = false) (filled : x ≠ []) :
    trimEnd p (x ++ a) = x ++ trimEnd p a := by
  obtain ⟨front, last, rfl⟩ : ∃ front last, x = front ++ [last] :=
    ⟨_, _, (dropLast_append_getLast filled).symm⟩
  exact trimEnd_until rfl (solid last (by simp)) a

namespace Alike

variable {a b : List Char} {p : Char → Bool}

theorem dropWhile (feed : p '\n' = false) (h : Alike W a b) :
    Alike W (a.dropWhile p) (b.dropWhile p) := by
  induction h with
  | nil => exact .nil
  | @cons c a b rest ih =>
    cases holds : p c with
    | true => simpa [holds] using ih
    | false => simpa [holds] using Alike.cons c rest
  | margin level rest _ =>
    rw [dropWhile_cons_of_neg (by simp [feed]), dropWhile_cons_of_neg (by simp [feed])]
    exact .margin level rest

theorem trimEnd (same : p ' ' = p '\n') (h : Alike W a b) :
    Alike W (Text.trimEnd p a) (Text.trimEnd p b) := by
  have margins {i : Int} : ∀ c ∈ '\n' :: (padding i).toList, p c = p '\n' :=
    forall_mem_cons.mpr ⟨rfl, fun c mem => by rw [eq_of_mem_padding mem, same]⟩
  have nonempty {i : Int} : '\n' :: (padding i).toList ≠ [] := cons_ne_nil _ _
  induction h with
  | nil => exact .nil
  | @cons c a b _ ih =>
    rw [trimEnd_cons, trimEnd_cons]
    by_cases empty : Text.trimEnd p a = []
    · rw [if_pos empty, if_pos (ih.eq_nil_iff.mp empty)]
      exact .refl _
    · rw [if_neg empty, if_neg (mt ih.eq_nil_iff.mpr empty)]
      exact .cons c ih
  | @margin i j level a b _ ih =>
    rw [← cons_append, ← cons_append]
    cases feed : p '\n' with
    | false =>
      simp only [feed] at margins
      rw [trimEnd_append_of_not margins nonempty, trimEnd_append_of_not margins nonempty]
      exact .margin level ih
    | true =>
      simp only [feed] at margins
      rw [trimEnd_append_of_all margins, trimEnd_append_of_all margins]
      by_cases empty : Text.trimEnd p a = []
      · rw [if_pos empty, if_pos (ih.eq_nil_iff.mp empty)]
        exact .nil
      · rw [if_neg empty, if_neg (mt ih.eq_nil_iff.mpr empty)]
        exact .margin level ih

end Alike

def Like (W : Int → Int → Prop) (s t : String) : Prop := Alike W s.toList t.toList

namespace Like

variable {s t u v : String}

theorem refl (s : String) : Like W s s := Alike.refl _

theorem append (h : Like W s t) (h' : Like W u v) : Like W (s ++ u) (t ++ v) := by
  rw [Like, String.toList_append, String.toList_append]
  exact Alike.append h h'

theorem eq_of_same (h : Like Eq s t) : s = t := String.toList_inj.mp (Alike.eq_of_same h)

theorem words_eq (h : Like W s t) : words s = words t := by
  rw [words, words, Alike.wordsFrom_eq h]

theorem eq_empty_iff (h : Like W s t) : s = "" ↔ t = "" := by
  simpa using Alike.eq_nil_iff h

theorem stripped_lines (h : Like W s t) : (split s "\n").map strip = (split t "\n").map strip := by
  have lines (s : String) : (split s "\n").map strip =
      ((s.toList.splitOn '\n').map (trim isBlank)).map String.ofList := by
    rw [show split s "\n" = _ from split_singleton s '\n', map_map, map_map]
    refine map_congr_left fun line _ => ?_
    simp [strip]
  obtain ⟨first, rest, rest', here, there, same⟩ := Alike.lines h
  rw [lines, lines, here, there, map_cons, same, ← map_cons]

theorem strip_eq_empty_iff (h : Like W s t) : strip s = "" ↔ strip t = "" := by
  rw [strip_eq_empty_iff_blank, strip_eq_empty_iff_blank]
  exact Alike.blank_iff h

theorem stripChar (h : Like W s t) : Like W (Text.stripChar '"' s) (Text.stripChar '"' t) := by
  simpa [Like, Text.stripChar, trim] using
    Alike.trimEnd (by decide) (Alike.dropWhile (p := (· == '"')) (by decide) h)

theorem stripEnd (h : Like W s t) : Like W (Text.stripEnd s) (Text.stripEnd t) := by
  simpa [Like, Text.stripEnd] using Alike.trimEnd (by decide) h

end Like

/-- Alike texts up to the end of a line. -/
def Ended (W : Int → Int → Prop) (s t : String) : Prop :=
  ∃ s' t', s = s' ++ "\n" ∧ t = t' ++ "\n" ∧ Like W s' t'

/-- Texts of whole rows: behind the end of a line they lead to the end of another, or to the same.
-/
def Rows (W : Int → Int → Prop) (a b : String) : Prop :=
  ∀ s t, Ended W s t → Ended W (s ++ a) (t ++ b)

theorem Ended.of_like (h : Like W s t) : Ended W (s ++ "\n") (t ++ "\n") := ⟨s, t, rfl, rfl, h⟩

theorem Ended.opened (h : Like W s t) : Ended W (s ++ openBrace) (t ++ openBrace) := by
  have line (s : String) : s ++ openBrace = s ++ "\x7b" ++ "\n" := by
    rw [String.append_assoc]
    rfl
  rw [line, line]
  exact .of_like (h.append (.refl _))

theorem Ended.brace (h : Like W s t) : Ended W (s ++ " \x7b\n") (t ++ " \x7b\n") := by
  have line (s : String) : s ++ " \x7b\n" = s ++ " " ++ openBrace := by
    rw [String.append_assoc]
    rfl
  rw [line, line]
  exact .opened (h.append (.refl _))

theorem Ended.like (h : Ended W s t) : Like W s t := by
  obtain ⟨s', t', rfl, rfl, h⟩ := h
  exact h.append (.refl _)

theorem Ended.margin (level : W i j) (h : Ended W s t) :
    Like W (s ++ padding i) (t ++ padding j) := by
  obtain ⟨s', t', rfl, rfl, h⟩ := h
  have feed : Like W ("\n" ++ padding i) ("\n" ++ padding j) := by
    simpa [Like] using Alike.margin level .nil
  simpa [String.append_assoc] using h.append feed

namespace Rows

variable {a b c d : String}

theorem nil : Rows W "" "" := by
  intro s t h
  simpa using h

theorem append (h : Rows W a b) (h' : Rows W c d) : Rows W (a ++ c) (b ++ d) := by
  intro s t open'
  simpa [String.append_assoc] using h' _ _ (h s t open')

theorem line (h : Like W a b) : Rows W (a ++ "\n") (b ++ "\n") := by
  intro s t ended
  simpa [String.append_assoc] using Ended.of_like (ended.like.append h)

theorem row (level : W i j) (h : Like W a b) :
    Rows W (padding i ++ a ++ "\n") (padding j ++ b ++ "\n") := by
  intro s t ended
  simpa [String.append_assoc] using Ended.of_like ((ended.margin level).append h)

theorem eq_of_same (h : Rows Eq a b) : a = b := by
  have same := (h _ _ (Ended.of_like (.refl ""))).like.eq_of_same
  exact String.toList_inj.mp (by simpa using congrArg String.toList same)

theorem join {as bs : List String} (h : List.Forall₂ (Rows W) as bs) :
    Rows W (String.join as) (String.join bs) := by
  induction h with
  | nil => exact nil
  | cons first _ ih => simpa using first.append ih

/-- Items of a list, each on a row of its own with a comma behind it but for the last. -/
theorem listed {xs ys : List String}
    (h : List.Forall₂ (fun x y => ∀ s t, Ended W s t → Like W (s ++ x) (t ++ y)) xs ys) :
    Rows W (",\n".intercalate xs ++ "\n") (",\n".intercalate ys ++ "\n") := by
  induction h with
  | nil => exact line (.refl "")
  | @cons x y xs ys first rest ih =>
    intro s t ended
    cases rest with
    | nil => simpa [String.append_assoc] using Ended.of_like (first s t ended)
    | cons second rest =>
      have comma := Ended.of_like ((first s t ended).append (.refl ","))
      have feed : (",\n" : String) = "," ++ "\n" := rfl
      simpa [feed, String.append_assoc] using ih _ _ comma

end Rows

/-- Rows behind a first line, and a last row at a margin. -/
theorem Ended.close {a b u v : String} (start : Ended W s t) (rows : Rows W a b) (level : W i j)
    (last : Like W u v) :
    Like W (s ++ a ++ padding i ++ u) (t ++ b ++ padding j ++ v) :=
  ((rows _ _ start).margin level).append last

theorem relaid_eq (level : Int) (text : String) :
    relaid level text = String.join
      (((((split text "\n").map strip).drop 1).dropLast).filterMap fun line =>
      if line == "" then none else some (padding level ++ line ++ "\n")) := by
  rw [← map_drop, ← map_dropLast, filterMap_map]
  rfl

theorem relaid_rows (level : W i j) (h : Like W s t) : Rows W (relaid i s) (relaid j t) := by
  rw [relaid_eq, relaid_eq, h.stripped_lines]
  refine .join ?_
  generalize (((split t "\n").map strip).drop 1).dropLast = lines
  induction lines with
  | nil => exact .nil
  | cons line lines ih =>
    rw [filterMap_cons, filterMap_cons]
    by_cases empty : line = ""
    · simpa only [empty, beq_self_eq_true, if_true] using ih
    · simpa only [beq_eq_false_iff_ne.mpr empty] using .cons (.row level (.refl line)) ih

end Stratus.Printer
