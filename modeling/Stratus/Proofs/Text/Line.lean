import Stratus.Proofs.Text.Split

/-!
Texts that begin and end without a blank, and lines among them. Stripping a text leaves such a part
of it alone, and the lines of a text are cut apart as they were put together.
-/
namespace Stratus.Text

open String

/-- No blank at either end. -/
structure Tight (s : String) : Prop where
  start : ∃ c rest, s.toList = c :: rest ∧ isBlank c = false
  stop : ∃ front c, s.toList = front ++ [c] ∧ isBlank c = false

structure IsLine (s : String) : Prop extends Tight s where
  unbroken : '\n' ∉ s.toList

def Solid (s : String) : Prop := ∀ c ∈ s.toList, isBlank c = false

variable {s t : String}

theorem solid_of_all (h : s.toList.all (!isBlank ·) = true) : Solid s := by
  simpa [Solid] using h

theorem Solid.append (hs : Solid s) (ht : Solid t) : Solid (s ++ t) := by
  intro c mem
  rw [toList_append, List.mem_append] at mem
  exact mem.elim (hs c) (ht c)

structure Word (s : String) : Prop where
  solid : Solid s
  filled : s ≠ ""

namespace Word

variable {s t : String}

theorem append_left (hs : Word s) (ht : Solid t) : Word (s ++ t) :=
  ⟨hs.solid.append ht, fun empty => hs.filled (append_eq_empty_iff.mp empty).1⟩

theorem append_right (hs : Solid s) (ht : Word t) : Word (s ++ t) :=
  ⟨hs.append ht.solid, fun empty => ht.filled (append_eq_empty_iff.mp empty).2⟩

theorem isLine (h : Word s) : IsLine s := by
  have filled : s.toList ≠ [] := by simpa using h.filled
  refine ⟨⟨?_, ?_⟩, ?_⟩
  · obtain ⟨c, rest, spelled⟩ := List.exists_cons_of_ne_nil filled
    exact ⟨c, rest, spelled, h.solid c (by simp [spelled])⟩
  · exact ⟨_, _, (List.dropLast_append_getLast filled).symm, h.solid _ (List.getLast_mem filled)⟩
  · intro mem
    exact absurd (h.solid _ mem) (by decide)

end Word

theorem Tight.ne_empty (h : Tight s) : s ≠ "" := by
  obtain ⟨c, rest, spelled, -⟩ := h.start
  rintro rfl
  cases spelled

theorem Tight.append (hs : Tight s) (ht : Tight t) (middle : String) : Tight (s ++ middle ++ t) := by
  obtain ⟨c, rest, first, solid⟩ := hs.start
  obtain ⟨front, d, last, solid'⟩ := ht.stop
  refine ⟨⟨c, rest ++ middle.toList ++ t.toList, ?_, solid⟩,
    ⟨s.toList ++ middle.toList ++ front, d, ?_, solid'⟩⟩
  · simp [toList_append, first]
  · simp [toList_append, last]

theorem IsLine.append {middle : String} (hs : IsLine s) (ht : IsLine t)
    (unbroken : '\n' ∉ middle.toList) :
    IsLine (s ++ middle ++ t) := by
  refine ⟨hs.toTight.append ht.toTight middle, ?_⟩
  simp [toList_append, hs.unbroken, ht.unbroken, unbroken]

theorem dropWhile_until {p : Char → Bool} {ys rest : List Char} {c : Char} (first : ys = c :: rest)
    (h : p c = false) (xs : List Char) : (xs ++ ys).dropWhile p = xs.dropWhile p ++ ys := by
  have stays : ys.dropWhile p = ys := by
    rw [first]
    exact List.dropWhile_cons_of_neg (by simp [h])
  rw [List.dropWhile_append, stays]
  split
  · next empty => rw [List.isEmpty_iff.mp empty, List.nil_append]
  · rfl

theorem trimEnd_until {p : Char → Bool} {xs front : List Char} {c : Char} (last : xs = front ++ [c])
    (h : p c = false) (ys : List Char) : trimEnd p (xs ++ ys) = xs ++ trimEnd p ys := by
  have first : xs.reverse = c :: front.reverse := by simp [last]
  rw [trimEnd, List.reverse_append, dropWhile_until first h, List.reverse_append,
    List.reverse_reverse, trimEnd]

theorem stripEnd_append (h : Tight s) (before : String) : stripEnd (before ++ s) = before ++ s := by
  obtain ⟨front, c, last, solid⟩ := h.stop
  have whole : (before ++ s).toList = (before.toList ++ front) ++ [c] := by
    simp [toList_append, last]
  apply toList_inj.mp
  rw [stripEnd, toList_ofList]
  simpa [trimEnd] using trimEnd_until whole solid []

/-- Stripping goes no further than to a tight part of the text. -/
theorem strip_around (h : Tight s) (before after : String) :
    strip (before ++ s ++ after) = ofList (before.toList.dropWhile isBlank) ++ s ++
      stripEnd after := by
  obtain ⟨c, rest, first, solid⟩ := h.start
  obtain ⟨front, d, last, solid'⟩ := h.stop
  have whole : (before ++ s ++ after).toList = before.toList ++ (s.toList ++ after.toList) := by
    simp [toList_append]
  have first' : s.toList ++ after.toList = c :: (rest ++ after.toList) := by simp [first]
  have last' : before.toList.dropWhile isBlank ++ s.toList = before.toList.dropWhile isBlank ++
      front ++ [d] := by
    simp [last]
  apply toList_inj.mp
  rw [strip, trim, whole, dropWhile_until first' solid, ← List.append_assoc,
    trimEnd_until last' solid']
  simp [toList_append, stripEnd]

theorem strip_margin {margin : String} (blank : ∀ c ∈ margin.toList, isBlank c = true)
    (h : Tight s) :
    strip (margin ++ s) = s := by
  have stripped := strip_around h margin ""
  rw [List.dropWhile_eq_nil_iff.mpr blank] at stripped
  simpa [stripEnd, trimEnd] using stripped

theorem split_lines (lines : List String) (last : String)
    (unbroken : ∀ line ∈ lines, '\n' ∉ line.toList)
    (unbroken' : '\n' ∉ last.toList) :
    split (join (lines.map (· ++ "\n")) ++ last) "\n" = lines ++ [last] := by
  refine (split_singleton _ '\n').trans ?_
  induction lines with
  | nil => simp [List.splitOn_eq_singleton unbroken']
  | cons line lines ih =>
    have whole : (join ((line :: lines).map (· ++ "\n")) ++ last).toList =
        line.toList ++ '\n' :: (join (lines.map (· ++ "\n")) ++ last).toList := by
      simp [toList_append]
    have later := ih fun line mem => unbroken line (List.mem_cons_of_mem _ mem)
    rw [whole, splitOn_first (unbroken line List.mem_cons_self), List.map_cons, later, ofList_toList,
      List.cons_append]

end Stratus.Text
