import Stratus.Proofs.Assoc
import Stratus.Proofs.Json.Glyph

/-!
Maps of strings in JSON. A map whose entries are written as strings of glyphs, with a comma and a
space between them, is read as these entries in order.
-/
namespace Stratus.Json

open List hiding keys
open Assoc hiding set

/-- Glyphs that make up a string between its quotes. -/
structure Means (gs : List Glyph) (s : String) : Prop where
  proper : ∀ g ∈ gs, g.Proper
  inside : ∀ g ∈ gs, g ≠ .plain '"'
  spells : Spells gs s.toList

def quoted (gs : List Glyph) : List Char := '"' :: (spelled gs ++ ['"'])

theorem length_le_spelled (gs : List Glyph) : gs.length ≤ (spelled gs).length := by
  induction gs with
  | nil => exact Nat.le_refl 0
  | cons g gs ih =>
    have one : 1 ≤ g.written.length := by cases g <;> simp [Glyph.written, Text.unitEscape]
    rw [spelled, flatMap_cons, length_append, length_cons, Nat.add_comm]
    exact Nat.add_le_add one ih

section Members

variable {fuel : Nat} {name value : List Glyph} {k s : String}

theorem stringFrom_means (h : Means value s) (enough : (spelled value).length < fuel)
    (start position : Nat) (rest : List Char) :
    ∃ last, stringFrom start fuel [] ⟨spelled value ++ '"' :: rest, position⟩ =
      .ok (s, ⟨rest, last⟩) := by
  have short := Nat.lt_of_le_of_lt (length_le_spelled value) enough
  obtain ⟨last, read⟩ : ∃ last, stringFrom start fuel [] ⟨spelled value ++ '"' :: rest, position⟩ =
      .ok (String.ofList ([].reverse ++ s.toList), ⟨rest, last⟩) :=
    stringFrom_spelled h.proper h.inside h.spells short rest
  exact ⟨last, by simpa using read⟩

theorem value_means (h : Means value s) (enough : (spelled value).length < fuel) (position : Nat)
    (rest : List Char) :
    ∃ last, Json.value fuel ⟨quoted value ++ rest, position⟩ = .ok (.str s, ⟨rest, last⟩) := by
  obtain ⟨fuel, rfl⟩ := Nat.exists_eq_succ_of_ne_zero (Nat.ne_of_gt (Nat.zero_lt_of_lt enough))
  obtain ⟨last, read⟩ := stringFrom_means h enough position (position + 1) rest
  refine ⟨last, ?_⟩
  have text : quoted value ++ rest = '"' :: (spelled value ++ '"' :: rest) := by simp [quoted]
  rw [text, Json.value]
  simp only [Cursor.advance, drop_succ_cons, drop_zero]
  rw [read]
  rfl

def line (name value : List Glyph) : List Char := quoted name ++ ':' :: ' ' :: quoted value

theorem line_append (name value : List Glyph) (rest : List Char) :
    line name value ++ rest = '"' ::
      (spelled name ++ '"' :: ':' :: ' ' :: (quoted value ++ rest)) := by
  simp [line, quoted]

theorem line_reads (hk : Means name k) (hs : Means value s) (enough : (line name value).length ≤ fuel)
    (position : Nat) (rest : List Char) : ∃ here there,
      stringFrom position (fuel + 1) []
        ⟨spelled name ++ '"' :: ':' :: ' ' :: (quoted value ++ rest), position + 1⟩ =
        .ok (k, ⟨':' :: ' ' :: (quoted value ++ rest), here⟩) ∧
      Json.value fuel ⟨quoted value ++ rest, here + 2⟩ = .ok (.str s, ⟨rest, there⟩) := by
  have sizes : (spelled name).length < fuel + 1 ∧ (spelled value).length < fuel := by
    simp only [line, quoted, length_append, length_cons, length_nil] at enough
    omega
  obtain ⟨here, named⟩ := stringFrom_means hk sizes.1 position (position + 1)
    (':' :: ' ' :: (quoted value ++ rest))
  obtain ⟨there, given⟩ := value_means hs sizes.2 (here + 2) rest
  exact ⟨here, there, named, given⟩

theorem members_last (hk : Means name k) (hs : Means value s)
    (enough : (line name value).length ≤ fuel)
    (read : List (String × Data)) (position : Nat) (rest : List Char) :
    ∃ last, members (fuel + 1) read ⟨line name value ++ '\x7d' :: rest, position⟩ =
      .ok (.map (ofPairs ((k, .str s) :: read).reverse), ⟨rest, last⟩) := by
  obtain ⟨here, there, named, given⟩ := line_reads hk hs enough position ('\x7d' :: rest)
  refine ⟨there + 1, ?_⟩
  rw [line_append, members]
  simp only [Cursor.advance, drop_succ_cons, drop_zero]
  rw [named]
  change (Json.value fuel ⟨quoted value ++ '\x7d' :: rest, here + 2⟩ >>= _) = _
  rw [given]
  rfl

theorem members_next (hk : Means name k) (hs : Means value s)
    (enough : (line name value).length ≤ fuel)
    (read : List (String × Data)) (position : Nat) (rest : List Char) :
    ∃ last, members (fuel + 1) read ⟨line name value ++ ',' :: ' ' :: '"' :: rest, position⟩ =
      members fuel ((k, .str s) :: read) ⟨'"' :: rest, last⟩ := by
  obtain ⟨here, there, named, given⟩ := line_reads hk hs enough position (',' :: ' ' :: '"' :: rest)
  refine ⟨there + 2, ?_⟩
  rw [line_append, members]
  simp only [Cursor.advance, drop_succ_cons, drop_zero]
  rw [named]
  change (Json.value fuel ⟨quoted value ++ ',' :: ' ' :: '"' :: rest, here + 2⟩ >>= _) = _
  rw [given]
  rfl

end Members

variable {glyphs : String → List Glyph} {fuel : Nat} {e : String × String} {m : Assoc String}

/-- The lines of a map, each text under the glyphs that it is written with. -/
def lines (glyphs : String → List Glyph) (m : Assoc String) : List Char :=
  [',', ' '].intercalate (m.map fun e => line (glyphs e.1) (glyphs e.2))

theorem lines_singleton (glyphs : String → List Glyph) (e : String × String) :
    lines glyphs [e] = line (glyphs e.1) (glyphs e.2) := by
  simp [lines, intercalate]

theorem lines_cons (glyphs : String → List Glyph) (e e' : String × String) (m : Assoc String) :
    lines glyphs (e :: e' :: m) = line (glyphs e.1) (glyphs e.2) ++ ',' :: ' ' ::
      lines glyphs (e' :: m) := by
  simp [lines, intercalate]

theorem lines_starts (glyphs : String → List Glyph) (e : String × String) (m : Assoc String) :
    ∃ rest, lines glyphs (e :: m) = '"' :: rest := by
  cases m with
  | nil => exact ⟨_, by rw [lines_singleton, line, quoted]; rfl⟩
  | cons e' m => exact ⟨_, by rw [lines_cons, line, quoted]; rfl⟩

theorem composed_lines {Q : Glyph → Prop} (signs : ∀ c ∈ ['"', ':', ' ', ','], Q (.plain c))
    (texts : ∀ x ∈ e :: m, (∀ g ∈ glyphs x.1, Q g) ∧ ∀ g ∈ glyphs x.2, Q g) :
    Composed Q (lines glyphs (e :: m)) := by
  have sign (c : Char) (mem : c ∈ ['"', ':', ' ', ',']) := composed_one (signs c mem)
  have string {gs : List Glyph} (h : ∀ g ∈ gs, Q g) : Composed Q (quoted gs) :=
    (sign '"' (by simp)).append ((composed_spelled h).append (sign '"' (by simp)))
  have one {k v : List Glyph} (hk : ∀ g ∈ k, Q g) (hv : ∀ g ∈ v, Q g) : Composed Q (line k v) :=
    (string hk).append ((sign ':' (by simp)).append ((sign ' ' (by simp)).append (string hv)))
  induction m generalizing e with
  | nil =>
    rw [lines_singleton]
    exact one (texts e mem_cons_self).1 (texts e mem_cons_self).2
  | cons e' m ih =>
    rw [lines_cons]
    have first := one (texts e mem_cons_self).1 (texts e mem_cons_self).2
    have later := ih fun x mem => texts x (mem_cons_of_mem e mem)
    exact first.append ((sign ',' (by simp)).append ((sign ' ' (by simp)).append later))

theorem members_lines (means : ∀ x ∈ e :: m, Means (glyphs x.1) x.1 ∧ Means (glyphs x.2) x.2)
    (enough : (lines glyphs (e :: m)).length < fuel) (read : List (String × Data)) (position : Nat)
    (rest : List Char) :
    ∃ last, members fuel read ⟨lines glyphs (e :: m) ++ '\x7d' :: rest, position⟩ =
      .ok (.map (ofPairs (read.reverse ++ mapValues .str (e :: m))), ⟨rest, last⟩) := by
  obtain ⟨fuel, rfl⟩ := Nat.exists_eq_succ_of_ne_zero (Nat.ne_of_gt (Nat.zero_lt_of_lt enough))
  obtain ⟨hk, hs⟩ := means e mem_cons_self
  induction m generalizing e fuel read position with
  | nil =>
    rw [lines_singleton] at enough ⊢
    obtain ⟨last, done⟩ := members_last hk hs (Nat.le_of_lt_succ enough) read position rest
    exact ⟨last, by rw [done, reverse_cons]; rfl⟩
  | cons e' m ih =>
    obtain ⟨tail, starts⟩ := lines_starts glyphs e' m
    rw [lines_cons, length_append, length_cons, length_cons] at enough
    have room : (line (glyphs e.1) (glyphs e.2)).length ≤ fuel := by omega
    obtain ⟨here, first⟩ := members_next hk hs room read position (tail ++ '\x7d' :: rest)
    obtain ⟨fuel, rfl⟩ := Nat.exists_eq_succ_of_ne_zero (show fuel ≠ 0 by omega)
    have others := fun x mem => means x (mem_cons_of_mem e mem)
    obtain ⟨last, later⟩ := ih others ((e.1, .str e.2) :: read) here fuel (by omega)
      (others e' mem_cons_self).1 (others e' mem_cons_self).2
    refine ⟨last, ?_⟩
    rw [lines_cons, append_assoc, cons_append, cons_append, starts, cons_append, first,
      ← cons_append, ← starts, later, reverse_cons, append_assoc]
    rfl

/-- A map of texts is read from its lines. -/
theorem read_lines (means : ∀ x ∈ e :: m, Means (glyphs x.1) x.1 ∧ Means (glyphs x.2) x.2)
    (nodup : (keys (e :: m)).Nodup) :
    read (String.ofList ('\x7b' :: (lines glyphs (e :: m) ++ ['\x7d']))) =
      .ok (.map (mapValues .str (e :: m))) := by
  obtain ⟨tail, starts⟩ := lines_starts glyphs e m
  have keys : keys (mapValues Data.str (e :: m)) = keys (e :: m) := by
    simp [keys, mapValues]
  have enough : (lines glyphs (e :: m)).length <
    ('\x7b' :: (lines glyphs (e :: m) ++ ['\x7d'])).length := by simp
  obtain ⟨last, done⟩ := members_lines means enough [] 1 []
  rw [reverse_nil, nil_append, ofPairs_of_nodup (keys ▸ nodup), starts] at done
  have top : value (('\x7b' :: ('"' :: tail ++ ['\x7d'])).length + 1)
      (Cursor.skipGaps ⟨'\x7b' :: ('"' :: tail ++ ['\x7d']), 0⟩) =
        .ok (.map (mapValues .str (e :: m)), ⟨[], last⟩) := done
  rw [read, String.toList_ofList, starts]
  simp only [top]
  rfl

end Stratus.Json
