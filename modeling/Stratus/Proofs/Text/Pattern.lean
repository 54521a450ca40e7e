import Mathlib
import Stratus.Text.Pattern

/-!
What a match says about a text, piece by piece: a literal stands there, a run takes the most after
which the rest still fits, and a search finds the first place at which the pattern fits.
-/
namespace Stratus.Text.Pattern

theorem literalRest_sameChar_iff {x cs rest : List Char} :
    literalRest sameChar x cs = some rest ↔ cs = x ++ rest := by
  induction x generalizing cs with
  | nil => simp [literalRest]
  | cons c x ih =>
    cases cs with
    | nil => simp [literalRest]
    | cons d cs =>
      rw [literalRest, List.cons_append, List.cons.injEq]
      by_cases same : c = d
      · subst same
        simp [sameChar, ih]
      · simp [sameChar, same, Ne.symm same]

section Pieces

variable {p : Pattern} {cs : List Char} {here : Nat} {found : List Nat × Nat} {eq : Char →
  Char → Bool}

theorem fit_nil_iff : fit eq [] cs here = some found ↔ found = ([], here) := by
  rw [fit, Option.some.injEq, eq_comm]

theorem fit_mark_iff : fit eq (.mark :: p) cs here = some found ↔
    ∃ later, fit eq p cs here = some later ∧ found = (here :: later.1, later.2) := by
  rw [fit, Option.map_eq_some_iff]
  simp only [eq_comm (b := found)]

theorem fit_literal_iff {x : List Char} : fit sameChar (.literal x :: p) cs here = some found ↔
    ∃ rest, cs = x ++ rest ∧ fit sameChar p rest (here + x.length) = some found := by
  rw [fit, Option.bind_eq_some_iff]
  simp only [literalRest_sameChar_iff]

/-- An optional character is passed over only if the rest does not fit behind it. -/
theorem fit_maybe_iff {c : Char} : fit sameChar (.maybe c :: p) cs here = some found ↔
    (∃ rest, cs = c :: rest ∧ fit sameChar p rest (here + 1) = some found) ∨
    ((∀ rest, cs = c :: rest → fit sameChar p rest (here + 1) = none) ∧
      fit sameChar p cs here = some found) := by
  have taken : ((literalRest sameChar [c] cs).bind fun cs => fit sameChar p cs (here + 1)) =
      fit sameChar (.literal [c] :: p) cs here := rfl
  rw [fit, taken, Option.orElse_eq_orElse, Option.orElse_eq_or, Option.or_eq_some_iff,
    fit_literal_iff, Option.eq_none_iff_forall_not_mem]
  refine or_congr_right (and_congr_left' ⟨?_, ?_⟩)
  · rintro misses rest rfl
    refine Option.eq_none_iff_forall_not_mem.mpr fun found fits => ?_
    exact misses found (fit_literal_iff.mpr ⟨rest, rfl, fits⟩)
  · intro misses found taken
    obtain ⟨rest, rfl, fits⟩ := fit_literal_iff.mp taken
    cases (misses rest rfl).symm.trans fits

theorem findSome?_reverse_range'_iff {α : Type} {f : Nat → Option α} {least k : Nat} {a : α} :
    (List.range' least k).reverse.findSome? f = some a ↔
      ∃ n, least ≤ n ∧ n < least + k ∧ f n = some a ∧ ∀ m, n < m → m < least + k → f m = none := by
  induction k with
  | zero =>
    simp only [List.range'_zero, List.reverse_nil, List.findSome?_nil, reduceCtorEq, false_iff]
    rintro ⟨n, low, high, -⟩
    omega
  | succ k ih =>
    rw [List.range'_concat, List.reverse_append, List.reverse_singleton, List.singleton_append,
      List.findSome?_cons, Nat.one_mul]
    cases last : f (least + k) with
    | some b =>
      constructor
      · rintro ⟨⟩
        refine ⟨least + k, by omega, by omega, last, fun m above below => ?_⟩
        omega
      · rintro ⟨n, -, high, here, above⟩
        rcases Nat.lt_succ_iff_lt_or_eq.mp high with less | rfl
        · cases last.symm.trans (above (least + k) less (by omega))
        · exact last.symm.trans here
    | none =>
      rw [ih]
      constructor
      · rintro ⟨n, low, high, here, above⟩
        refine ⟨n, low, by omega, here, fun m more below => ?_⟩
        rcases Nat.lt_succ_iff_lt_or_eq.mp below with less | rfl
        · exact above m more less
        · exact last
      · rintro ⟨n, low, high, here, above⟩
        rcases Nat.lt_succ_iff_lt_or_eq.mp high with less | rfl
        · exact ⟨n, low, less, here, fun m more below => above m more (by omega)⟩
        · cases last.symm.trans here

/-- A run takes the most characters after which the rest fits. -/
theorem fit_run_iff {q : Char → Bool} {least : Nat} :
    fit eq (.run q least :: p) cs here = some found ↔
      ∃ n, least ≤ n ∧ n ≤ (cs.takeWhile q).length ∧ fit eq p (cs.drop n) (here + n) = some found ∧
        ∀ m, n < m → m ≤ (cs.takeWhile q).length → fit eq p (cs.drop m) (here + m) = none := by
  rw [fit, findSome?_reverse_range'_iff]
  constructor
  · rintro ⟨n, low, high, fits, above⟩
    exact ⟨n, low, by omega, fits, fun m more below => above m more (by omega)⟩
  · rintro ⟨n, low, high, fits, above⟩
    exact ⟨n, low, by omega, fits, fun m more below => above m more (by omega)⟩

end Pieces

section Searches

variable {eq : Char → Char → Bool} {p : Pattern} {cs : List Char} {here : Nat}
  {found : List Nat × Nat}

theorem searchFrom_of_fit (fits : fit eq p cs here = some found) :
    searchFrom eq [p] cs here = some (here, found) := by
  rw [searchFrom.eq_def]
  simp [fits]

theorem searchFrom_nil (misses : fit eq p [] here = none) : searchFrom eq [p] [] here = none := by
  rw [searchFrom.eq_def]
  simp [misses]

theorem searchFrom_cons {c : Char} (misses : fit eq p (c :: cs) here = none) :
    searchFrom eq [p] (c :: cs) here = searchFrom eq [p] cs (here + 1) := by
  rw [searchFrom.eq_def]
  simp [misses]

theorem searchFrom_of_first {i : Nat} (within : i ≤ cs.length)
    (fits : fit eq p (cs.drop i) (here + i) = some found)
    (before : ∀ j < i, fit eq p (cs.drop j) (here + j) = none) :
    searchFrom eq [p] cs here = some (here + i, found) := by
  induction i generalizing cs here with
  | zero => exact searchFrom_of_fit fits
  | succ i ih =>
    cases cs with
    | nil => cases within
    | cons c cs =>
      have place (j : Nat) : here + 1 + j = here + (j + 1) := by omega
      rw [searchFrom_cons (by simpa using before 0 (Nat.succ_pos i)), ← place i]
      refine ih (Nat.le_of_succ_le_succ within) (by rw [place]; exact fits) fun j less => ?_
      rw [place]
      exact before (j + 1) (Nat.succ_lt_succ less)

theorem searchFrom_of_misses (misses : ∀ i ≤ cs.length, fit eq p (cs.drop i) (here + i) = none) :
    searchFrom eq [p] cs here = none := by
  induction cs generalizing here with
  | nil => exact searchFrom_nil (misses 0 le_rfl)
  | cons c cs ih =>
    rw [searchFrom_cons (by simpa using misses 0 (Nat.zero_le _))]
    refine ih fun i within => ?_
    rw [show here + 1 + i = here + (i + 1) by omega]
    exact misses (i + 1) (Nat.succ_le_succ within)

theorem exists_first {i : Nat} (within : i ≤ cs.length)
    (fits : fit eq p (cs.drop i) (here + i) ≠ none) :
    ∃ i ≤ cs.length, ∃ found, fit eq p (cs.drop i) (here + i) = some found ∧
      ∀ j < i, fit eq p (cs.drop j) (here + j) = none := by
  classical
  have some : ∃ i, i ≤ cs.length ∧ fit eq p (cs.drop i) (here + i) ≠ none := ⟨i, within, fits⟩
  obtain ⟨within, fits⟩ := Nat.find_spec some
  obtain ⟨found, fits⟩ := Option.ne_none_iff_exists'.mp fits
  refine ⟨Nat.find some, within, found, fits, fun j less => ?_⟩
  by_contra earlier
  exact Nat.find_min some less ⟨less.le.trans within, earlier⟩

theorem searchFrom_eq_none_iff :
    searchFrom eq [p] cs here = none ↔ ∀ i ≤ cs.length, fit eq p (cs.drop i) (here + i) = none := by
  refine ⟨fun run i within => ?_, searchFrom_of_misses⟩
  by_contra fits
  obtain ⟨i, within, found, fits, before⟩ := exists_first within fits
  cases run.symm.trans (searchFrom_of_first within fits before)

/-- A search finds the match at the first place at which there is one. -/
theorem searchFrom_eq_some_iff {found : Nat × List Nat × Nat} :
    searchFrom eq [p] cs here = some found ↔ ∃ i ≤ cs.length, found.1 = here + i ∧
      fit eq p (cs.drop i) (here + i) = some found.2 ∧ ∀ j < i,
        fit eq p (cs.drop j) (here + j) = none := by
  constructor
  · intro run
    have some : ¬ ∀ i ≤ cs.length, fit eq p (cs.drop i) (here + i) = none := by
      rw [← searchFrom_eq_none_iff, run]
      exact Option.some_ne_none found
    obtain ⟨i, within, fits⟩ : ∃ i, i ≤ cs.length ∧ fit eq p (cs.drop i) (here + i) ≠ none := by
      simpa only [not_forall, exists_prop] using some
    obtain ⟨i, within, first, fits, before⟩ := exists_first within fits
    cases run.symm.trans (searchFrom_of_first within fits before)
    exact ⟨i, within, rfl, fits, before⟩
  · rintro ⟨i, within, place, fits, before⟩
    rw [searchFrom_of_first within fits before, ← place]

theorem first_eq_some_iff {s part : String} : first p s = some part ↔
    ∃ found, searchFrom sameChar [p] s.toList 0 = some found ∧
      (parts s.toList found.2.1).head? = some part := by
  rw [first, search, searchAny, Option.bind_eq_some_iff]
  simp only [Option.map_eq_some_iff, exists_exists_and_eq_and]

end Searches

end Stratus.Text.Pattern
