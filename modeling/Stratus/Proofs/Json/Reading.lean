import Stratus.Proofs.Assoc
import Stratus.Proofs.Json.Glyph
import Stratus.Proofs.Text.Split

/-!
What is read of a JSON text. Reading stops between glyphs only. So where every glyph stands for a
character with a property, all texts of the value that is read have it throughout.
-/
namespace Stratus

/-- Every text inside a value has a property, names of entries included. -/
inductive Data.Texts (P : String → Prop) : Data → Prop where
  | null : Texts P .null
  | bool (b : Bool) : Texts P (.bool b)
  | int (n : Int) : Texts P (.int n)
  | float (x : Binary64) : Texts P (.float x)
  | str {s : String} (h : P s) : Texts P (.str s)
  | list {items : List Data} (inner : ∀ d ∈ items, Texts P d) : Texts P (.list items)
  | map {entries : Assoc Data} (names : ∀ key d, (key, d) ∈ entries → P key)
      (inner : ∀ key d, (key, d) ∈ entries → Texts P d) : Texts P (.map entries)

namespace Json

open Data (Texts)
open List

variable {P : Char → Prop}

/-- A glyph that stands for a character with a property, if it stands for any in a string. -/
structure Glyph.Fits (P : Char → Prop) (g : Glyph) : Prop where
  proper : g.Proper
  means : g ≠ .plain '"' → ∀ d, g.meaning? = some d → P d

def Clean (P : Char → Prop) : List Char → Prop := Composed (Glyph.Fits P)

def Throughout (P : Char → Prop) (s : String) : Prop := ∀ c ∈ s.toList, P c

instance (P : Char → Prop) [DecidablePred P] (s : String) : Decidable (Throughout P s) :=
  decidableBAll P s.toList

/-! ### Steps between glyphs -/

variable {cs : List Char} {n : Nat} {c : Cursor} {d : Data}

theorem Clean.tail {c : Char} (h : Clean P (c :: cs)) (other : c ≠ '\\') : Clean P cs := by
  obtain ⟨gs, same, fits⟩ := h
  cases gs with
  | nil => cases same
  | cons g gs =>
    have rest : ∀ g ∈ gs, g.Fits P := fun g mem => fits g (mem_cons_of_mem _ mem)
    cases g with
    | plain d =>
      cases same
      exact ⟨gs, rfl, rest⟩
    | escape e =>
      cases same
      exact absurd rfl other
    | code d =>
      cases same
      exact absurd rfl other

/-- The first characters of a text are no part of an escape. -/
def Free (n : Nat) (cs : List Char) : Prop := '\\' ∉ cs.take n

theorem Clean.drop (h : Clean P cs) (free : Free n cs) : Clean P (cs.drop n) := by
  induction n generalizing cs with
  | zero => exact h
  | succ n ih =>
    cases cs with
    | nil => exact h
    | cons c cs =>
      rw [Free, take_succ_cons, mem_cons, not_or] at free
      exact ih (h.tail (Ne.symm free.1)) free.2

theorem Free.add {m : Nat} (first : Free m cs) (later : Free n (cs.drop m)) : Free (m + n) cs := by
  rw [Free, take_add, mem_append, not_or]
  exact ⟨first, later⟩

theorem free_takeWhile {p : Char → Bool} (other : p '\\' = false) (cs : List Char) :
    Free (cs.takeWhile p).length cs := by
  have start : cs.take (cs.takeWhile p).length = cs.takeWhile p :=
    (prefix_iff_eq_take.mp ( takeWhile_prefix p)).symm
  intro mem
  rw [start] at mem
  have chosen := mem_takeWhile_imp mem
  rw [other] at chosen
  cases chosen

theorem Clean.skipGaps (h : Clean P c.rest) : Clean P c.skipGaps.rest :=
  h.drop (free_takeWhile rfl c.rest)

theorem string_clean {start fuel : Nat} {c' : Cursor} {s : String}
    (h : stringFrom start fuel [] c = .ok (s, c'))
    (clean : Clean P c.rest) : Throughout P s ∧ Clean P c'.rest := by
  obtain ⟨gs, same, fits⟩ := clean
  obtain ⟨rest, position⟩ := c
  cases same
  obtain ⟨body, rest, cs, rfl, inside, spells, rfl, left⟩ :=
    of_stringFrom (fun g mem => (fits g mem).proper) h
  refine ⟨?_, rest, left, fun g mem => fits g (by simp [mem])⟩
  intro d mem
  rw [reverse_nil, nil_append, String.toList_ofList] at mem
  obtain ⟨g, source, means⟩ := Outcome.exists_of_mem_forall₂ spells mem
  refine (fits g (mem_append_left _ source)).means ?_ d means
  rintro rfl
  exact inside source

/-! ### Words and numbers -/

theorem free_one {c : Char} (other : c ≠ '\\') (cs : List Char) : Free 1 (c :: cs) := by
  rw [Free, take_succ_cons, take_zero, mem_singleton]
  exact Ne.symm other

def signed : List Char → Bool × Nat × List Char
  | '-' :: more => (true, 1, more)
  | more => (false, 0, more)

theorem signed_free (cs : List Char) :
    Free (signed cs).2.1 cs ∧ cs.drop (signed cs).2.1 = (signed cs).2.2 := by
  unfold signed
  split
  · exact ⟨free_one (by decide) _, rfl⟩
  · exact ⟨not_mem_nil, rfl⟩

def fractionOf : List Char → List Char
  | '.' :: more => more.takeWhile isDigitChar
  | _ => []

def fractionLength (cs : List Char) : Nat :=
  if (fractionOf cs).isEmpty then 0 else (fractionOf cs).length + 1

theorem fractionOf_cases (cs : List Char) :
    fractionOf cs = [] ∨ ∃ more, cs = '.' :: more ∧ fractionOf cs = more.takeWhile isDigitChar := by
  unfold fractionOf
  split
  · exact .inr ⟨_, rfl, rfl⟩
  · exact .inl rfl

theorem fraction_free (cs : List Char) : Free (fractionLength cs) cs := by
  unfold fractionLength
  rcases fractionOf_cases cs with none | ⟨more, rfl, digits⟩
  · rw [none]
    exact not_mem_nil
  · rw [digits]
    split
    · exact not_mem_nil
    · rw [Nat.add_comm]
      exact (free_one (by decide) more).add (free_takeWhile rfl more)

def exponentLength (cs : List Char) : Nat := ((exponent? cs).map (·.2)).getD 0

theorem exponent?_free {e : Int × Nat} (h : exponent? cs = some e) : Free e.2 cs := by
  unfold exponent? at h
  split at h
  · next mark more =>
      split at h
      · next marked =>
          have other : mark ≠ '\\' := by
            rintro rfl
            cases marked
          split at h
          next negative signs digits given =>
          have sign : Free signs more ∧ more.drop signs = digits := by
            split at given
            · cases given
              exact ⟨free_one (by decide) _, rfl⟩
            · cases given
              exact ⟨free_one (by decide) _, rfl⟩
            · cases given
              exact ⟨not_mem_nil, rfl⟩
          obtain ⟨free, rfl⟩ := sign
          by_cases empty : ((more.drop signs).takeWhile isDigitChar).isEmpty = true
          · simp only [empty, if_true] at h
            cases h
          · simp only [empty] at h
            cases h
            refine ((free_one other more).add free).add ?_
            rw [← drop_drop]
            exact free_takeWhile rfl _
      · cases h
  · cases h

theorem exponent_free (cs : List Char) : Free (exponentLength cs) cs := by
  unfold exponentLength
  cases found : exponent? cs with
  | none => exact not_mem_nil
  | some e => exact exponent?_free found

def ended (negative : Bool) (sign : Nat) (whole rest : List Char) : Option (Data × Nat) :=
  let e := exponent? (rest.drop (fractionLength rest))
  let length := sign + whole.length + fractionLength rest +
    exponentLength (rest.drop (fractionLength rest))
  if (fractionOf rest).isEmpty && e.isNone then
    let n : Int := digitsNat whole
    some (.int (if negative then -n else n), length)
  else
    let x := Binary64.ofDecimal negative (digitsNat (whole ++ fractionOf rest))
      ((e.map (·.1)).getD 0 - (fractionOf rest).length)
    some (.float x, length)

theorem ended_eq_some {negative : Bool} {sign : Nat} {whole rest : List Char}
    (h : ended negative sign whole rest = some (d, n)) :
    n = sign + whole.length + fractionLength rest + exponentLength (rest.drop (fractionLength rest)) ∧
      ((∃ i, d = .int i) ∨ ∃ x, d = .float x) := by
  unfold ended at h
  by_cases integral : ((fractionOf rest).isEmpty &&
    (exponent? (rest.drop (fractionLength rest))).isNone) = true
  · simp only [integral, if_true] at h
    cases h
    exact ⟨rfl, .inl ⟨_, rfl⟩⟩
  · simp only [integral] at h
    cases h
    exact ⟨rfl, .inr ⟨_, rfl⟩⟩

def unsigned (negative : Bool) (sign : Nat) (body : List Char) : Option (Data × Nat) :=
  match body with
  | '0' :: _ => ended negative sign ['0'] (body.drop 1)
  | d :: _ =>
    if isDigitChar d then
      ended negative sign (body.takeWhile isDigitChar) (body.drop (body.takeWhile isDigitChar).length)
    else none
  | [] => none

theorem number?_eq (cs : List Char) :
    number? cs = unsigned (signed cs).1 (signed cs).2.1 (signed cs).2.2 := rfl

theorem unsigned_eq_some {negative : Bool} {sign : Nat} {body : List Char} {r : Data × Nat}
    (h : unsigned negative sign body = some r) :
    ∃ whole, Free whole.length body ∧
      ended negative sign whole (body.drop whole.length) = some r := by
  unfold unsigned at h
  split at h
  · exact ⟨['0'], free_one (by decide) _, h⟩
  · split at h
    · exact ⟨_, free_takeWhile rfl _, h⟩
    · cases h
  · cases h

theorem number?_eq_some (h : number? cs = some (d, n)) :
    Free n cs ∧ ((∃ i, d = .int i) ∨ ∃ x, d = .float x) := by
  rw [number?_eq] at h
  obtain ⟨first, body⟩ := signed_free cs
  obtain ⟨whole, free, ends⟩ := unsigned_eq_some h
  obtain ⟨rfl, kind⟩ := ended_eq_some ends
  refine ⟨?_, kind⟩
  have integer := first.add (body ▸ free)
  have after : cs.drop ((signed cs).2.1 + whole.length) = (signed cs).2.2.drop whole.length := by
    rw [← drop_drop, body]
  rw [← after]
  refine (integer.add (fraction_free _)).add ?_
  simpa only [drop_drop] using exponent_free _

theorem words_plain {word : String} (mem : (word, d) ∈ words) :
    '\\' ∉ word.toList ∧ ∀ Q, Texts Q d := by
  simp only [words, mem_cons, not_mem_nil, or_false, Prod.mk.injEq] at mem
  rcases mem with ⟨rfl, rfl⟩ | ⟨rfl, rfl⟩ | ⟨rfl, rfl⟩ | ⟨rfl, rfl⟩ | ⟨rfl, rfl⟩ | ⟨rfl, rfl⟩
  · exact ⟨by decide, fun Q => .null⟩
  · exact ⟨by decide, fun Q => .bool true⟩
  · exact ⟨by decide, fun Q => .bool false⟩
  · exact ⟨by decide, fun Q => .float _⟩
  · exact ⟨by decide, fun Q => .float _⟩
  · exact ⟨by decide, fun Q => .float _⟩

theorem scalar_clean {c' : Cursor} (h : scalar c = .ok (d, c')) (clean : Clean P c.rest) :
    Texts (Throughout P) d ∧ Clean P c'.rest := by
  unfold scalar at h
  split at h
  · next word value found =>
      cases h
      obtain ⟨plain, texts⟩ := words_plain (mem_of_find?_eq_some found)
      have starts := find?_some found
      obtain ⟨rest, same⟩ := Option.isSome_iff_exists.mp starts
      refine ⟨texts _, clean.drop ?_⟩
      rw [Text.after?_eq_some_iff.mp same, Free, ← String.length_toList, take_left]
      exact plain
  · split at h
    · next value n read =>
        cases h
        obtain ⟨free, kind⟩ := number?_eq_some read
        refine ⟨?_, clean.drop free⟩
        rcases kind with ⟨i, rfl⟩ | ⟨x, rfl⟩
        · exact .int i
        · exact .float x
    · cases h

/-! ### Values -/

/-- Readings within a bound on the steps keep to clean texts. -/
structure Kept (P : Char → Prop) (fuel : Nat) : Prop where
  value : ∀ {c d c'}, Clean P c.rest → value fuel c = .ok (d, c') → Texts (Throughout P) d ∧
    Clean P c'.rest
  items : ∀ {read c d c'}, (∀ d ∈ read, Texts (Throughout P) d) → Clean P c.rest →
    items fuel read c = .ok (d, c') →
    Texts (Throughout P) d ∧ Clean P c'.rest
  members : ∀ {read c d c'}, (∀ name d, (name, d) ∈ read → Throughout P name ∧
    Texts (Throughout P) d) →
    Clean P c.rest → members fuel read c = .ok (d, c') → Texts (Throughout P) d ∧ Clean P c'.rest

theorem Clean.advance {ch : Char} {rest : List Char} (h : Clean P c.rest)
    (starts : c.rest = ch :: rest) (other : ch ≠ '\\') : Clean P (c.advance 1).rest := by
  change Clean P (c.rest.drop 1)
  rw [starts] at h ⊢
  exact h.tail other

section Steps

variable {fuel : Nat} {c c' : Cursor} {d : Data} (ih : Kept P fuel) (clean : Clean P c.rest)

include ih clean

theorem value_kept (h : value (fuel + 1) c = .ok (d, c')) :
    Texts (Throughout P) d ∧ Clean P c'.rest := by
  unfold value at h
  split at h
  · next starts =>
      obtain ⟨⟨s, left⟩, read, last⟩ := Outcome.bind_eq_ok h
      cases last
      obtain ⟨all, clean⟩ := string_clean read (clean.advance starts (by decide))
      exact ⟨.str all, clean⟩
  · next starts =>
      have inside := (clean.advance starts (by decide)).skipGaps
      simp only at h
      split at h
      · next ends =>
          cases h
          exact ⟨.list (by simp), inside.advance ends (by decide)⟩
      · exact ih.items (by simp) inside h
  · next starts =>
      have inside := (clean.advance starts (by decide)).skipGaps
      simp only at h
      split at h
      · next ends =>
          cases h
          exact ⟨.map (by simp) (by simp), inside.advance ends (by decide)⟩
      · exact ih.members (by simp) inside h
  · exact scalar_clean h clean

theorem items_kept {read : List Data} (known : ∀ d ∈ read, Texts (Throughout P) d)
    (h : items (fuel + 1) read c = .ok (d, c')) : Texts (Throughout P) d ∧ Clean P c'.rest := by
  unfold items at h
  obtain ⟨⟨item, left⟩, first, h⟩ := Outcome.bind_eq_ok h
  obtain ⟨texts, clean⟩ := ih.value clean first
  have behind := clean.skipGaps
  have all : ∀ d ∈ item :: read, Texts (Throughout P) d := by
    intro d mem
    rcases mem_cons.mp mem with rfl | old
    · exact texts
    · exact known d old
  simp only at h
  split at h
  · next ends =>
      cases h
      exact ⟨.list fun d mem => all d (mem_reverse.mp mem), behind.advance ends (by decide)⟩
  · next more => exact ih.items all (behind.advance more (by decide)).skipGaps h
  · cases h

theorem members_kept {read : List (String × Data)}
    (known : ∀ name d, (name, d) ∈ read → Throughout P name ∧ Texts (Throughout P) d)
    (h : members (fuel + 1) read c = .ok (d, c')) : Texts (Throughout P) d ∧ Clean P c'.rest := by
  unfold members at h
  split at h
  · next starts =>
      obtain ⟨⟨name, left⟩, named, h⟩ := Outcome.bind_eq_ok h
      obtain ⟨spelling, clean⟩ := string_clean named (clean.advance starts (by decide))
      simp only at h
      split at h
      · next colon =>
          obtain ⟨⟨value, left⟩, given, h⟩ := Outcome.bind_eq_ok h
          obtain ⟨texts, clean⟩ := ih.value (clean.skipGaps.advance colon (by decide)).skipGaps given
          have behind := clean.skipGaps
          have all : ∀ key d, (key, d) ∈ (name, value) :: read → Throughout P key ∧
              Texts (Throughout P) d := by
            intro key d mem
            rcases mem_cons.mp mem with here | old
            · cases here
              exact ⟨spelling, texts⟩
            · exact known key d old
          simp only at h
          split at h
          · next ends =>
              cases h
              have written (key : String) (d : Data)
                  (mem : (key, d) ∈ Assoc.ofPairs ((name, value) :: read).reverse) :=
                all key d (mem_reverse.mp (Assoc.mem_of_mem_ofPairs mem))
              exact ⟨.map (fun key d mem => (written key d mem).1) fun key d mem =>
                (written key d mem).2, behind.advance ends (by decide)⟩
          · next more => exact ih.members all (behind.advance more (by decide)).skipGaps h
          · cases h
      · cases h
  · cases h

end Steps

theorem kept (P : Char → Prop) (fuel : Nat) : Kept P fuel := by
  induction fuel with
  | zero =>
    refine ⟨?_, ?_, ?_⟩
    · intro c d c' _ h
      cases h
    · intro read c d c' _ _ h
      cases h
    · intro read c d c' _ _ h
      cases h
  | succ fuel ih => exact ⟨value_kept ih, fun known clean => items_kept ih clean known,
      fun known clean => members_kept ih clean known⟩

/-- Whatever is read of a clean text has texts with the property only. -/
theorem texts_of_read {s : String} (clean : Clean P s.toList) (h : read s = .ok d) :
    Texts (Throughout P) d := by
  unfold read at h
  simp only at h
  split at h
  · cases h
  · split at h
    · cases h
    · next d' c found =>
        split at h
        · cases h
          exact ((kept P _).value clean.skipGaps found).1
        · cases h

end Json

end Stratus
