import Mathlib
import Stratus.Json.Reader

/-!
Glyphs. A JSON text falls into characters and escapes, and inside a string each of these stands for
one character at most. A string is read glyph by glyph up to the first quote.
-/
namespace Stratus.Json

open Text

variable {gs : List Glyph} {cs : List Char}

inductive Glyph where
  | plain (c : Char)
  | escape (e : Char)
  | code (c : Char)
deriving DecidableEq

namespace Glyph

def written : Glyph → List Char
  | plain c => [c]
  | escape e => ['\\', e]
  | code c => unitEscape c.toNat

/-- What a glyph stands for in a string. -/
def meaning? : Glyph → Option Char
  | plain c => if c.toNat < 0x20 then none else some c
  | escape e => simpleEscape? e
  | code c => some c

/-- No glyph is written like the start of another one. -/
def Proper : Glyph → Prop
  | plain c => c ≠ '\\'
  | escape e => e ≠ 'u'
  | code c => c.toNat < 0x10000

instance : DecidablePred Proper
  | plain c => inferInstanceAs (Decidable (c ≠ '\\'))
  | escape e => inferInstanceAs (Decidable (e ≠ 'u'))
  | code c => inferInstanceAs (Decidable (c.toNat < 0x10000))

end Glyph

def spelled (gs : List Glyph) : List Char := gs.flatMap Glyph.written

/-- A text of glyphs with a property. -/
def Composed (Q : Glyph → Prop) (cs : List Char) : Prop := ∃ gs, cs = spelled gs ∧ ∀ g ∈ gs, Q g

section Composed

variable {Q : Glyph → Prop}

theorem composed_spelled (h : ∀ g ∈ gs, Q g) : Composed Q (spelled gs) := ⟨gs, rfl, h⟩

theorem Composed.append {cs ds : List Char} (hc : Composed Q cs) (hd : Composed Q ds) :
    Composed Q (cs ++ ds) := by
  obtain ⟨gs, rfl, first⟩ := hc
  obtain ⟨hs, rfl, last⟩ := hd
  refine ⟨gs ++ hs, List.flatMap_append.symm, ?_⟩
  intro g mem
  exact (List.mem_append.mp mem).elim (first g) (last g)

theorem composed_one {c : Char} (h : Q (.plain c)) : Composed Q [c] :=
  ⟨[.plain c], rfl, by simpa using h⟩

theorem Composed.imp {R : Glyph → Prop} (h : Composed Q cs) (weaker : ∀ g, Q g → R g) :
    Composed R cs := by
  obtain ⟨gs, same, all⟩ := h
  exact ⟨gs, same, fun g mem => weaker g (all g mem)⟩

end Composed

theorem hexValue?_hexDigit {n : Nat} (h : n < 16) : hexValue? (hexDigit n) = some n := by
  revert n
  decide

theorem unit?_hex {n : Nat} (h : n < 0x10000) (c : Char) (rest : List Char) :
    unit? (hex 4 n ++ c :: rest) = some n := by
  have digits : hex 4 n = [hexDigit (n / 16 / 16 / 16 % 16), hexDigit (n / 16 / 16 % 16),
      hexDigit (n / 16 % 16), hexDigit (n % 16)] := rfl
  have digit (k : Nat) : hexValue? (hexDigit (k % 16)) = some (k % 16) :=
    hexValue?_hexDigit (Nat.mod_lt k (by decide))
  simp only [digits, List.cons_append, List.nil_append, unit?, digit, Option.bind_eq_bind,
    Option.bind_some, Option.some.injEq]
  omega

theorem unicodeEscape?_hex {c : Char} (h : c.toNat < 0x10000) (next : Char) (rest : List Char) :
    unicodeEscape? (hex 4 c.toNat ++ next :: rest) = some (c, 4) := by
  have valid : c.toNat < 0xd800 ∨ 0xdfff < c.toNat := by
    rcases c.valid with low | high
    · exact .inl low
    · exact .inr high.1
  have high : (decide (0xd800 ≤ c.toNat) && decide (c.toNat < 0xdc00)) = false := by
    simp only [Bool.and_eq_false_iff, decide_eq_false_iff_not]
    omega
  have low : (decide (0xdc00 ≤ c.toNat) && decide (c.toNat < 0xe000)) = false := by
    simp only [Bool.and_eq_false_iff, decide_eq_false_iff_not]
    omega
  simp only [unicodeEscape?, unit?_hex h, Option.bind_eq_bind, Option.bind_some, high, low,
    Bool.false_eq_true, if_false, Char.ofNat_toNat]

section Strings

variable {start fuel position : Nat} {read : List Char} {r : String × Cursor}

theorem stringFrom_nil : stringFrom start fuel read ⟨[], position⟩ ≠ .ok r := by
  cases fuel <;> simp [stringFrom]

theorem stringFrom_quote (rest : List Char) :
    stringFrom start (fuel + 1) read ⟨'"' :: rest, position⟩ =
    .ok (String.ofList read.reverse, ⟨rest, position + 1⟩) := rfl

theorem stringFrom_glyph {g : Glyph} (proper : g.Proper) (inside : g ≠ .plain '"')
    (rest : List Char) :
    stringFrom start (fuel + 1) read ⟨g.written ++ rest, position⟩ = .ok r ↔
      ∃ d, g.meaning? = some d ∧
        stringFrom start fuel (d :: read) ⟨rest, position + g.written.length⟩ = .ok r := by
  cases g with
  | plain c =>
    have unquoted : c ≠ '"' := fun same => inside (same ▸ rfl)
    have step : stringFrom start (fuel + 1) read ⟨c :: rest, position⟩ =
        if c.toNat < 0x20 then .error (.controlCharacter, position)
        else stringFrom start fuel (c :: read) ⟨rest, position + 1⟩ := by
      rw [stringFrom]
      split <;> simp_all [Cursor.advance, Cursor.fail, Glyph.Proper]
    change stringFrom start (fuel + 1) read ⟨c :: rest, position⟩ = .ok r ↔ _
    by_cases control : c.toNat < 0x20
    · simp [step, control, Glyph.meaning?]
    · simp [step, control, Glyph.meaning?, Glyph.written]
  | escape e =>
    have known : e ≠ 'u' := proper
    have step : stringFrom start (fuel + 1) read ⟨'\\' :: e :: rest, position⟩ =
        (simpleEscape? e).elim (.error (.badEscape, position))
          fun d => stringFrom start fuel (d :: read) ⟨rest, position + 2⟩ := by
      rw [stringFrom]
      split
      · next same => cases same
      · next same => cases same
      · next same => cases same
      · next same =>
          cases same
          exact absurd rfl known
      · next same =>
          cases same
          cases simpleEscape? e <;> rfl
      · next other same =>
          cases same
          exact absurd rfl (other e rest rfl)
    change stringFrom start (fuel + 1) read ⟨'\\' :: e :: rest, position⟩ = .ok r ↔ _
    cases found : simpleEscape? e with
    | none => simp [step, found, Glyph.meaning?]
    | some d => simp [step, found, Glyph.meaning?, Glyph.written]
  | code c =>
    change stringFrom start (fuel + 1) read
      ⟨'\\' :: 'u' :: (hex 4 c.toNat ++ rest), position⟩ = .ok r ↔ _
    rw [stringFrom]
    cases rest with
    | nil =>
      have short : unicodeEscape? (hex 4 c.toNat) = none := rfl
      simp [short, stringFrom_nil]
    | cons next rest =>
      have six : (hex 4 c.toNat).length = 4 := rfl
      simp [unicodeEscape?_hex proper, Cursor.advance, Glyph.meaning?, Glyph.written, unitEscape, six]

/-- What glyphs stand for, one by one. -/
def Spells (gs : List Glyph) (cs : List Char) : Prop :=
  List.Forall₂ (fun g d => g.meaning? = some d) gs cs

theorem stringFrom_spelled (proper : ∀ g ∈ gs, g.Proper)
    (inside : ∀ g ∈ gs, g ≠ .plain '"') (spells : Spells gs cs) (enough : gs.length < fuel)
    (rest : List Char) :
    ∃ last, stringFrom start fuel read ⟨spelled gs ++ '"' :: rest, position⟩ =
      .ok (String.ofList (read.reverse ++ cs), ⟨rest, last⟩) := by
  induction spells generalizing fuel position read with
  | nil =>
    obtain ⟨fuel, rfl⟩ := Nat.exists_eq_succ_of_ne_zero (Nat.ne_of_gt enough)
    exact ⟨position + 1, by rw [List.append_nil]; exact stringFrom_quote rest⟩
  | @cons g d gs cs means _ ih =>
    obtain ⟨fuel, rfl⟩ := Nat.exists_eq_succ_of_ne_zero (Nat.ne_of_gt (Nat.zero_lt_of_lt enough))
    obtain ⟨last, later⟩ : ∃ last, stringFrom start fuel (d :: read)
        ⟨spelled gs ++ '"' :: rest, position + g.written.length⟩ =
          .ok (String.ofList ((d :: read).reverse ++ cs), ⟨rest, last⟩) :=
      ih (fun g mem => proper g (List.mem_cons_of_mem _ mem))
        (fun g mem => inside g (List.mem_cons_of_mem _ mem)) (Nat.lt_of_succ_lt_succ enough)
    refine ⟨last, ?_⟩
    rw [spelled, List.flatMap_cons, List.append_assoc,
      stringFrom_glyph (proper g List.mem_cons_self) (inside g List.mem_cons_self)]
    refine ⟨d, means, ?_⟩
    simpa [spelled] using later

/-- A string that is read is what the glyphs before the first quote stand for. -/
theorem of_stringFrom (proper : ∀ g ∈ gs, g.Proper) {s : String} {c : Cursor}
    (h : stringFrom start fuel read ⟨spelled gs, position⟩ = .ok (s, c)) :
    ∃ body rest cs, gs = body ++ .plain '"' :: rest ∧ .plain '"' ∉ body ∧ Spells body cs ∧
      s = String.ofList (read.reverse ++ cs) ∧ c.rest = spelled rest := by
  induction gs generalizing fuel position read with
  | nil => exact absurd h stringFrom_nil
  | cons g gs ih =>
    cases fuel with
    | zero => cases h
    | succ fuel =>
      by_cases ends : g = .plain '"'
      · subst ends
        cases h
        exact ⟨[], gs, [], rfl, List.not_mem_nil, .nil, by rw [List.append_nil], rfl⟩
      · rw [spelled, List.flatMap_cons, stringFrom_glyph (proper g List.mem_cons_self) ends] at h
        obtain ⟨d, means, h⟩ := h
        obtain ⟨body, rest, cs, rfl, inside, spells, rfl, left⟩ :=
          ih (fun g mem => proper g (List.mem_cons_of_mem _ mem)) h
        refine ⟨g :: body, rest, d :: cs, rfl, ?_, .cons means spells, ?_, left⟩
        · intro mem
          rcases List.mem_cons.mp mem with same | later
          · exact ends same.symm
          · exact inside later
        · simp

end Strings

end Stratus.Json
