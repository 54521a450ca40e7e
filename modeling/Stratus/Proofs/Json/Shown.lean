import Stratus.Proofs.Json.Reading
import Stratus.Proofs.Json.Strings
import Stratus.Proofs.Text.Ranges

/-!
Shown texts as JSON. With double quotes for single ones a shown text looks like a JSON string; they
differ on quotes and on what is not printable.
-/
namespace Stratus.Json

open List Text

variable {c : Char} {glyphs : List Glyph} {text : List Char} {width n : Nat} {s : String}

/-- Characters that are shown in a way that JSON reads. -/
def Tame (c : Char) : Prop :=
  c ≠ '\'' ∧ c ≠ '"' ∧
    (isPrintable c = true ∨ c = '\n' ∨ c = '\r' ∨ c = '\t' ∨ 0x100 ≤ c.toNat ∧ c.toNat < 0x10000)

instance (c : Char) : Decidable (Tame c) := inferInstanceAs (Decidable (_ ∧ _))

def requoted (c : Char) : Char := if c = '\'' then '"' else c

theorem tame_of_wide (wide : 0x100 ≤ c.toNat ∧ c.toNat < 0x10000) : Tame c := by
  refine ⟨?_, ?_, .inr (.inr (.inr (.inr wide)))⟩
  · rintro rfl
    exact absurd wide (by decide)
  · rintro rfl
    exact absurd wide (by decide)

/-- The glyphs of a shown character, with double quotes for single ones. -/
def charGlyphs (quote c : Char) : List Glyph :=
  if c == quote || c == '\\' then [.escape (requoted c)]
  else if c == '\n' then [.escape 'n']
  else if c == '\r' then [.escape 'r']
  else if c == '\t' then [.escape 't']
  else if isPrintable c then [.plain (requoted c)]
  else if c.toNat < 0x100 then .escape 'x' :: (hex 2 c.toNat).map .plain
  else if c.toNat < 0x10000 then [.code c]
  else .escape 'U' :: (hex 8 c.toNat).map .plain

/-- The ways to show a character, as text and as glyphs. -/
inductive Shows (quote c : Char) : List Char → List Glyph → Prop where
  | escaped (own : c = quote ∨ c = '\\') : Shows quote c ['\\', c] [.escape (requoted c)]
  | blank (e : Char) (own : (c, e) ∈ [('\n', 'n'), ('\r', 'r'), ('\t', 't')]) :
      Shows quote c ['\\', e] [.escape e]
  | printable (free : c ≠ '\\') (own : isPrintable c = true) : Shows quote c [c] [.plain (requoted c)]
  | code (wide : 0x100 ≤ c.toNat ∧ c.toNat < 0x10000) : Shows quote c (unitEscape c.toNat) [.code c]
  | foreign (mark : Char) (width : Nat) (own : mark ∈ ['x', 'U']) (wild : ¬ Tame c) :
      Shows quote c ('\\' :: mark :: hex width c.toNat)
        (.escape mark :: (hex width c.toNat).map .plain)

theorem shows_char (quote c : Char) : Shows quote c (shownChar quote c) (charGlyphs quote c) := by
  have wide (tame : Tame c) (feed : ¬ (c == '\n') = true) (carriage : ¬ (c == '\r') = true)
      (tab : ¬ (c == '\t') = true) (dark : ¬ isPrintable c = true) : 0x100 ≤ c.toNat ∧
        c.toNat < 0x10000 := by
    rcases tame.2.2 with bright | rfl | rfl | rfl | wide
    · exact absurd bright dark
    · exact absurd rfl feed
    · exact absurd rfl carriage
    · exact absurd rfl tab
    · exact wide
  unfold shownChar charGlyphs
  simp only
  split_ifs with escaped feed carriage tab printable short code
  · rw [Bool.or_eq_true, beq_iff_eq, beq_iff_eq] at escaped
    exact .escaped escaped
  · rw [beq_iff_eq] at feed
    exact .blank 'n' (by simp [feed])
  · rw [beq_iff_eq] at carriage
    exact .blank 'r' (by simp [carriage])
  · rw [beq_iff_eq] at tab
    exact .blank 't' (by simp [tab])
  · rw [Bool.or_eq_true, beq_iff_eq, beq_iff_eq, not_or] at escaped
    exact .printable escaped.2 printable
  · refine .foreign 'x' 2 (by simp) ?_
    intro tame
    exact absurd short (Nat.not_lt.mpr (wide tame feed carriage tab printable).1)
  · exact .code ⟨Nat.le_of_not_lt short, code⟩
  · refine .foreign 'U' 8 (by simp) ?_
    intro tame
    exact absurd (wide tame feed carriage tab printable).2 code

theorem mem_hex (h : c ∈ hex width n) : ∃ k < 16, c = hexDigit k := by
  induction width generalizing n with
  | zero => cases h
  | succ width ih =>
    rcases mem_append.mp h with earlier | last
    · exact ih earlier
    · exact ⟨n % 16, Nat.mod_lt n (by decide), mem_singleton.mp last⟩

theorem hexDigit_tame {k : Nat} (h : k < 16) :
    Tame (hexDigit k) ∧ hexDigit k ≠ '\\' ∧ hexDigit k ≠ '\r' := by
  revert k
  decide

theorem map_requoted_hex (width n : Nat) : (hex width n).map requoted = hex width n := by
  have same : ∀ c ∈ hex width n, requoted c = c := by
    intro c mem
    obtain ⟨k, small, rfl⟩ := mem_hex mem
    exact if_neg (hexDigit_tame small).1.1
  rw [map_congr_left same, map_id']

theorem spelled_plain (cs : List Char) : spelled (cs.map .plain) = cs := by
  induction cs with
  | nil => rfl
  | cons c cs ih => exact congrArg (c :: ·) ih

theorem Shows.spelled_eq {quote c : Char} (shows : Shows quote c text glyphs) :
    spelled glyphs = text.map requoted := by
  have escaped (e : Char) (h : requoted e = e) (width n : Nat) :
      ('\\' :: e :: hex width n).map requoted = '\\' :: e :: hex width n := by
    rw [map_cons, map_cons, h, map_requoted_hex]
    rfl
  cases shows with
  | escaped own => rfl
  | blank e own =>
    simp only [mem_cons, Prod.mk.injEq, not_mem_nil, or_false] at own
    rcases own with ⟨-, rfl⟩ | ⟨-, rfl⟩ | ⟨-, rfl⟩ <;> rfl
  | printable free own => rfl
  | code wide =>
    rw [unitEscape, escaped 'u' rfl]
    exact append_nil _
  | foreign mark width own wild =>
    have kept : requoted mark = mark := by
      rcases mem_pair.mp own with rfl | rfl <;> rfl
    rw [escaped mark kept]
    exact congrArg ('\\' :: mark :: ·) (spelled_plain _)

def glyphsOf (s : String) : List Glyph := s.toList.flatMap (charGlyphs (shownQuote s))

theorem shownQuote_cases (s : String) : shownQuote s = '\'' ∨ shownQuote s = '"' := by
  unfold shownQuote
  split
  · exact .inr rfl
  · exact .inl rfl

theorem requoted_shown (s : String) : (shown s).toList.map requoted = quoted (glyphsOf s) := by
  have mark : requoted (shownQuote s) = '"' := by
    rcases shownQuote_cases s with single | double
    · rw [single]
      rfl
    · rw [double]
      rfl
  have body : (s.toList.flatMap (shownChar (shownQuote s))).map requoted = spelled (glyphsOf s) := by
    rw [spelled, glyphsOf, map_flatMap, flatMap_assoc]
    congr 1
    funext c
    exact (shows_char _ c).spelled_eq.symm
  rw [shown, String.toList_ofList, cons_append, map_cons, map_append, body, mark, quoted]
  simp [mark]

section Fits

variable {P : Char → Prop} (base : ∀ d, Tame d → P d) {g : Glyph}

include base

theorem fits_plain (tame : Tame c) (free : c ≠ '\\') (solid : c ≠ '\r') :
    (Glyph.plain c).Fits P ∧ '\r' ∉ (Glyph.plain c).written := by
  refine ⟨⟨free, ?_⟩, ?_⟩
  · intro _ d means
    simp only [Glyph.meaning?, Option.ite_none_left_eq_some, Option.some.injEq] at means
    exact means.2 ▸ base c tame
  · simpa [Glyph.written] using Ne.symm solid

theorem fits_hex (mem : g ∈ (hex width n).map .plain) : g.Fits P ∧ '\r' ∉ g.written := by
  obtain ⟨c, digit, rfl⟩ := mem_map.mp mem
  obtain ⟨k, small, rfl⟩ := mem_hex digit
  obtain ⟨tame, free, solid⟩ := hexDigit_tame small
  exact fits_plain base tame free solid

omit base in
theorem fits_escape {e : Char} (solid : e ≠ 'u' ∧ e ≠ '\r')
    (means : ∀ d, simpleEscape? e = some d → P d) :
    (Glyph.escape e).Fits P ∧ '\r' ∉ (Glyph.escape e).written := by
  refine ⟨⟨solid.1, fun _ => means⟩, ?_⟩
  simp [Glyph.written, Ne.symm solid.2]

omit base in
theorem fits_quote : (Glyph.plain '"').Fits P ∧ '\r' ∉ (Glyph.plain '"').written := by
  refine ⟨⟨?_, fun inside => absurd rfl inside⟩, ?_⟩
  · change '"' ≠ '\\'
    decide
  · decide

theorem fits_code (tame : Tame c) (small : c.toNat < 0x10000) :
    (Glyph.code c).Fits P ∧ '\r' ∉ (Glyph.code c).written := by
  refine ⟨⟨small, ?_⟩, ?_⟩
  · intro _ d means
    cases means
    exact base c tame
  · intro mem
    rcases mem_cons.mp mem with same | mem
    · cases same
    · rcases mem_cons.mp mem with same | mem
      · cases same
      · obtain ⟨k, small, same⟩ := mem_hex mem
        exact (hexDigit_tame small).2.2 same.symm

/-- Every glyph of a shown character stands for a tame one, or for a double quote if the character
is the quote itself. -/
theorem Shows.fits {quote c : Char} (shows : Shows quote c text glyphs)
    (mark : quote = '\'' ∨ quote = '"') (own : c = quote → P '"') (mem : g ∈ glyphs) :
    g.Fits P ∧ '\r' ∉ g.written := by
  have known {e d : Char} (means : simpleEscape? e = some d) (solid : e ≠ 'u' ∧ e ≠ '\r') (h : P d) :
      (Glyph.escape e).Fits P ∧ '\r' ∉ (Glyph.escape e).written := by
    refine fits_escape solid ?_
    intro d' same
    rw [means] at same
    cases same
    exact h
  cases shows with
  | escaped given =>
    rw [mem_singleton.mp mem]
    rcases given with same | rfl
    · have double : requoted c = '"' := by
        rcases mark with rfl | rfl <;> rw [same] <;> rfl
      rw [double]
      exact known rfl (by decide) (own same)
    · exact known rfl (by decide) (base _ (by decide))
  | blank e given =>
    rw [mem_singleton.mp mem]
    simp only [mem_cons, Prod.mk.injEq, not_mem_nil, or_false] at given
    rcases given with ⟨-, rfl⟩ | ⟨-, rfl⟩ | ⟨-, rfl⟩
    · exact known rfl (by decide) (base '\n' (by decide))
    · exact known rfl (by decide) (base '\r' (by decide))
    · exact known rfl (by decide) (base '\t' (by decide))
  | printable free given =>
    rw [mem_singleton.mp mem, requoted]
    split
    · exact fits_quote
    · next single =>
        by_cases double : c = '"'
        · rw [double]
          exact fits_quote
        · have solid : c ≠ '\r' := by
            rintro rfl
            cases given
          exact fits_plain base ⟨single, double, .inl given⟩ free solid
  | code wide =>
    rw [mem_singleton.mp mem]
    exact fits_code base (tame_of_wide wide) wide.2
  | foreign letter width given wild =>
    rcases mem_cons.mp mem with rfl | digit
    · refine fits_escape ?_ ?_
      · rcases mem_pair.mp given with rfl | rfl <;> decide
      · intro d means
        rcases mem_pair.mp given with rfl | rfl <;> cases means
    · exact fits_hex base digit

end Fits

theorem shownQuote_of_notMem (h : '\'' ∉ s.toList) : shownQuote s = '\'' := by
  have absent : s.toList.contains '\'' = false := by simpa using h
  rw [shownQuote, absent, Bool.false_and]
  rfl

theorem not_lt_of_printable (h : isPrintable c = true) : ¬ c.toNat < 0x20 := by
  have controls : clear 0 0x20 (bounds 0 printableSpans) = true := by decide +kernel
  intro small
  rw [isPrintable, among_eq, within_of_clear controls (Nat.zero_le _) small] at h
  cases h

theorem Shows.glyph_of_tame (shows : Shows '\'' c text glyphs)
    (tame : Tame c) : ∃ g, glyphs = [g] ∧ g.Proper ∧ g ≠ .plain '"' ∧ g.meaning? = some c := by
  cases shows with
  | escaped own =>
    rcases own with same | rfl
    · exact absurd same tame.1
    · exact ⟨_, rfl, by decide, by decide, rfl⟩
  | blank e own =>
    simp only [mem_cons, Prod.mk.injEq, not_mem_nil, or_false] at own
    rcases own with ⟨rfl, rfl⟩ | ⟨rfl, rfl⟩ | ⟨rfl, rfl⟩
    · exact ⟨_, rfl, by decide, by decide, rfl⟩
    · exact ⟨_, rfl, by decide, by decide, rfl⟩
    · exact ⟨_, rfl, by decide, by decide, rfl⟩
  | printable free own =>
    have same : requoted c = c := if_neg tame.1
    refine ⟨_, rfl, ?_⟩
    rw [same]
    exact ⟨free, by simpa using tame.2.1, if_neg (not_lt_of_printable own)⟩
  | code wide => exact ⟨_, rfl, wide.2, by simp, rfl⟩
  | foreign mark width own wild => exact absurd tame wild

theorem means_glyphsOf (tame : Throughout Tame s) : Means (glyphsOf s) s := by
  have quote : shownQuote s = '\'' := shownQuote_of_notMem fun mem => (tame _ mem).1 rfl
  rw [glyphsOf, quote]
  have all : ∀ cs, (∀ c ∈ cs, Tame c) →
    (∀ g ∈ cs.flatMap (charGlyphs '\''), g.Proper ∧ g ≠ .plain '"') ∧
      Spells (cs.flatMap (charGlyphs '\'')) cs := by
    intro cs tame
    induction cs with
    | nil => exact ⟨by simp, .nil⟩
    | cons c cs ih =>
      obtain ⟨g, here, proper, inside, means⟩ :=
        (shows_char '\'' c).glyph_of_tame (tame c mem_cons_self)
      obtain ⟨rest, spells⟩ := ih fun d mem => tame d (mem_cons_of_mem c mem)
      rw [flatMap_cons, here, singleton_append]
      refine ⟨?_, .cons means spells⟩
      intro g' mem
      rcases mem_cons.mp mem with rfl | later
      · exact ⟨proper, inside⟩
      · exact rest g' later
  obtain ⟨glyphs, spells⟩ := all s.toList tame
  exact ⟨fun g mem => (glyphs g mem).1, fun g mem => (glyphs g mem).2, spells⟩

end Stratus.Json
