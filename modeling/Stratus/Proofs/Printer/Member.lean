import Stratus.Proofs.Number.Decimal
import Stratus.Proofs.Text.Line
import Stratus.Source.Printer

/-!
Members of a block as lines. A key and a plain value make one line, from which the key can be told:
it ends at the first space or, if it is quoted, at the second quote.
-/
namespace Stratus

open List Text

variable {s : String} {c : Char}

theorem word_toString_nat (n : Nat) : Word (toString n) := by
  refine ⟨fun c mem => isBlank_of_ascii_digit (Numeral.isDigit_of_mem_repr mem), fun empty => ?_⟩
  exact Numeral.repr_ne_nil n (congrArg String.toList empty)

theorem word_toString_int (n : Int) : Word (toString n) := by
  cases n with
  | ofNat n => exact word_toString_nat n
  | negSucc n => exact .append_right (solid_of_all rfl) (word_toString_nat (n + 1))

namespace FloatLayout

variable {digits : List Char}

theorem solid_zeros (n : Nat) : Solid (zeros n) := by
  intro c mem
  rw [zeros, String.toList_ofList] at mem
  rw [eq_of_mem_replicate mem]
  decide

theorem solid_part {part : List Char} (solid : ∀ c ∈ digits, isBlank c = false)
    (sub : ∀ c ∈ part, c ∈ digits) :
    Solid (String.ofList part) := by
  intro c mem
  rw [String.toList_ofList] at mem
  exact solid c (sub c mem)

theorem word_signed (negative : Bool) (h : Word s) : Word (signed negative s) := by
  cases negative with
  | false => exact h
  | true => exact .append_right (solid_of_all rfl) h

theorem word_exponentText (layout : FloatLayout) (e : Int) : Word (layout.exponentText e) := by
  have sign : Solid (if e < 0 then "e-" else "e+") := by
    split <;> exact solid_of_all rfl
  exact .append_right (sign.append (solid_zeros _)) (word_toString_nat _)

theorem word_positional (solid : ∀ c ∈ digits, isBlank c = false) (lead : Int) :
    Word (positional digits lead) := by
  unfold positional
  split
  · have zero : Word "0." := ⟨solid_of_all rfl, by decide⟩
    exact (zero.append_left (solid_zeros _)).append_left (solid_part solid fun _ => id)
  · have point : Word "." := ⟨solid_of_all rfl, by decide⟩
    have whole : Solid (String.ofList (digits.take (lead.toNat + 1))) :=
      solid_part solid fun _ => mem_of_mem_take
    refine Word.append_left (.append_right (whole.append (solid_zeros _)) point) ?_
    split
    · exact solid_of_all rfl
    · exact solid_part solid fun _ => mem_of_mem_drop

theorem word_scientific (layout : FloatLayout) (solid : ∀ c ∈ digits, isBlank c = false)
    (lead : Int) :
    Word (layout.scientific digits lead) := by
  refine .append_right (Solid.append (solid_part solid fun _ => mem_of_mem_take) ?_)
    (word_exponentText layout lead)
  split
  · exact solid_of_all rfl
  · exact Solid.append (solid_of_all rfl) (solid_part solid fun _ => mem_of_mem_drop)

theorem word_write (x : Binary64) : Word (shown.write x) := by
  have digits (n : Nat) : ∀ c ∈ Nat.toDigits 10 n, isBlank c = false := by
    intro c mem
    exact isBlank_of_ascii_digit (Nat.isDigit_of_mem_toDigits (by omega) (by omega) mem)
  unfold write
  split
  · exact ⟨solid_of_all rfl, by decide⟩
  · split
    · exact word_signed _ ⟨solid_of_all rfl, by decide⟩
    · split
      · exact word_signed _ ⟨solid_of_all rfl, by decide⟩
      · apply word_signed
        split
        · exact word_positional (digits _) _
        · exact word_scientific _ (digits _) _

end FloatLayout

theorem Text.notMem_hex (other : ∀ m < 16, c ≠ hexDigit m) (width n : Nat) : c ∉ hex width n := by
  induction width generalizing n with
  | zero => simp [hex]
  | succ width ih => simp [hex, ih, other (n % 16) (Nat.mod_lt n (by decide))]

theorem Text.line_feed_notMem_unitEscape (n : Nat) : '\n' ∉ unitEscape n := by
  have digits : '\n' ∉ hex 4 n := notMem_hex (by decide) 4 n
  simp [unitEscape, digits]

/-- In a JSON string a line feed is escaped, and no escape has one. -/
theorem Text.line_feed_notMem_jsonChar (c : Char) : '\n' ∉ jsonChar c := by
  unfold jsonChar
  split
  case h_8 c _ _ unbroken _ _ _ _ =>
    dsimp only
    split
    · simpa using Ne.symm unbroken
    · split
      · exact line_feed_notMem_unitEscape _
      · simp [line_feed_notMem_unitEscape]
  all_goals decide

theorem Text.isLine_quoted (unbroken : '\n' ∉ s.toList) : IsLine ("\"" ++ s ++ "\"") := by
  have quote : IsLine "\"" := Word.isLine ⟨solid_of_all rfl, by decide⟩
  exact quote.append quote unbroken

theorem Text.isLine_jsonQuoted (s : String) : IsLine (jsonQuoted s) := by
  apply isLine_quoted
  simp [jsonEscaped, line_feed_notMem_jsonChar]

namespace Printer

variable {k : String}

theorem isLine_literal {d : Data} (plain : d.hashable = true) : IsLine (literal d) := by
  cases d with
  | null => exact Word.isLine ⟨solid_of_all rfl, by decide⟩
  | bool b => cases b <;> exact Word.isLine ⟨solid_of_all rfl, by decide⟩
  | int n => exact (word_toString_int n).isLine
  | float x => exact (FloatLayout.word_write x).isLine
  | str s => exact isLine_jsonQuoted s
  | list items => cases plain
  | map entries => cases plain

/-- Keys without quotes and line feeds. -/
def Legible (k : String) : Prop := '"' ∉ k.toList ∧ '\n' ∉ k.toList

theorem isBlank_of_isKeyPart (h : isKeyPart c = true) : isBlank c = false := by
  have none : clear 0x21 0x7f blankRanges = true := by decide
  have graphic : 0x21 ≤ c.toNat ∧ c.toNat < 0x7f := by
    simp only [isKeyPart, Char.isAlphanum, Char.isAlpha, Char.isUpper, Char.isLower, Char.isDigit,
      Bool.or_eq_true,
      Bool.and_eq_true, decide_eq_true_eq, beq_iff_eq, ge_iff_le, UInt32.le_iff_toNat_le] at h
    rcases h with (((h | h) | h) | rfl) | rfl
    iterate 3 exact ⟨Nat.le_trans (by decide) h.1, Nat.lt_of_le_of_lt h.2 (by decide)⟩
    all_goals decide
  exact within_of_clear none graphic.1 graphic.2

/-- A key that is written without quotes is a word. -/
theorem word_of_isPlainKey (unbroken : '\n' ∉ k.toList) (plain : isPlainKey k = true) : Word k := by
  unfold isPlainKey at plain
  split at plain
  · next c rest spelled =>
      simp only [Bool.and_eq_true, Bool.or_eq_true, beq_iff_eq] at plain
      obtain ⟨start, parts⟩ := plain
      have first : isKeyPart c = true := by
        simp only [isKeyStart, Bool.or_eq_true] at start
        simp only [isKeyPart, Char.isAlphanum, Bool.or_eq_true]
        tauto
      have unended : rest.dropWhile isKeyPart = [] := by
        refine parts.resolve_right fun ended => unbroken ?_
        have mem : '\n' ∈ rest.dropWhile isKeyPart := by simp [ended]
        exact spelled ▸ mem_cons_of_mem _ ((dropWhile_sublist _).subset mem)
      refine ⟨?_, ?_⟩
      · intro d mem
        rw [spelled] at mem
        rcases mem_cons.mp mem with rfl | mem
        · exact isBlank_of_isKeyPart first
        · exact isBlank_of_isKeyPart (dropWhile_eq_nil_iff.mp unended d mem)
      · rintro rfl
        cases spelled
  · cases plain

theorem isLine_key (legible : Legible k) : IsLine (key k) := by
  unfold key
  split
  · next plain => exact (word_of_isPlainKey legible.2 plain).isLine
  · exact isLine_quoted legible.2

theorem eq_of_append_cons {a b x y : List Char} (ha : c ∉ a) (hb : c ∉ b)
    (same : a ++ c :: x = b ++ c :: y) : a = b := by
  have pieces := congrArg (splitOn c) same
  rw [splitOn_first ha, splitOn_first hb] at pieces
  exact (cons.inj pieces).1

theorem cons_quote_ne (legible : Legible k) (plain : isPlainKey k = true) (x y : List Char) :
    '"' :: y ≠ k.toList ++ x := by
  have filled : k.toList ≠ [] := by simpa using (word_of_isPlainKey legible.2 plain).filled
  obtain ⟨c, rest, spelled⟩ := exists_cons_of_ne_nil filled
  rw [spelled]
  intro same
  have quote : '"' = c := (cons.inj same).1
  exact legible.1 (by rw [spelled, quote]; exact mem_cons_self)

theorem quoted_append (k : String) (x : List Char) :
    (quoted k).toList ++ x = '"' :: (k.toList ++ '"' :: x) := by
  simp [quoted, String.toList_append]

theorem eq_of_key_eq {k k' v v' : String} (legible : Legible k) (legible' : Legible k')
    (same : key k ++ " = " ++ v = key k' ++ " = " ++ v') : k = k' := by
  have same : (key k).toList ++ ' ' :: ("= " ++ v).toList = (key k').toList ++ ' ' ::
      ("= " ++ v').toList := by
    simpa [String.toList_append] using congrArg String.toList same
  apply String.toList_inj.mp
  have spaceless {k : String} (legible : Legible k) (plain : isPlainKey k = true) : ' ' ∉
      k.toList := by
    intro mem
    exact absurd ((word_of_isPlainKey legible.2 plain).solid _ mem) (by decide)
  unfold key at same
  -- a plain key ends at the first space, a quoted one at its second quote, and they start
  -- differently
  by_cases plain : isPlainKey k = true
  · by_cases plain' : isPlainKey k' = true
    · rw [if_pos plain, if_pos plain'] at same
      exact eq_of_append_cons (spaceless legible plain) (spaceless legible' plain') same
    · rw [if_pos plain, if_neg plain', quoted_append] at same
      exact absurd same.symm (cons_quote_ne legible plain _ _)
  · by_cases plain' : isPlainKey k' = true
    · rw [if_neg plain, if_pos plain', quoted_append] at same
      exact absurd same (cons_quote_ne legible' plain' _ _)
    · rw [if_neg plain, if_neg plain', quoted_append, quoted_append] at same
      exact eq_of_append_cons legible.1 legible'.1 (cons.inj same).2

def memberText (e : String × Data) : String := key e.1 ++ " = " ++ literal e.2

def bodyLines (level : Int) (members : List (String × Data)) : List String :=
  members.map fun e => padding level ++ memberText e

/-- The members of a body, each on a line of its own. -/
def bodyText (level : Int) (members : List (String × Data)) : String :=
  String.join ((bodyLines level members).map (· ++ "\n"))

/-- A line gives the field a value. -/
def Assigns (text field : String) : Prop :=
  ∃ value, padding 1 ++ (key field ++ " = " ++ value) ∈ split text "\n"

theorem eq_of_mem_padding {level : Int} (h : c ∈ (padding level).toList) : c = ' ' := by
  simp only [padding, repeated, String.toList_join, mem_flatMap] at h
  obtain ⟨s, mem, inside⟩ := h
  rw [eq_of_mem_replicate mem] at inside
  simpa using inside

theorem unbroken_padded (level : Int) (unbroken : '\n' ∉ s.toList) :
    '\n' ∉ (padding level ++ s).toList := by
  rw [String.toList_append, mem_append, not_or]
  exact ⟨fun inside => absurd (eq_of_mem_padding inside) (by decide), unbroken⟩

theorem strip_padded (level : Int) (tight : Tight s) : strip (padding level ++ s) = s := by
  refine strip_margin (fun c mem => ?_) tight
  rw [eq_of_mem_padding mem]
  decide

section Bodies

variable {members : List (String × Data)} (lined : ∀ e ∈ members, IsLine (memberText e))

include lined

theorem unbroken_bodyLines (level : Int) : ∀ line ∈ bodyLines level members, '\n' ∉ line.toList := by
  intro line mem
  obtain ⟨e, present, rfl⟩ := mem_map.mp mem
  exact unbroken_padded level (lined e present).unbroken

/-- The lines between the braces of a block are those of its body, whatever their margin was. -/
theorem relaid_bodyText (level inner outer : Int) :
    relaid level (openBrace ++ bodyText inner members ++ padding outer ++ "\x7d") =
      bodyText level members := by
  have whole : openBrace ++ bodyText inner members ++ padding outer ++ "\x7d" =
      String.join (("\x7b" :: bodyLines inner members).map (· ++ "\n")) ++
        (padding outer ++ "\x7d") := by
    simp only [bodyText, map_cons, String.join_cons, String.append_assoc]
    rfl
  have unbroken : ∀ line ∈ "\x7b" :: bodyLines inner members, '\n' ∉ line.toList := by
    intro line mem
    rcases mem_cons.mp mem with rfl | mem
    · decide
    · exact unbroken_bodyLines lined inner line mem
  have lines : ((("\x7b" :: bodyLines inner members) ++ [padding outer ++ "\x7d"]).drop 1).dropLast =
      bodyLines inner members := by simp
  rw [whole, relaid, split_lines _ _ unbroken (unbroken_padded outer (by decide)), lines,
    bodyText, bodyLines, bodyLines, filterMap_map, map_map, ← filterMap_eq_map]
  refine congrArg String.join (filterMap_congr fun e present => ?_)
  have tight := (lined e present).toTight
  simp [strip_padded inner tight, tight.ne_empty]

theorem assigns_bodyText_iff {field : String} (legible : ∀ e ∈ members, Legible e.1)
    (legible' : Legible field) :
    Assigns (bodyText 1 members) field ↔ field ∈ members.map Prod.fst := by
  have lines : split (bodyText 1 members) "\n" = bodyLines 1 members ++ [""] := by
    simpa [bodyText] using split_lines _ "" (unbroken_bodyLines lined 1) (by decide)
  simp only [Assigns, lines, mem_append, mem_singleton, mem_map, bodyLines]
  constructor
  · rintro ⟨value, ⟨e, present, same⟩ | empty⟩
    · exact ⟨e, present, eq_of_key_eq (legible e present) legible'
        ((String.append_right_inj _).mp same)⟩
    · exact absurd (String.append_eq_empty_iff.mp empty).1 (by decide)
  · rintro ⟨e, present, rfl⟩
    exact ⟨literal e.2, .inl ⟨e, present, rfl⟩⟩

end Bodies

end Printer

end Stratus
