import Stratus.Proofs.Lexer.Rendering
import Stratus.Proofs.Printer.Indentation

/-!
Quoted text of the printer, scanned again. The scanner knows `n`, `r` and `t` behind a backslash, so
a literal comes back just when JSON needs no other escape, and a key when it has nothing to escape.
-/
namespace Stratus

open List Text

variable {cs : List Char}

namespace Lexer

/-- A text is one string with this value, and nothing follows it. -/
def ReadsAs (text value : String) : Prop :=
  ∃ tokens, tokenize text = .ok tokens ∧ tokens.map Token.mark = [(.string, value), (.endOfFile, "")]

section Quoted

variable {quote : Char} {body value : List Char}

theorem quoted_self (unquoted : quote ∉ cs) (unescaped : '\\' ∉ cs) : Quoted quote cs cs := by
  induction cs with
  | nil => exact .nil
  | cons c cs ih =>
    rw [mem_cons, not_or] at unquoted unescaped
    exact .plain (Ne.symm unescaped.1) (Ne.symm unquoted.1) (ih unquoted.2 unescaped.2)

theorem Quoted.length_le (h : Quoted quote body value) : value.length ≤ body.length := by
  induction h with
  | nil => exact Nat.le_refl 0
  | escaped _ ih => simp only [length_cons]; omega
  | plain _ _ _ ih => exact Nat.succ_le_succ ih

/-- A spelling that is no longer than its value has no escapes. -/
theorem Quoted.plain_of_length (h : Quoted quote body value) (short : body.length ≤ value.length) :
    body = value ∧ quote ∉ value ∧ '\\' ∉ value := by
  induction h with
  | nil => exact ⟨rfl, not_mem_nil, not_mem_nil⟩
  | @escaped c body value spelled _ =>
    have := spelled.length_le
    simp only [length_cons] at short
    omega
  | plain unescaped unquoted _ ih =>
    obtain ⟨rfl, noQuote, noEscape⟩ := ih (Nat.le_of_succ_le_succ short)
    refine ⟨rfl, ?_, ?_⟩
    · exact not_mem_cons_of_ne_of_not_mem (Ne.symm unquoted) noQuote
    · exact not_mem_cons_of_ne_of_not_mem (Ne.symm unescaped) noEscape

end Quoted

theorem tokenize_quoted {body value : List Char} (spelled : Quoted '"' body value) :
    tokenize (String.ofList ('"' :: (body ++ ['"']))) =
      .ok [⟨.string, String.ofList value, 1, 2⟩, ⟨.endOfFile, "", 1, body.length + 3⟩] := by
  have behind : Position.right .start (body.length + 1 + 1) = ⟨1, body.length + 3⟩ := by
    simp only [Position.right, Position.start, Position.mk.injEq, true_and]
    omega
  have scans := Scans.step (step_quoted spelled [] .start) (.finish _)
  rw [behind] at scans
  rw [tokenize_eq_ok_iff, String.toList_ofList]
  exact scans

theorem readsAs_quoted_iff {body value : List Char} (spelled : Quoted '"' body value) {s : String} :
    ReadsAs (String.ofList ('"' :: (body ++ ['"']))) s ↔ value = s.toList := by
  rw [ReadsAs, tokenize_quoted spelled]
  constructor
  · rintro ⟨tokens, run, marks⟩
    cases run
    simp only [map_cons, map_nil, Token.mark, cons.injEq, Prod.mk.injEq, true_and, and_true] at marks
    rw [← marks, String.toList_ofList]
  · rintro rfl
    exact ⟨_, rfl, by simp [Token.mark]⟩

/-- A text that opens with a quote and is one string begins with a spelling of its value. -/
theorem quoted_of_readsAs {value : String} (h : ReadsAs (String.ofList ('"' :: cs)) value) :
    ∃ body rest, cs = body ++ '"' :: rest ∧ Quoted '"' body value.toList := by
  obtain ⟨tokens, run, marks⟩ := h
  rw [tokenize_eq_ok_iff, String.toList_ofList] at run
  cases run with
  | @step _ p' _ _ token rest tokens hs _ =>
    have moves := step_moves hs
    generalize whole : '"' :: cs = text at moves
    cases moves with
    | blank blank =>
      rw [← (cons.inj whole).1] at blank
      exact absurd blank (by decide)
    | comment marked _ => rcases marked with rfl | rfl <;> cases whole
    | lastComment marked _ => rcases marked with rfl | rfl <;> cases whole
    | @lexeme kind read chars spelled =>
      simp only [Option.toList_some, cons_append, map_cons, Token.mark, cons.injEq,
        Prod.mk.injEq] at marks
      obtain ⟨⟨rfl, rfl⟩, -⟩ := marks
      obtain ⟨quote, body, _, rfl, quoted⟩ := spelled.quotes rfl
      rw [cons_append, append_assoc] at whole
      obtain ⟨rfl, rfl⟩ := cons.inj whole
      exact ⟨body, rest, rfl, by rwa [String.toList_ofList]⟩

end Lexer

namespace Printer

open Effect Lexer

variable {c : Char} {shown : Printed} {st st' : State} {r : Registry} {k : String}

/-- Printable characters of ASCII, and the three that have an escape known to the scanner. -/
def Retained (c : Char) : Prop := (' ' ≤ c ∧ c ≤ '~') ∨ c = '\n' ∨ c = '\r' ∨ c = '\t'

instance : DecidablePred Retained := fun _ => inferInstanceAs (Decidable (_ ∨ _))

/-- What is read for a character of a literal: of an unknown escape all but the backslashes. -/
def heard (c : Char) : List Char := if Retained c then [c] else (jsonChar c).filter (· != '\\')

theorem printable_iff : (' ' ≤ c ∧ c ≤ '~') ↔
    (decide (0x20 ≤ c.toNat) && decide (c.toNat < 0x7f)) = true := by
  rw [Char.le_def, Char.le_def, UInt32.le_iff_toNat_le, UInt32.le_iff_toNat_le, Bool.and_eq_true,
    decide_eq_true_eq, decide_eq_true_eq, Nat.lt_succ_iff]
  rfl

theorem quoted_unitEscape (n : Nat) :
    Quoted '"' (unitEscape n) ((unitEscape n).filter (· != '\\')) := by
  have unquoted : '"' ∉ hex 4 n := notMem_hex (by decide) 4 n
  have unescaped : '\\' ∉ hex 4 n := notMem_hex (by decide) 4 n
  have digits : (hex 4 n).filter (· != '\\') = hex 4 n := by
    rw [filter_eq_self]
    intro c mem
    rw [bne_iff_ne]
    rintro rfl
    exact unescaped mem
  have dropped : (unitEscape n).filter (· != '\\') = unescape 'u' :: hex 4 n :=
    congrArg ('u' :: ·) digits
  rw [dropped]
  exact .escaped (quoted_self unquoted unescaped)

theorem quoted_jsonChar_of_retained (kept : Retained c) : Quoted '"' (jsonChar c) [c] := by
  unfold jsonChar
  split
  case h_8 _ unquoted unescaped feed ret tab _ _ =>
    have printable : (decide (0x20 ≤ c.toNat) && decide (c.toNat < 0x7f)) = true := by
      rcases kept with printable | rfl | rfl | rfl
      · exact printable_iff.mp printable
      · exact absurd rfl feed
      · exact absurd rfl ret
      · exact absurd rfl tab
    dsimp only
    rw [if_pos printable]
    exact .plain unescaped unquoted .nil
  case h_6 => exact absurd kept (by decide)
  case h_7 => exact absurd kept (by decide)
  all_goals exact .escaped .nil

/-- The escape of any other character is one that the scanner does not know. -/
theorem jsonChar_of_not_retained (lost : ¬ Retained c) :
    Quoted '"' (jsonChar c) ((jsonChar c).filter (· != '\\')) ∧
      ∃ e rest, jsonChar c = '\\' :: e :: rest ∧ e ≠ '\\' ∧ Retained e := by
  unfold jsonChar
  split
  case h_8 =>
    have unprintable : ¬ (decide (0x20 ≤ c.toNat) && decide (c.toNat < 0x7f)) = true :=
      fun printable =>
      lost (.inl (printable_iff.mpr printable))
    dsimp only
    rw [if_neg unprintable]
    split
    · exact ⟨quoted_unitEscape _, 'u', _, rfl, by decide, by decide⟩
    · refine ⟨?_, 'u', _, rfl, by decide, by decide⟩
      rw [filter_append]
      exact (quoted_unitEscape _).append (quoted_unitEscape _)
  case h_6 => exact ⟨.escaped .nil, 'b', [], rfl, by decide, by decide⟩
  case h_7 => exact ⟨.escaped .nil, 'f', [], rfl, by decide, by decide⟩
  all_goals exact absurd (by decide) lost

theorem quoted_jsonChar (c : Char) : Quoted '"' (jsonChar c) (heard c) := by
  unfold heard
  split
  · next kept => exact quoted_jsonChar_of_retained kept
  · next lost => exact (jsonChar_of_not_retained lost).1

/-- In place of a character that is not retained another one is read. -/
theorem heard_of_not_retained (lost : ¬ Retained c) : ∃ d rest, heard c = d :: rest ∧ Retained d := by
  obtain ⟨e, rest, escape, unescaped, retained⟩ := (jsonChar_of_not_retained lost).2
  refine ⟨e, rest.filter (· != '\\'), ?_, retained⟩
  simp [heard, lost, escape, unescaped]

theorem flatMap_heard_eq_iff : cs.flatMap heard = cs ↔ ∀ c ∈ cs, Retained c := by
  induction cs with
  | nil => simp
  | cons c cs ih =>
    rw [flatMap_cons, forall_mem_cons, ← ih]
    by_cases kept : Retained c
    · simp [heard, kept]
    · obtain ⟨d, rest, found, retained⟩ := heard_of_not_retained kept
      have other : d ≠ c := fun same => kept (same ▸ retained)
      simp [found, kept, other]

theorem readsAs_jsonQuoted_iff {s value : String} :
    ReadsAs (jsonQuoted s) value ↔ s.toList.flatMap heard = value.toList := by
  have text : jsonQuoted s = String.ofList ('"' :: (s.toList.flatMap jsonChar ++ ['"'])) := by
    apply String.toList_inj.mp
    simp [jsonQuoted, jsonEscaped, String.toList_append]
  rw [text, readsAs_quoted_iff (.flatMap quoted_jsonChar s.toList)]

/-- A text printed as a literal is read back as one string with the same value just when all its
characters are retained. -/
theorem literal_readsAs_iff (r : Registry) (st : State) (s : String) :
    ∃ text, Returns (visit r (.literal (.str s))) st (some text) st ∧
      (ReadsAs text s ↔ ∀ c ∈ s.toList, Retained c) := by
  refine ⟨jsonQuoted s, rfl, ?_⟩
  rw [readsAs_jsonQuoted_iff, flatMap_heard_eq_iff]

theorem readsAs_quoted_self_iff : ReadsAs (quoted k) k ↔ '"' ∉ k.toList ∧ '\\' ∉ k.toList := by
  have text : quoted k = String.ofList ('"' :: (k.toList ++ ['"'])) := by
    apply String.toList_inj.mp
    simp [quoted, String.toList_append]
  rw [text]
  constructor
  · intro read
    obtain ⟨body, rest, whole, spelled⟩ := quoted_of_readsAs read
    -- the value is as long as all that stands before the last quote, so nothing of it is an escape
    have short : body.length ≤ k.toList.length := by
      have sizes := congrArg length whole
      simp only [length_append, length_cons, length_nil] at sizes
      omega
    exact (spelled.plain_of_length short).2
  · rintro ⟨unquoted, unescaped⟩
    exact (readsAs_quoted_iff (quoted_self unquoted unescaped)).mpr rfl

theorem visit_keyValue_iff {value : Node} : Returns (visit r (.keyValue k value)) st shown st' ↔
      ∃ printed, Returns (visit r value) st printed st' ∧
        shown = some (key k ++ " = " ++ inline printed) := by
  have unfolded : visit r (.keyValue k value) =
      (fun printed => some (key k ++ " = " ++ inline printed)) <$> visit r value := rfl
  rw [unfolded, returns_map_iff]

/-- A line of an object: its margin, a key, and what the printer makes of the value. -/
def AttributeLine (r : Registry) (level : Int) (e : String × Node) (line : String) : Prop :=
  ∃ depth printed m m', Returns (within r depth e.2) m printed m' ∧
    line = padding level ++ (key e.1 ++ " = " ++ inline printed ++ "\n")

theorem lines_of_visit_object {attributes : List (String × Node)}
    (filled : attributes ≠ []) (run : Returns (visit r (.object attributes)) st shown st') :
    ∃ lines, List.Forall₂ (AttributeLine r (st.indent + 1)) attributes lines ∧
      shown = some (openBrace ++ String.join lines ++ padding st.indent ++ "\x7d") := by
  have unfolded : visit r (.object attributes) =
      object (within r (maxDepth + Node.heightEntries attributes)) attributes := rfl
  rw [unfolded, object, if_neg (by simpa using filled)] at run
  simp only [returns_bind_iff, indentBy, indentation, returns_modify_iff, returns_get_iff,
    returns_pure_iff] at run
  obtain ⟨_, m, rfl, lines, m', loop, _, _, rfl, _, _, ⟨_, _, ⟨rfl, rfl⟩, rfl, rfl⟩, rfl, rfl⟩ := run
  obtain ⟨each, kept⟩ :
      List.Forall₂ (AttributeLine r (st.indent + 1)) attributes lines ∧
        m'.indent = st.indent + 1 := by
    -- the margin is the same at every attribute, since printing a value keeps it
    refine loop.mapM_forall₂ (P := fun m => m.indent = st.indent + 1) rfl
      fun e s line s' level step => ?_
    simp only [returns_bind_iff, returns_get_iff, returns_pure_iff] at step
    obtain ⟨printed, m, print, _, _, ⟨_, _, ⟨rfl, rfl⟩, rfl, rfl⟩, rfl, rfl⟩ := step
    have margin := (indent_eq_of_within print).trans level
    refine ⟨⟨_, printed, _, _, print, ?_⟩, margin⟩
    rw [margin]
    rfl
  refine ⟨lines, each, ?_⟩
  simp [kept]

/-- A key that stands in quotes is read back as one string with the same value just when it has
neither a quote nor a backslash. -/
theorem key_readsAs_iff {k : String} (unsuited : isPlainKey k = false) :
    (∀ r value st shown st', Returns (visit r (.keyValue k value)) st shown st' ↔
      ∃ printed, Returns (visit r value) st printed st' ∧
        shown = some (key k ++ " = " ++ inline printed)) ∧
    (∀ r attributes st shown st', k ∈ Assoc.keys attributes →
      Returns (visit r (.object attributes)) st shown st' →
      ∃ lines, List.Forall₂ (AttributeLine r (st.indent + 1)) attributes lines ∧
        shown = some (openBrace ++ String.join lines ++ padding st.indent ++ "\x7d")) ∧
    (ReadsAs (key k) k ↔ '"' ∉ k.toList ∧ '\\' ∉ k.toList) := by
  refine ⟨fun _ _ _ _ _ => visit_keyValue_iff, ?_, ?_⟩
  · intro r attributes st shown st' mem run
    have filled : attributes ≠ [] := by
      rintro rfl
      cases mem
    exact lines_of_visit_object filled run
  · have text : key k = quoted k := by simp [key, unsuited]
    rw [text]
    exact readsAs_quoted_self_iff

/-- A key with a space in it comes back, and one that holds a quote does not. -/
theorem key_readsAs_spaced : (isPlainKey "my key" = false ∧ isPlainKey "a\"b" = false) ∧
      ReadsAs (key "my key") "my key" ∧ ¬ ReadsAs (key "a\"b") "a\"b" := by
  have unsuited : isPlainKey "my key" = false ∧ isPlainKey "a\"b" = false := by decide
  refine ⟨unsuited, (key_readsAs_iff unsuited.1).2.2.mpr (by decide), fun read => ?_⟩
  exact absurd ((key_readsAs_iff unsuited.2).2.2.mp read) (by decide)

end Printer

end Stratus
