import Stratus.Proofs.Lexer.Scan
import Stratus.Proofs.Number.Decimal

/-!
Written tokens. A `Sign` is a token of the language without a place; signs written with single
spaces between them are read back as they are, whatever their neighbours.
-/
namespace Stratus

open List hiding isEmpty_iff
open Text TokenKind

def Token.mark (t : Token) : TokenKind × String := (t.kind, t.text)

namespace Lexer

/-- A letter or an underscore, then letters, digits and other numerals, underscores and dollar
signs; no keyword. -/
def isIdentifier (name : String) : Bool :=
  match name.toList with
  | [] => false
  | c :: cs =>
    (isLetter c || c == '_') &&
      cs.all (fun d => isLetter d || isDigit d || isNumeric d || d == '_' || d == '$') &&
      (keywords.lookup name).isNone

/-- Decimal digits with at most one point behind the first. -/
def isNumeral (numeral : String) : Bool :=
  match numeral.toList with
  | [] => false
  | c :: cs => c.isDigit && cs.all (fun d => d.isDigit || d == '.') && cs.count '.' ≤ 1

/-- Backslashes and double quotes are written behind a backslash. -/
def escaped (value : List Char) : List Char :=
  value.flatMap fun c => if c == '\\' || c == '"' then ['\\', c] else [c]

inductive Sign where
  | identifier (name : String) (h : isIdentifier name = true)
  | keyword (word : String) (kind : TokenKind) (h : (word, kind) ∈ keywords)
  | number (numeral : String) (h : isNumeral numeral = true)
  | string (value : String)
  | operator (text : String) (kind : TokenKind) (h : (text, kind) ∈ operators)

namespace Sign

def mark : Sign → TokenKind × String
  | identifier name _ => (.identifier, name)
  | keyword word kind _ => (kind, word)
  | number numeral _ => (.number, numeral)
  | string value => (.string, value)
  | operator text kind _ => (kind, text)

def written : Sign → String
  | identifier name _ => name
  | keyword word _ _ => word
  | number numeral _ => numeral
  | string value => String.ofList ('"' :: (escaped value.toList ++ ['"']))
  | operator text _ _ => text

end Sign

theorem isNumeral_repr (n : Nat) : isNumeral n.repr = true := by
  obtain ⟨c, cs, hcs⟩ := exists_cons_of_ne_nil (Numeral.repr_ne_nil n)
  have digits : ∀ d ∈ c :: cs, d.isDigit = true := by
    rw [← hcs]
    exact fun _ => Numeral.isDigit_of_mem_repr
  have unpointed : '.' ∉ cs := fun mem =>
    absurd (digits _ (mem_cons_of_mem _ mem)) (by decide)
  have later : ∀ d ∈ cs, d.isDigit = true ∨ d = '.' := fun d mem =>
    Or.inl (digits d (mem_cons_of_mem _ mem))
  simp only [isNumeral, hcs, digits c mem_cons_self, count_eq_zero.mpr unpointed]
  simpa using later

/-- The text behind a sign: its end, or a space. -/
def Boundary (rest : List Char) : Prop := ∀ c, rest.head? = some c → c = ' '

variable {rest cs : List Char} {kind : TokenKind} {c : Char} {text : String}

theorem Boundary.fails (h : Boundary rest) {p : Char → Bool} (hp : p ' ' = false) :
    rest.takeWhile p = [] ∧ rest.dropWhile p = rest := by
  cases rest with
  | nil => exact ⟨rfl, rfl⟩
  | cons c rest =>
    have hc : c = ' ' := h c rfl
    subst hc
    simp [hp]

def isWord : List Char → Bool
  | [] => false
  | c :: cs => startsWord c && cs.all continuesWord

theorem continuesWord_eq (c : Char) : continuesWord c =
      (isLetter c || isDigit c || isNumeric c || c == '_' || c == '$') := by
  cases digit : isDigit c with
  | false => simp [continuesWord, isAlphanumeric]
  | true => simp [continuesWord, isAlphanumeric, isNumeric_of_isDigit digit]

theorem isIdentifier_iff {name : String} :
    isIdentifier name = true ↔ isWord name.toList = true ∧ ofWord name = .identifier := by
  rw [ofWord_eq_identifier_iff]
  cases hcs : name.toList with
  | nil => simp [isIdentifier, isWord, hcs]
  | cons c cs => simp only [isIdentifier, isWord, hcs, startsWord, Bool.and_eq_true,
      Option.isNone_iff_eq_none, funext continuesWord_eq]

theorem isWord_of_keyword {word : String} (h : (word, kind) ∈ keywords) :
    isWord word.toList = true ∧ ofWord word = kind := by
  have all : ∀ entry ∈ keywords,
      isWord entry.1.toList = true ∧ ofWord entry.1 = entry.2 := by decide
  exact all _ h

theorem step_word (hw : isWord (c :: cs) = true) (boundary : Boundary rest) (p : Position) :
    ∃ p', step p c (cs ++ rest) =
      .ok (some ⟨.ofWord (String.ofList (c :: cs)), String.ofList (c :: cs), p.line, p.column⟩, p',
        rest) := by
  simp only [isWord, Bool.and_eq_true, all_eq_true] at hw
  obtain ⟨first, later⟩ := hw
  obtain ⟨taken, dropped⟩ := boundary.fails (p := continuesWord) (by decide)
  have blank : isBlank c = false := by
    simp only [startsWord, Bool.or_eq_true, beq_iff_eq] at first
    rcases first with letter | rfl
    · exact isBlank_of_isLetter letter
    · decide
  have hash : c ≠ '#' := by
    rintro rfl
    exact absurd first (by decide)
  have slash : c ≠ '/' := by
    rintro rfl
    exact absurd first (by decide)
  refine ⟨p.right (c :: cs).length, ?_⟩
  simp [step, blank, hash, slash, first, takeWhile_append_of_pos later,
    dropWhile_append_of_pos later, taken, dropped]

theorem numeral_complete (pointed : Bool)
    (all : ∀ d ∈ cs, d.isDigit = true ∨ d = '.') (points : cs.count '.' + pointed.toNat ≤ 1)
    (boundary : Boundary rest) : numeral pointed (cs ++ rest) = (cs, rest) := by
  induction cs generalizing pointed with
  | nil =>
    cases rest with
    | nil => rfl
    | cons c rest =>
      have hc : c = ' ' := boundary c rfl
      subst hc
      rfl
  | cons c cs ih =>
    have later : ∀ d ∈ cs, d.isDigit = true ∨ d = '.' := fun d mem =>
      all d (mem_cons_of_mem _ mem)
    rcases all c mem_cons_self with digit | rfl
    · have hc : c ≠ '.' := by
        rintro rfl
        cases digit
      rw [count_cons_of_ne hc] at points
      rw [cons_append, numeral_digit (isDigit_of_ascii digit), ih pointed later points]
    · rw [count_cons_self] at points
      have unpointed : pointed = false := by
        cases pointed
        · rfl
        · simp at points
      have hd : isDigit '.' = false := by decide
      have hrun := ih true later (by simp at points ⊢; omega)
      simp [numeral, hd, unpointed, hrun]

theorem step_number (digit : c.isDigit = true) (all : ∀ d ∈ cs, d.isDigit = true ∨ d = '.')
    (points : cs.count '.' ≤ 1)
    (boundary : Boundary rest) (p : Position) : ∃ p', step p c (cs ++ rest) =
      .ok (some ⟨.number, String.ofList (c :: cs), p.line, p.column⟩, p', rest) := by
  have hash : c ≠ '#' := by
    rintro rfl
    cases digit
  have slash : c ≠ '/' := by
    rintro rfl
    cases digit
  have word : startsWord c = false := by
    simp only [startsWord, isLetter_of_ascii_digit digit, Bool.false_or, beq_eq_false_iff_ne]
    rintro rfl
    cases digit
  have run := numeral_complete false all points boundary
  refine ⟨p.right (c :: cs).length, ?_⟩
  simp [step, isBlank_of_ascii_digit digit, hash, slash, word, isDigit_of_ascii digit,
    numeral_digit, run]

theorem Quoted.append {quote : Char} {body value body' value' : List Char}
    (h : Quoted quote body value)
    (h' : Quoted quote body' value') : Quoted quote (body ++ body') (value ++ value') := by
  induction h with
  | nil => exact h'
  | escaped _ ih => exact .escaped ih
  | plain unescaped unquoted _ ih => exact .plain unescaped unquoted ih

/-- Characters that are spelled one by one. -/
theorem Quoted.flatMap {quote : Char} {spell read : Char → List Char}
    (each : ∀ c, Quoted quote (spell c) (read c))
    (cs : List Char) : Quoted quote (cs.flatMap spell) (cs.flatMap read) := by
  induction cs with
  | nil => exact .nil
  | cons c cs ih =>
    rw [flatMap_cons, flatMap_cons]
    exact (each c).append ih

theorem quoted_escaped (value : List Char) : Quoted '"' (escaped value) value := by
  have each (c : Char) : Quoted '"' (if c == '\\' || c == '"' then ['\\', c] else [c]) [c] := by
    by_cases special : c = '\\' ∨ c = '"'
    · have hc : unescape c = c := by
        rcases special with rfl | rfl <;> rfl
      have spelled : Quoted '"' ['\\', c] [unescape c] := .escaped .nil
      simpa [special, hc] using spelled
    · have spelled : Quoted '"' [c] [c] :=
        .plain (fun h => special (.inl h)) (fun h => special (.inr h)) .nil
      simpa [special] using spelled
  simpa [escaped] using Quoted.flatMap each value

theorem step_quoted {body value : List Char} (spelled : Quoted '"' body value) (rest : List Char)
    (p : Position) :
    step p '"' (body ++ '"' :: rest) =
      .ok (some ⟨.string, String.ofList value, p.line, p.column + 1⟩,
        p.right (body.length + 1 + 1), rest) := by
  have run := quotedRun_complete (by decide) spelled rest
  have blank : isBlank '"' = false := by decide
  have word : startsWord '"' = false := by decide
  have digit : isDigit '"' = false := by decide
  simp [step, blank, word, digit, run]

theorem after?_isSome_append {start : List Char} (clean : ' ' ∉ start) (boundary : Boundary rest) :
    (after? start (cs ++ rest)).isSome = (after? start cs).isSome := by
  induction start generalizing cs with
  | nil => simp [after?]
  | cons c start ih =>
    have hc : c ≠ ' ' := by
      rintro rfl
      exact clean mem_cons_self
    have later : ' ' ∉ start := fun mem => clean (mem_cons_of_mem _ mem)
    cases cs with
    | cons d cs =>
      by_cases same : c = d
      · subst same
        simpa [after?] using ih later
      · simp [after?, same]
    | nil =>
      cases rest with
      | nil => rfl
      | cons d rest =>
        have hd : d = ' ' := boundary d rfl
        simp [after?, hd, hc]

theorem operator?_complete (h : (text, kind) ∈ operators) (boundary : Boundary rest) :
    operator? (text.toList ++ rest) = some (text, kind) := by
  have alone : ∀ entry ∈ operators, operator? entry.1.toList = some entry := by decide
  have clean : ∀ entry ∈ operators, ' ' ∉ entry.1.toList := by decide
  calc operator? (text.toList ++ rest)
      = operator? text.toList :=
        find?_congr fun entry mem => after?_isSome_append (clean entry mem) boundary
    _ = some (text, kind) := alone _ h

/-- What begins with this character is an operator, and with a slash only if it stands alone. -/
def startsOperator (c : Char) (cs : List Char) : Bool :=
  !isBlank c && c != '#' && (c != '/' || cs.isEmpty) && !startsWord c && !isDigit c &&
    c != '"' && c != '\''

theorem startsOperator_of_mem (h : (text, kind) ∈ operators) :
    ∃ c cs, text.toList = c :: cs ∧ startsOperator c cs = true := by
  have all : ∀ entry ∈ operators,
      entry.1.toList ≠ [] ∧ startsOperator (entry.1.toList.headD ' ') entry.1.toList.tail = true := by
    decide
  obtain ⟨nonempty, starts⟩ := all _ h
  obtain ⟨c, cs, hcs⟩ := exists_cons_of_ne_nil nonempty
  simp only [hcs] at starts
  exact ⟨c, cs, hcs, starts⟩

theorem step_operator (h : (text, kind) ∈ operators) (hcs : text.toList = c :: cs)
    (starts : startsOperator c cs = true) (boundary : Boundary rest) (p : Position) :
    ∃ p', step p c (cs ++ rest) = .ok (some ⟨kind, text, p.line, p.column⟩, p', rest) := by
  have found := operator?_complete h boundary
  rw [hcs, cons_append] at found
  have behind : (c :: (cs ++ rest)).drop text.length = rest := by
    rw [← cons_append, ← hcs, ← String.length_toList, drop_left]
  simp only [startsOperator, Bool.and_eq_true, Bool.not_eq_true', bne_iff_ne, ne_eq, Bool.or_eq_true,
    List.isEmpty_iff] at starts
  obtain ⟨⟨⟨⟨⟨⟨blank, hash⟩, slash⟩, word⟩, digit⟩, double⟩, single⟩ := starts
  have comment : (c == '/' && (cs ++ rest).head? == some '/') = false := by
    rw [Bool.and_eq_false_iff]
    rcases slash with other | rfl
    · exact .inl (by simpa using other)
    · refine .inr (beq_eq_false_iff_ne.mpr fun hhead => ?_)
      exact absurd (boundary _ hhead) (by decide)
  refine ⟨p.right text.length, ?_⟩
  unfold step
  rw [comment]
  simp [blank, hash, word, digit, double, single, found, behind]

/-- One step reads a sign in front of a boundary, and nothing else. -/
theorem Sign.step_written (sign : Sign) (rest : List Char) (boundary : Boundary rest) (p : Position) :
    ∃ c cs token p', sign.written.toList ++ rest = c :: cs ∧
      step p c cs = .ok (some token, p', rest) ∧ token.mark = sign.mark := by
  have named {word : String} (hw : isWord word.toList = true) :
      ∃ c cs token p', word.toList ++ rest = c :: cs ∧
        step p c cs = .ok (some token, p', rest) ∧ token.mark = (.ofWord word, word) := by
    cases hcs : word.toList with
    | nil => simp [hcs, isWord] at hw
    | cons c cs =>
      rw [hcs] at hw
      obtain ⟨p', hstep⟩ := step_word hw boundary p
      rw [← hcs, String.ofList_toList] at hstep
      exact ⟨c, cs ++ rest, _, p', rfl, hstep, rfl⟩
  cases sign with
  | identifier name h =>
    obtain ⟨hw, hkind⟩ := isIdentifier_iff.mp h
    simpa [Sign.written, Sign.mark, hkind] using named hw
  | keyword word kind h =>
    obtain ⟨hw, hkind⟩ := isWord_of_keyword h
    simpa [Sign.written, Sign.mark, hkind] using named hw
  | number numeral h =>
    unfold isNumeral at h
    split at h
    · cases h
    · next c cs hcs =>
        simp only [Bool.and_eq_true, all_eq_true, Bool.or_eq_true, beq_iff_eq,
          decide_eq_true_eq] at h
        obtain ⟨⟨digit, all⟩, points⟩ := h
        obtain ⟨p', hstep⟩ := step_number digit all points boundary p
        rw [← hcs, String.ofList_toList] at hstep
        exact ⟨c, cs ++ rest, _, p', by simp [Sign.written, hcs], hstep, rfl⟩
  | string value =>
    have hstep := step_quoted (quoted_escaped value.toList) rest p
    rw [String.ofList_toList] at hstep
    exact ⟨_, _, _, _, by simp [Sign.written], hstep, rfl⟩
  | operator text kind h =>
    obtain ⟨c, cs, hcs, starts⟩ := startsOperator_of_mem h
    obtain ⟨p', hstep⟩ := step_operator h hcs starts boundary p
    exact ⟨c, cs ++ rest, _, p', by simp [Sign.written, hcs], hstep, rfl⟩

def written (signs : List Sign) : String := " ".intercalate (signs.map Sign.written)

theorem written_singleton (sign : Sign) : written [sign] = sign.written := by
  simp [written]

theorem written_append {a b : List Sign} (ha : a ≠ []) (hb : b ≠ []) :
    written (a ++ b) = written a ++ " " ++ written b := by
  rw [written, map_append, String.intercalate_append_of_ne_nil]
  · rfl
  · simpa using ha
  · simpa using hb

theorem scans_written (signs : List Sign) (p : Position) :
    ∃ tokens, Scans p (written signs).toList tokens ∧
      tokens.map Token.mark = signs.map Sign.mark ++ [(.endOfFile, "")] := by
  induction signs generalizing p with
  | nil => exact ⟨_, .finish p, rfl⟩
  | cons sign signs ih =>
    cases signs with
    | nil =>
      obtain ⟨c, cs, token, p', hcs, hstep, hmark⟩ :=
        sign.step_written [] (by simp [Boundary]) p
      have spelled : (written [sign]).toList = c :: cs := by
        rw [written_singleton, ← hcs, append_nil]
      rw [spelled]
      refine ⟨_, .step hstep (.finish p'), ?_⟩
      show [token.mark, _] = [sign.mark, _]
      rw [hmark]
      rfl
    | cons next signs =>
      obtain ⟨c, cs, token, p', hcs, hstep, hmark⟩ :=
        sign.step_written (' ' :: (written (next :: signs)).toList) (by simp [Boundary]) p
      obtain ⟨tokens, scans, hmarks⟩ := ih (p'.past ' ')
      have spelled : (written (sign :: next :: signs)).toList = c :: cs := by
        rw [← hcs]
        simp [written]
      have blank : step p' ' ' (written (next :: signs)).toList =
          .ok (none, p'.past ' ', (written (next :: signs)).toList) := rfl
      rw [spelled]
      refine ⟨_, .step hstep (.step blank scans), ?_⟩
      simp [hmark, hmarks]

/-- Scanning inverts writing: any signs are read back in their order, and then the end. -/
theorem tokenize_written (signs : List Sign) :
    ∃ tokens, tokenize (written signs) = .ok tokens ∧
      tokens.map Token.mark = signs.map Sign.mark ++ [(.endOfFile, "")] := by
  obtain ⟨tokens, scans, hmarks⟩ := scans_written signs .start
  exact ⟨tokens, tokenize_eq_ok_iff.mpr scans, hmarks⟩

end Lexer

end Stratus
