import Stratus.Proofs.Text.Split
import Stratus.Source.Lexer

/-!
Scanning as a relation. `Moves` lists what one step does and `Scans` is a whole run without a bound
on its steps: every step reads a character or more, so the bound is never met.
-/
namespace Stratus

open List TokenKind

theorem TokenKind.ofWord_mem (word : String) :
    ofWord word = .identifier ∨ (word, ofWord word) ∈ keywords := by
  cases found : keywords.lookup word with
  | none => exact Or.inl (by simp [ofWord, found])
  | some kind =>
    have hkind : ofWord word = kind := by simp [ofWord, found]
    obtain ⟨before, behind, hsplit, _⟩ := lookup_eq_some_iff.mp found
    rw [hkind, hsplit]
    exact Or.inr (by simp)

theorem TokenKind.ofWord_eq_identifier_iff {word : String} :
    ofWord word = .identifier ↔ keywords.lookup word = none := by
  have none : ∀ entry ∈ keywords, entry.2 ≠ .identifier := by decide
  constructor
  · intro plain
    cases found : keywords.lookup word with
    | none => rfl
    | some kind =>
      rw [ofWord, found, Option.getD_some] at plain
      obtain ⟨before, behind, hsplit, _⟩ := lookup_eq_some_iff.mp found
      have mem : (word, kind) ∈ keywords := by simp [hsplit]
      exact absurd plain (none _ mem)
  · intro unlisted
    simp [ofWord, unlisted]

theorem TokenKind.ofWord_ne {kind : TokenKind} (plain : kind ≠ .identifier)
    (apart : ∀ entry ∈ keywords, entry.2 ≠ kind) (word : String) : ofWord word ≠ kind := by
  intro h
  rcases ofWord_mem word with identifier | keyword
  · exact plain (h.symm.trans identifier)
  · exact apart _ keyword h

namespace Lexer

/-- The characters between two quotes and the value that they spell. -/
inductive Quoted (quote : Char) : List Char → List Char → Prop
  | nil : Quoted quote [] []
  | escaped {c body value} : Quoted quote body value →
      Quoted quote ('\\' :: c :: body) (unescape c :: value)
  | plain {c body value} : c ≠ '\\' → c ≠ quote → Quoted quote body value →
      Quoted quote (c :: body) (c :: value)

def IsQuote (c : Char) : Prop := c = '"' ∨ c = '\''

/-- The kind and the value that the characters of a token spell. -/
inductive Lexeme : TokenKind → List Char → List Char → Prop
  | word {c cs} : startsWord c = true → (∀ d ∈ cs, continuesWord d = true) →
      Lexeme (.ofWord (String.ofList (c :: cs))) (c :: cs) (c :: cs)
  | number {c cs} : Text.isDigit c = true → (∀ d ∈ cs, Text.isDigit d = true ∨ d = '.') →
      cs.count '.' ≤ 1 → Lexeme .number (c :: cs) (c :: cs)
  | string {quote body value} : IsQuote quote → Quoted quote body value →
      Lexeme .string value (quote :: (body ++ [quote]))
  | operator {text kind} : (text, kind) ∈ operators →
      Lexeme kind text.toList text.toList

theorem quotedRun_complete {quote : Char} {body value : List Char} (hq : quote ≠ '\\')
    (h : Quoted quote body value) (rest : List Char) :
    quotedRun quote (body ++ quote :: rest) = some (value, body.length + 1, rest) := by
  induction h with
  | nil =>
    rw [nil_append, quotedRun]
    · simp
    · simp_all
    · simp_all
  | escaped h ih => simp [quotedRun, ih]
  | @plain c body value hc hcq h ih =>
    rw [cons_append, quotedRun]
    · simp [hcq, ih]
    · simp_all
    · simp_all

theorem quotedRun_sound {quote : Char} {cs value rest : List Char} {n : Nat}
    (h : quotedRun quote cs = some (value, n, rest)) :
    ∃ body, cs = body ++ quote :: rest ∧ n = body.length + 1 ∧ Quoted quote body value := by
  fun_induction quotedRun quote cs generalizing value n with
  | case1 => cases h
  | case2 => cases h
  | case3 c cs ih =>
    obtain ⟨⟨value', n', rest'⟩, hrun, he⟩ := Option.map_eq_some_iff.mp h
    simp only [Prod.mk.injEq] at he
    obtain ⟨rfl, rfl, rfl⟩ := he
    obtain ⟨body, rfl, rfl, hb⟩ := ih hrun
    exact ⟨'\\' :: c :: body, rfl, rfl, .escaped hb⟩
  | case4 c cs _ _ hc =>
    simp only [Option.some.injEq, Prod.mk.injEq] at h
    obtain ⟨rfl, rfl, rfl⟩ := h
    exact ⟨[], by simpa using hc, rfl, .nil⟩
  | case5 c cs single double hc ih =>
    obtain ⟨⟨value', n', rest'⟩, hrun, he⟩ := Option.map_eq_some_iff.mp h
    simp only [Prod.mk.injEq] at he
    obtain ⟨rfl, rfl, rfl⟩ := he
    obtain ⟨body, rfl, rfl, hb⟩ := ih hrun
    have plain : c ≠ '\\' := by
      intro hc
      subst hc
      cases body with
      | nil => exact double _ _ rfl rfl
      | cons d body => exact double _ _ rfl rfl
    exact ⟨c :: body, rfl, rfl, .plain plain (by simpa using hc) hb⟩

theorem numeral_append (pointed : Bool) (cs : List Char) :
    (numeral pointed cs).1 ++ (numeral pointed cs).2 = cs := by
  fun_induction numeral pointed cs with
  | case1 => rfl
  | case2 pointed c cs hc run rest he ih => simpa [he] using ih
  | case3 pointed c cs hc hp run rest he ih => simpa [he] using ih
  | case4 => rfl

theorem numeral_digit {c : Char} (hc : Text.isDigit c = true) (pointed : Bool) (cs : List Char) :
    numeral pointed (c :: cs) = (c :: (numeral pointed cs).1, (numeral pointed cs).2) := by
  simp [numeral, hc]

theorem numeral_run (pointed : Bool) (cs : List Char) :
    (∀ d ∈ (numeral pointed cs).1, Text.isDigit d = true ∨ d = '.') ∧
      (numeral pointed cs).1.count '.' + pointed.toNat ≤ 1 := by
  fun_induction numeral pointed cs with
  | case1 pointed => exact ⟨nofun, by simpa using pointed.toNat_le⟩
  | case2 pointed c cs digit run rest he ih =>
    rw [he] at ih
    obtain ⟨all, points⟩ := ih
    have other : c ≠ '.' := by
      rintro rfl
      exact absurd digit (by decide)
    refine ⟨forall_mem_cons.mpr ⟨.inl digit, all⟩, ?_⟩
    rwa [count_cons_of_ne other]
  | case3 pointed c cs _ hp run rest he ih =>
    rw [he] at ih
    obtain ⟨all, points⟩ := ih
    simp only [Bool.and_eq_true, beq_iff_eq, Bool.not_eq_true'] at hp
    obtain ⟨rfl, rfl⟩ := hp
    refine ⟨forall_mem_cons.mpr ⟨.inr rfl, all⟩, ?_⟩
    rwa [count_cons_self]
  | case4 pointed => exact ⟨nofun, by simpa using pointed.toNat_le⟩

theorem operator?_sound {cs : List Char} {text : String} {kind : TokenKind}
    (h : operator? cs = some (text, kind)) :
    (text, kind) ∈ operators ∧ cs = text.toList ++ cs.drop text.length := by
  have found := find?_some h
  obtain ⟨rest, hrest⟩ := Option.isSome_iff_exists.mp found
  have start := Text.after?_eq_some_iff.mp hrest
  refine ⟨mem_of_find?_eq_some h, ?_⟩
  rw [start, ← String.length_toList, drop_left]

/-- The marks that begin a comment. -/
def IsMark (mark : List Char) : Prop := mark = ['#'] ∨ mark = ['/', '/']

/-- The column of a string is that of its first character behind the quote. -/
def inset (kind : TokenKind) : Nat := if kind = .string then 1 else 0

@[simp] theorem inset_string : inset .string = 1 := rfl

@[simp] theorem inset_number : inset .number = 0 := rfl

theorem inset_operator {text : String} {kind : TokenKind} (h : (text, kind) ∈ operators) :
    inset kind = 0 := by
  have all : ∀ entry ∈ operators, inset entry.2 = 0 := by decide
  exact all _ h

theorem inset_ofWord (word : String) : inset (.ofWord word) = 0 :=
  if_neg (ofWord_ne (by decide) (by decide) word)

/-- What a step at a position reads from the text: a blank, a comment or a lexeme. -/
inductive Moves (p : Position) : List Char → Option Token → Position → List Char → Prop
  | blank {c rest} : Text.isBlank c = true → Moves p (c :: rest) none (p.past c) rest
  | comment {mark body rest} : IsMark mark → '\n' ∉ body →
      Moves p (mark ++ body ++ '\n' :: rest) none p.nextLine rest
  | lastComment {mark body} : IsMark mark → '\n' ∉ body →
      Moves p (mark ++ body) none (p.right mark.length) []
  | lexeme {kind value chars} : Lexeme kind value chars → ∀ rest,
      Moves p (chars ++ rest) (some ⟨kind, String.ofList value, p.line, p.column + inset kind⟩)
        (p.right chars.length) rest

theorem skipComment_moves {mark : List Char} (hm : IsMark mark) (p : Position) (cs : List Char) :
    Moves p (mark ++ cs) none (skipComment (p.right mark.length) cs).1
      (skipComment (p.right mark.length) cs).2 := by
  have split := takeWhile_append_dropWhile (p := (· != '\n')) (l := cs)
  have clean : '\n' ∉ cs.takeWhile (· != '\n') := by
    intro mem
    simpa using mem_takeWhile_imp mem
  cases hd : cs.dropWhile (· != '\n') with
  | nil =>
    simp only [hd, append_nil] at split
    have he : skipComment (p.right mark.length) cs = (p.right mark.length, []) := by
      simp [skipComment, hd]
    rw [he]
    exact .lastComment hm (split ▸ clean)
  | cons c rest =>
    have hc : c = '\n' := by
      have := head?_dropWhile_not (· != '\n') cs
      simpa [hd] using this
    subst hc
    have he : skipComment (p.right mark.length) cs = (p.nextLine, rest) := by
      simp [skipComment, hd, Position.nextLine, Position.right]
    rw [he, ← split, hd, ← append_assoc]
    exact .comment hm clean

theorem step_moves {p p' : Position} {c : Char} {cs rest : List Char} {token : Option Token}
    (h : step p c cs = .ok (token, p', rest)) : Moves p (c :: cs) token p' rest := by
  -- one case for each branch of the step, in its order
  unfold step at h
  split at h
  · next blank =>
      cases h
      exact .blank blank
  split at h
  · next hash =>
      cases h
      rw [beq_iff_eq.mp hash]
      exact skipComment_moves (.inl rfl) p cs
  split at h
  · next slash =>
      cases h
      simp only [Bool.and_eq_true, beq_iff_eq] at slash
      obtain ⟨rfl, hhead⟩ := slash
      obtain ⟨cs, rfl⟩ := head?_eq_some_iff.mp hhead
      exact skipComment_moves (.inr rfl) p cs
  split at h
  · next word =>
      cases h
      have all : ∀ d ∈ cs.takeWhile continuesWord, continuesWord d = true := fun _ mem =>
        mem_takeWhile_imp mem
      have moves := Moves.lexeme (p := p) (.word word all) (cs.dropWhile continuesWord)
      rw [cons_append, takeWhile_append_dropWhile, inset_ofWord] at moves
      exact moves
  split at h
  · next digit =>
      rw [numeral_digit digit] at h
      cases h
      obtain ⟨all, points⟩ := numeral_run false cs
      have moves := Moves.lexeme (p := p) (.number digit all points) (numeral false cs).2
      rw [cons_append, numeral_append] at moves
      exact moves
  split at h
  · next quote =>
      simp only [Bool.or_eq_true, beq_iff_eq] at quote
      cases hrun : quotedRun c cs with
      | none => simp [hrun] at h
      | some run =>
        obtain ⟨value, n, later⟩ := run
        simp only [hrun] at h
        cases h
        obtain ⟨body, rfl, rfl, spelled⟩ := quotedRun_sound hrun
        have moves := Moves.lexeme (p := p) (.string quote spelled) rest
        simpa using moves
  · cases hop : operator? (c :: cs) with
    | none => simp [hop] at h
    | some op =>
      obtain ⟨text, kind⟩ := op
      simp only [hop] at h
      cases h
      obtain ⟨mem, start⟩ := operator?_sound hop
      have moves := Moves.lexeme (p := p) (.operator mem) ((c :: cs).drop text.length)
      rw [← start, inset_operator mem, String.ofList_toList, String.length_toList] at moves
      exact moves

theorem Lexeme.kind_ne_endOfFile {kind : TokenKind} {value chars : List Char}
    (h : Lexeme kind value chars) : kind ≠ .endOfFile := by
  have operators : ∀ entry ∈ operators, entry.2 ≠ .endOfFile := by decide
  cases h with
  | word => exact ofWord_ne (by decide) (by decide) _
  | number => simp
  | string => simp
  | operator mem => exact operators _ mem

/-- Only strings have a value that is not their spelling. -/
theorem Lexeme.value_eq {kind : TokenKind} {value chars : List Char}
    (h : Lexeme kind value chars) (hk : kind ≠ .string) : value = chars := by
  cases h with
  | word => rfl
  | number => rfl
  | string => exact absurd rfl hk
  | operator => rfl

theorem Lexeme.quotes {kind : TokenKind} {value chars : List Char} (h : Lexeme kind value chars)
    (hk : kind = .string) :
    ∃ quote body, IsQuote quote ∧ chars = quote :: (body ++ [quote]) ∧ Quoted quote body value := by
  have operators : ∀ entry ∈ operators, entry.2 ≠ .string := by decide
  cases h with
  | word => exact absurd hk (ofWord_ne (by decide) (by decide) _)
  | number => cases hk
  | string hq spelled => exact ⟨_, _, hq, rfl, spelled⟩
  | operator mem => exact absurd hk (operators _ mem)

theorem Lexeme.ne_nil {kind : TokenKind} {value chars : List Char} (h : Lexeme kind value chars) :
    chars ≠ [] := by
  have all : ∀ entry ∈ operators, entry.1.toList ≠ [] := by decide
  cases h with
  | word => exact cons_ne_nil _ _
  | number => exact cons_ne_nil _ _
  | string => exact cons_ne_nil _ _
  | operator mem => exact all _ mem

theorem Moves.shorter {p p' : Position} {cs rest : List Char} {token : Option Token}
    (h : Moves p cs token p' rest) : rest.length < cs.length := by
  cases h with
  | blank => simp
  | comment mark =>
    simp only [length_append, length_cons]
    omega
  | lastComment mark =>
    rcases mark with rfl | rfl <;> simp
  | lexeme spelled =>
    have := length_pos_iff.mpr spelled.ne_nil
    simp only [length_append]
    omega

/-- A run of the scanner to the end of the text. -/
inductive Scans : Position → List Char → List Token → Prop
  | finish (p : Position) : Scans p [] [⟨.endOfFile, "", p.line, p.column⟩]
  | step {p p' c cs token rest tokens} : step p c cs = .ok (token, p', rest) →
      Scans p' rest tokens → Scans p (c :: cs) (token.toList ++ tokens)

theorem scans_of_scan {fuel : Nat} {p : Position} {read tokens : List Token} {cs : List Char}
    (h : scan fuel p read cs = .ok tokens) :
    ∃ later, Scans p cs later ∧ tokens = read.reverse ++ later := by
  induction fuel generalizing p read cs with
  | zero =>
    cases cs with
    | nil =>
      cases h
      exact ⟨_, .finish p, by simp⟩
    | cons c cs => cases h
  | succ fuel ih =>
    cases cs with
    | nil =>
      cases h
      exact ⟨_, .finish p, by simp⟩
    | cons c cs =>
      rw [scan] at h
      cases hs : Lexer.step p c cs with
      | error fault => simp [hs, bind, Except.bind] at h
      | ok result =>
        obtain ⟨token, p', rest⟩ := result
        simp only [hs, bind, Except.bind] at h
        obtain ⟨later, scans, rfl⟩ := ih h
        refine ⟨token.toList ++ later, .step hs scans, ?_⟩
        cases token <;> simp

theorem scan_of_scans {p : Position} {tokens : List Token} {cs : List Char}
    (h : Scans p cs tokens) (fuel : Nat) (hf : cs.length ≤ fuel) (read : List Token) :
    scan fuel p read cs = .ok (read.reverse ++ tokens) := by
  induction h generalizing fuel read with
  | finish p => cases fuel <;> simp [scan]
  | @step p p' c cs token rest tokens hs scans ih =>
    cases fuel with
    | zero => simp at hf
    | succ fuel =>
      have shorter := (step_moves hs).shorter
      simp only [length_cons] at hf shorter
      rw [scan, hs]
      simp only [bind, Except.bind]
      rw [ih fuel (by omega)]
      cases token <;> simp

theorem tokenize_eq_ok_iff {source : String} {tokens : List Token} :
    tokenize source = .ok tokens ↔ Scans .start source.toList tokens := by
  constructor
  · intro h
    obtain ⟨later, scans, rfl⟩ := scans_of_scan h
    simpa using scans
  · intro scans
    rw [tokenize]
    simpa using scan_of_scans scans source.length (Nat.le_of_eq String.length_toList) []

end Lexer

end Stratus
