import Stratus.Proofs.Lexer.Scan

/-!
Tokens as a division of the text. The text is cut without loss into gaps and lexemes, and the line
and column of a token are counts over what stands before it.
-/
namespace Stratus.Lexer

open List

/-- White space and comments with their line breaks. -/
inductive Gap : List Char → Prop
  | nil : Gap []
  | blank {c gap} : Text.isBlank c = true → Gap gap → Gap (c :: gap)
  | comment {mark body gap} : IsMark mark → '\n' ∉ body → Gap gap →
      Gap (mark ++ body ++ '\n' :: gap)

theorem Gap.append {a b : List Char} (ha : Gap a) (hb : Gap b) : Gap (a ++ b) := by
  induction ha with
  | nil => exact hb
  | blank hc ha ih => exact .blank hc ih
  | comment hm hn ha ih =>
    simp only [append_assoc, cons_append] at ih ⊢
    simpa only [append_assoc] using Gap.comment hm hn ih

/-- The gap at the end of the text, where a comment may lack its line break. -/
inductive EndGap : List Char → Prop
  | closed {gap} : Gap gap → EndGap gap
  | opened {gap mark body} : Gap gap → IsMark mark → '\n' ∉ body → EndGap (gap ++ (mark ++ body))

/-- A character of the text, in a gap or in a lexeme. -/
structure Site where
  char : Char
  inGap : Bool

/-- Line breaks in gaps end a line. -/
def Site.isBreak (s : Site) : Bool := s.inGap && s.char == '\n'

def sites (inGap : Bool) (cs : List Char) : List Site := cs.map (⟨·, inGap⟩)

def lineAfter (before : List Site) : Nat := 1 + before.countP Site.isBreak

/-- One more than the characters behind the last break, or behind the start of the text. -/
def columnAfter (before : List Site) : Nat :=
  1 + (before.reverse.takeWhile fun s => !s.isBreak).length

def positionAfter (before : List Site) : Position := ⟨lineAfter before, columnAfter before⟩

@[simp] theorem sites_append (inGap : Bool) (a b : List Char) :
    sites inGap (a ++ b) = sites inGap a ++ sites inGap b := map_append

@[simp] theorem sites_nil (inGap : Bool) : sites inGap [] = [] := rfl

theorem positionAfter_blank (before : List Site) (c : Char) :
    positionAfter (before ++ sites true [c]) = (positionAfter before).past c := by
  by_cases hc : c = '\n' <;>
    simp [positionAfter, lineAfter, columnAfter, sites, Site.isBreak, Position.past, Position.right,
      Position.nextLine, hc] <;> omega

theorem positionAfter_comment (before : List Site) {body : List Char} (h : '\n' ∉ body) :
    positionAfter (before ++ sites true (body ++ ['\n'])) = (positionAfter before).nextLine := by
  have none : (sites true body).countP Site.isBreak = 0 := by
    apply countP_eq_zero.mpr
    intro s mem
    obtain ⟨c, hc, rfl⟩ := mem_map.mp mem
    have other : c ≠ '\n' := fun he => h (he ▸ hc)
    simp [Site.isBreak, other]
  have final : sites true ['\n'] = [⟨'\n', true⟩] := rfl
  have breaks : Site.isBreak ⟨'\n', true⟩ = true := rfl
  simp only [positionAfter, lineAfter, columnAfter, sites_append, final, countP_append, none,
    countP_singleton, reverse_append, reverse_cons, reverse_nil, nil_append,
    cons_append, takeWhile_cons, breaks, Position.nextLine, if_true, Bool.not_true,
    Bool.false_eq_true, if_false, length_nil, Nat.zero_add, Nat.add_zero, Nat.add_assoc]

theorem positionAfter_lexeme (before : List Site) (chars : List Char) :
    positionAfter (before ++ sites false chars) = (positionAfter before).right chars.length := by
  have none : (sites false chars).countP Site.isBreak = 0 := by
    apply countP_eq_zero.mpr
    intro s mem
    obtain ⟨c, _, rfl⟩ := mem_map.mp mem
    simp [Site.isBreak]
  have all : ∀ s ∈ (sites false chars).reverse, (!s.isBreak) = true := by
    intro s mem
    obtain ⟨c, _, rfl⟩ := mem_map.mp (mem_reverse.mp mem)
    rfl
  have size : (sites false chars).length = chars.length := length_map _
  simp only [positionAfter, lineAfter, columnAfter, countP_append, none, reverse_append,
    takeWhile_append_of_pos all, length_append, length_reverse, size, Position.right]
  congr 1
  omega

/-- A token with the gap before it and the characters that spell it. -/
structure Segment where
  gap : List Char
  lexeme : List Char
  token : Token
  between : Gap gap
  spelled : Lexeme token.kind token.text.toList lexeme

namespace Segment

def text (s : Segment) : List Char := s.gap ++ s.lexeme

def sites (s : Segment) : List Site := Lexer.sites true s.gap ++ Lexer.sites false s.lexeme

end Segment

/-- Each token stands where the characters before it put it. -/
def Placed : List Site → List Segment → Prop
  | _, [] => True
  | before, s :: later =>
    (s.token.line = lineAfter (before ++ sites true s.gap) ∧
      s.token.column = columnAfter (before ++ sites true s.gap) + inset s.token.kind) ∧
    Placed (before ++ s.sites) later

theorem Placed.at {before : List Site} {earlier later : List Segment} {s : Segment}
    (h : Placed before (earlier ++ s :: later)) :
    s.token.line = lineAfter (before ++ earlier.flatMap Segment.sites ++ sites true s.gap) ∧
      s.token.column =
        columnAfter (before ++ earlier.flatMap Segment.sites ++ sites true s.gap) +
          inset s.token.kind := by
  induction earlier generalizing before with
  | nil => simpa using h.1
  | cons e earlier ih => simpa using ih h.2

/-- A run from behind `before` and an unfinished gap divides that gap and the rest of the text. -/
theorem Scans.segments {p : Position} {cs : List Char} {tokens : List Token} (h : Scans p cs tokens)
    (before : List Site) {gap : List Char} (hg : Gap gap)
    (hp : p = positionAfter (before ++ sites true gap)) :
    ∃ (segments : List Segment) (last : List Char) (eof : Token),
      gap ++ cs = segments.flatMap Segment.text ++ last ∧ EndGap last ∧
      tokens = segments.map Segment.token ++ [eof] ∧ eof.kind = .endOfFile ∧
      Placed before segments := by
  -- the gap grows by blanks and comments until a lexeme closes it and a new one begins
  induction h generalizing before gap with
  | finish p =>
    exact ⟨[], gap, _, by simp, .closed hg, rfl, rfl, trivial⟩
  | @step p p' c cs token rest tokens hs scans ih =>
    have moves := step_moves hs
    generalize c :: cs = text at moves
    cases moves with
    | @blank c _ hc =>
      obtain ⟨segments, last, eof, cut, rest⟩ := ih before (hg.append (.blank hc .nil))
        (by rw [sites_append, ← append_assoc, positionAfter_blank, ← hp])
      exact ⟨segments, last, eof, by simpa using cut, rest⟩
    | @comment mark body _ hm hn =>
      have clean : '\n' ∉ mark ++ body := by
        rcases hm with rfl | rfl <;> simpa using hn
      obtain ⟨segments, last, eof, cut, rest⟩ := ih before (hg.append (.comment hm hn .nil))
        (by rw [sites_append, ← append_assoc, positionAfter_comment _ clean, ← hp])
      exact ⟨segments, last, eof, by simpa using cut, rest⟩
    | @lastComment mark body hm hn =>
      cases scans with
      | finish => exact ⟨[], gap ++ (mark ++ body), _, by simp, .opened hg hm hn, rfl, rfl, trivial⟩
    | @lexeme kind value chars spelled =>
      let s : Segment := ⟨gap, chars, ⟨kind, String.ofList value, p.line, p.column + inset kind⟩,
        hg, by simpa using spelled⟩
      have moved : p.right chars.length = positionAfter (before ++ s.sites ++ sites true []) := by
        rw [sites_nil, append_nil, Segment.sites, ← append_assoc, positionAfter_lexeme, hp]
      obtain ⟨segments, last, eof, cut, ending, all, isEof, placed⟩ :=
        ih (before ++ s.sites) .nil moved
      refine ⟨s :: segments, last, eof, ?_, ending, ?_, isEof, ⟨⟨?_, ?_⟩, placed⟩⟩
      · rw [nil_append] at cut
        rw [cut, flatMap_cons, Segment.text, append_assoc, append_assoc]
      · rw [all]
        rfl
      · exact congrArg Position.line hp
      · exact congrArg (fun q => q.column + inset kind) hp

/-- A text cut at its tokens. -/
structure Division (text : List Char) (tokens : List Token) where
  segments : List Segment
  last : List Char
  eof : Token
  lossless : text = segments.flatMap Segment.text ++ last
  ending : EndGap last
  complete : tokens = segments.map Segment.token ++ [eof]
  eof_kind : eof.kind = .endOfFile
  kind_ne : ∀ s ∈ segments, s.token.kind ≠ .endOfFile
  value : ∀ s ∈ segments, s.token.kind ≠ .string → s.token.text.toList = s.lexeme
  quotes : ∀ s ∈ segments, s.token.kind = .string → ∃ quote body, IsQuote quote ∧
    s.lexeme = quote :: (body ++ [quote]) ∧ Quoted quote body s.token.text.toList
  line : ∀ earlier s later, segments = earlier ++ s :: later →
    s.token.line = lineAfter (earlier.flatMap Segment.sites ++ sites true s.gap)
  column : ∀ earlier s later, segments = earlier ++ s :: later →
    s.token.column =
      columnAfter (earlier.flatMap Segment.sites ++ sites true s.gap) + inset s.token.kind

/-- Tokens divide the text into gaps and lexemes, and stand where these put them. -/
theorem tokenize_divides {source : String} {tokens : List Token}
    (h : tokenize source = .ok tokens) : Nonempty (Division source.toList tokens) := by
  have scans := tokenize_eq_ok_iff.mp h
  obtain ⟨segments, last, eof, cut, ending, all, isEof, placed⟩ := scans.segments [] .nil rfl
  refine ⟨⟨segments, last, eof, cut, ending, all, isEof, ?_, ?_, ?_, ?_, ?_⟩⟩
  · exact fun s _ => s.spelled.kind_ne_endOfFile
  · exact fun s _ => s.spelled.value_eq
  · exact fun s _ => s.spelled.quotes
  · intro earlier s later he
    subst he
    exact placed.at.1
  · intro earlier s later he
    subst he
    exact placed.at.2

/-- A comment ends the first line, and the break inside the string ends none. -/
theorem tokenize_divides_string_break :
    tokenize "x #c\n= 'p\nq' y" = .ok [⟨.identifier, "x", 1, 1⟩, ⟨.equals, "=", 2, 1⟩,
      ⟨.string, "p\nq", 2, 4⟩, ⟨.identifier, "y", 2, 9⟩, ⟨.endOfFile, "", 2, 10⟩] ∧
    Nonempty (Division "x #c\n= 'p\nq' y".toList [⟨.identifier, "x", 1, 1⟩, ⟨.equals, "=", 2, 1⟩,
      ⟨.string, "p\nq", 2, 4⟩, ⟨.identifier, "y", 2, 9⟩, ⟨.endOfFile, "", 2, 10⟩]) :=
  ⟨rfl, tokenize_divides rfl⟩

end Stratus.Lexer
