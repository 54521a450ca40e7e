import Stratus.Proofs.Parser.Account
import Stratus.Proofs.Parser.Taking

/-!
The tokens behind the trees of the parser: each nonterminal returns a tree that stands for what it
passes. Main statement: the identifiers and texts inside of a block occur in its tree, unless
objects, switches or labels lose them.
-/
namespace Stratus.Parser

variable {n : Node} {ts us : List Token} {K : State → Prop}

theorem Reads.ne_nil {lost : List Token} (h : Reads ts n lost) : ts ≠ [] := by
  cases h with
  | form _ _ _ _ filled => exact filled
  | _ => exact List.cons_ne_nil _ _

def Whole (n : Node) (ts : List Token) : Prop := ∃ lost, Reads ts n lost

def Operand (n : Node) (ts : List Token) : Prop := n.isOperand = true ∧ Whole n ts

/-- A named block starts at its name. -/
def Standing (n : Node) (ts : List Token) : Prop :=
  (n.isNamed = true → ∃ t us, ts = t :: us ∧ t.kind = .identifier) ∧ Whole n ts

def Listed (n : Node) (ts : List Token) : Prop :=
  ∃ us slip lost, Slipped n ts us slip ∧ Reads us n lost

/-- What the nonterminals take for the trees that they return. -/
structure Grammar.Sourced (g : Grammar) : Prop where
  expression {K : State → Prop} {least : Int} (asked : 0 ≤ least) :
    Takes K Operand (g.expression least)
  block {K : State → Prop} : Takes K Whole g.block
  object {K : State → Prop} : Takes K Operand g.object
  keyValueOrStatement {K : State → Prop} : Takes K Listed g.keyValueOrStatement
  statement {K : State → Prop} : Takes K Standing g.statement

theorem Woven.closed {own : List Token} {parts : List (List Token)} (h : Woven own parts ts)
    (t : Token) :
    Woven (own ++ [t]) parts (ts ++ [t]) := by
  induction h with
  | nil => exact .token t .nil
  | token u _ ih => exact .token u ih
  | part us _ ih =>
    rw [List.append_assoc]
    exact .part us ih

/-- Tokens that are words, trees and signs, in this order. -/
def Made (words : List String) (nodes : List Node) (ts : List Token) : Prop :=
  ∃ own parts lost, Woven own parts ts ∧ wordsOf own = words ∧ ReadsAll parts nodes lost

namespace Made

variable {words : List String} {nodes : List Node} {ts : List Token}

theorem nil : Made [] [] [] := ⟨[], [], [], .nil, rfl, .nil⟩

variable {kind : TokenKind} {t : Token}

theorem sign (h : t.kind = kind) (no : isWordKind kind = false)
    (rest : Made words nodes ts) : Made words nodes (t :: ts) := by
  obtain ⟨own, parts, lost, woven, rfl, inner⟩ := rest
  exact ⟨t :: own, parts, lost, .token t woven, wordsOf_sign (not_word h no) own, inner⟩

theorem word (h : t.kind = kind) (yes : isWordKind kind = true)
    (rest : Made words nodes ts) : Made (t.text :: words) nodes (t :: ts) := by
  obtain ⟨own, parts, lost, woven, rfl, inner⟩ := rest
  exact ⟨t :: own, parts, lost, .token t woven, wordsOf_word (is_word h yes) own, inner⟩

theorem part {n : Node} {us : List Token} (first : Whole n us) (h : Made words nodes ts) :
    Made words (n :: nodes) (us ++ ts) := by
  obtain ⟨own, parts, losts, woven, rfl, inner⟩ := h
  obtain ⟨lost, reads⟩ := first
  exact ⟨own, us :: parts, lost ++ losts, .part us woven, rfl, .cons reads inner⟩

theorem last {n : Node} (h : Whole n ts) : Made [] [n] ts := by
  simpa using part h nil

theorem tokens (us : List Token) (h : Made words nodes ts) :
    Made (wordsOf us ++ words) nodes (us ++ ts) := by
  induction us with
  | nil => exact h
  | cons u us ih =>
    cases known : isWordKind u.kind with
    | true =>
      rw [wordsOf_word known]
      exact word rfl known ih
    | false =>
      rw [wordsOf_sign known]
      exact sign rfl known ih

theorem closed (rest : Made words nodes ts) (h : t.kind = kind)
    (no : isWordKind kind = false) : Made words nodes (ts ++ [t]) := by
  obtain ⟨own, parts, lost, woven, rfl, inner⟩ := rest
  exact ⟨own ++ [t], parts, lost, woven.closed t, by simp [wordsOf, not_word h no], inner⟩

end Made

theorem Whole.form (simple : n.isSimple = true) (filled : ts.isEmpty = false)
    (h : Made n.ownWords n.children ts) : Whole n ts := by
  obtain ⟨own, parts, lost, woven, words, inner⟩ := h
  exact ⟨lost, .form simple woven inner words (by simpa using filled)⟩

theorem Whole.standing (h : Whole n ts) (unnamed : n.isNamed = false) : Standing n ts := by
  refine ⟨fun named => ?_, h⟩
  rw [unnamed] at named
  cases named

theorem Operand.leaf {value : Data} {t : Token} {kind : TokenKind} (h : t.kind = kind)
    (no : isWordKind kind = false)
    (silent : (Node.literal value).ownWords = []) : Operand (.literal value) [t] := by
  refine ⟨rfl, .form rfl rfl ?_⟩
  rw [silent]
  exact .sign h no .nil

theorem numeralValue_silent {text : String} {value : Data} (h : numeralValue text = .ok value) :
    (Node.literal value).ownWords = [] := by
  unfold numeralValue at h
  split at h
  all_goals
    split at h
    · cases h
      rfl
    · cases h

theorem isWordKind_operator {kind : TokenKind} (h : isOperator kind = true) :
    isWordKind kind = false := by
  cases kind <;> first | rfl | cases h

inductive Branch : Option Node × Node → List Token → Prop where
  | case {value body : Node} {us bs : List Token} {w : Token} (word : w.kind = .caseWord)
      (first : Whole value us)
      (second : Whole body bs) : Branch (some value, body) (w :: (us ++ bs))
  | default {body : Node} {bs : List Token} {w : Token} (word : w.kind = .defaultWord)
      (first : Whole body bs) :
      Branch (none, body) (w :: bs)

theorem Branch.chooses {branch : Option Node × Node} {branches : List (Option Node × Node)}
    (h : Branch branch ts) (rest : ∃ lost, Chooses us branches lost) :
    ∃ lost, Chooses (ts ++ us) (branch :: branches) lost := by
  obtain ⟨losts, rest⟩ := rest
  cases h with
  | case word first second =>
    obtain ⟨lost, first⟩ := first
    obtain ⟨lost', second⟩ := second
    exact ⟨_, by simpa using Chooses.case word first second rest⟩
  | default word first =>
    obtain ⟨lost, first⟩ := first
    cases later : defaultOf branches with
    | none => exact ⟨_, .default word first later rest⟩
    | some other => exact ⟨_, .replaced word first (by simp [later]) rest⟩

theorem Whole.listed (h : Whole n ts) : Listed n ts := by
  obtain ⟨lost, reads⟩ := h
  exact ⟨ts, [], lost, .none ts, reads⟩

theorem Listed.members {nodes : List Node} (h : Listed n ts)
    (rest : ∃ lost, Members us nodes lost) : ∃ lost, Members (ts ++ us) (n :: nodes) lost := by
  obtain ⟨ts', slip, lost, slipped, reads⟩ := h
  obtain ⟨losts, rest⟩ := rest
  exact ⟨_, .member slipped reads rest⟩

theorem Listed.gathers {nodes : List Node} {commas losts : List Token} (h : Listed n ts)
    (signs : wordsOf commas = []) (rest : Gathers us nodes losts) :
    ∃ lost, Gathers (ts ++ (commas ++ us)) (n :: nodes) lost := by
  obtain ⟨ts', slip, lost, slipped, reads⟩ := h
  by_cases gone : ∀ e, attribute? n = some e → e.1 ∈ Assoc.keys (entriesOf nodes)
  · exact ⟨_, .dropped slipped reads gone signs rest⟩
  push Not at gone
  obtain ⟨e, added, new⟩ := gone
  cases n with
  | named name label body =>
    cases added
    cases slipped with
    | key _ _ _ unnamed | text _ _ _ unnamed => cases unnamed
    | none =>
      cases reads with
      | grouped operand => cases operand
      | form _ woven inner words _ =>
        obtain ⟨_, labels, same, rfl, labelled⟩ := List.map_eq_cons_iff.mp words
        cases inner with
        | cons first last =>
          cases last
          exact ⟨_, .body woven same labelled first new signs rest⟩
  | _ => exact ⟨_, .entry slipped reads rfl added new signs rest⟩

theorem isWord_of_isTypeWord {t : Token} (h : isTypeWord t = true) : isWord t = true := by
  rcases Bool.or_eq_true_iff.mp h with kind | kind
  · exact is_word (beq_iff_eq.mp kind) rfl
  · exact is_word (beq_iff_eq.mp kind) rfl

/-! ### Types -/

theorem typeName_takes : Takes K (fun name ts => wordsOf ts = [name]) typeName := by
  refine .current fun t => ?_
  split
  · next word => exact .advance (.pure (wordsOf_word (isWord_of_isTypeWord word) []))
  · exact .throw _

theorem typeAnnotation_takes : Takes K (fun type ts => wordsOf ts = type.words) typeAnnotation := by
  have another : Takes (fun _ => True) (fun name ts => wordsOf ts = name.toList)
      (do if ← accept .pipe then some <$> typeName else return none) := by
    refine .accept (fun p hp => .map (typeName_takes.mono fun name ts h => ?_)) (.pure rfl)
    simpa [wordsOf, not_word hp rfl] using h
  have members (fuel : Nat) : Takes (fun _ => True) (fun names ts => wordsOf ts = names)
      (repeated (do if ← accept .pipe then some <$> typeName else return none) fuel) := by
    refine repeated_takes another (fun ts h => h) (fun name ts names us h h' => ?_) fuel
    rw [wordsOf_append, h, h']
    rfl
  refine typeName_takes.bind fun name ts hname => ?_
  have finish (nullable : Bool) {us : List Token} (hus : wordsOf us = [name]) :
      Takes (fun _ => True) (fun (type : TypeRef) vs => wordsOf (us ++ vs) = type.words) (do
        let members ← repeated (do
          if ← accept .pipe then some <$> typeName else return none) (← bound)
        if members.isEmpty then return { name, nullable }
        else return { name := "", nullable, members := (name :: members).map fun m =>
          { name := m } }) := by
    refine .bound fun fuel => (members fuel).bind fun names vs hnames => ?_
    split
    · next none =>
        obtain rfl := List.isEmpty_iff.mp none
        exact .pure (by simp [wordsOf_append, hus, hnames, TypeRef.words])
    · exact .pure (by simp [wordsOf_append, hus, hnames, TypeRef.words, Function.comp_def])
  refine .accept (fun q hq => ?_) ((finish false hname).anywhere)
  have marked : wordsOf (ts ++ [q]) = [name] := by
    rw [wordsOf_append, wordsOf_sign (not_word hq rfl), hname]
    rfl
  exact (finish true marked).anywhere.mono (by simp)

theorem parameter_takes : Takes K (fun p ts => wordsOf ts = p.words) parameter := by
  refine .consume fun name hname => .skip fun c hc =>
    typeAnnotation_takes.bind fun type ts htype => .pure ?_
  rw [List.append_nil, wordsOf_word (is_word hname rfl), wordsOf_sign (not_word hc rfl), htype]
  rfl

theorem parameterList_takes :
    Takes K (fun params ts => wordsOf ts = params.flatMap Param.words) parameterList := by
  refine .sees fun closed => ?_
  split
  · exact .pure rfl
  · refine separated_takes parameter_takes (fun p ts h => by simpa using h)
      (fun p ts comma params us h hcomma h' => ?_)
    rw [wordsOf_append, wordsOf_sign (not_word hcomma rfl), h, h', List.flatMap_cons]

def keyed (g : Grammar) (key : String) (label : Option String) : Parse Node := do
  if ← accept .colon then
    if (← sees .identifier) && (← seesBehind .leftBrace) then
      let type ← consume .identifier
      return .typed (some key) type.text (← g.block)
    else return .keyValue key (← expressionOrObject g)
  else if ← accept .equals then return .keyValue key (← expressionOrObject g)
  else if ← sees .leftBrace then return .named key label (← g.block)
  else
    modify fun s => { s with pos := s.pos - 1 }
    g.statement

section Nonterminals

variable {g : Grammar} (hg : g.Sourced) {K : State → Prop}

include hg

theorem Grammar.Sourced.operand : Takes K Operand (g.expression 0) := hg.expression (le_refl 0)

/-! ### Expressions -/

theorem listed_takes {β : Type} {Q : β → List Token → Prop} {b : Bool} {next : List Node → Parse β}
    (hn : ∀ elements ts, Made [] elements ts →
      Takes (fun _ => True) (fun b us => Q b (ts ++ us)) (next elements)) :
    Takes K Q (if b = true then pure [] >>=
      next else separated .comma (g.expression 0) >>= next) := by
  have items : Takes K (Made []) (separated .comma (g.expression 0)) := by
    refine separated_takes hg.operand (fun n ts hn => ?_) (fun n ts t nodes us hn comma hnodes => ?_)
    · exact .last hn.2
    · exact .part hn.2 (.sign comma rfl hnodes)
  cases b with
  | true => exact Takes.bind (.pure .nil) hn
  | false => exact items.bind hn

theorem trailers_takes (fuel : Nat) {node : Node} {ts : List Token} (h : Operand node ts) :
    Takes K (fun n us => Operand n (ts ++ us)) (trailers g fuel node) := by
  induction fuel generalizing node ts K with
  | zero => exact .throw _
  | succ fuel ih =>
    refine .accept (fun dot hdot => .consume fun name hname => ?_)
      (.accept (fun l hl => .sees fun empty => ?_) (.pure ?_))
    · have longer : Operand (.access node name.text) (ts ++ [dot, name]) :=
        ⟨rfl, .form rfl (by simp) (.part h.2 (.sign hdot rfl (.word hname rfl .nil)))⟩
      exact (ih longer).mono (by simp)
    · refine listed_takes hg fun arguments us several => .skip fun r hr => ?_
      have longer : Operand (.call node arguments) (ts ++ l :: (us ++ [r])) :=
        ⟨rfl, .form rfl (by simp) (.part h.2 (.sign hl rfl (several.closed hr rfl)))⟩
      exact (ih longer).mono (by simp)
    · simpa using h

theorem primary_takes : Takes K Operand (primary g) := by
  refine .current fun t => ?_
  split
  · next kind =>
    exact .advance (.lift fun value read => .pure (.leaf kind rfl (numeralValue_silent read)))
  · next kind => exact .advance (.pure ⟨rfl, .form rfl rfl (.word kind rfl .nil)⟩)
  · next kind =>
      refine .advance (.sees fun empty => listed_takes hg fun elements ts several =>
        .skip fun r hr => .pure ⟨rfl, ?_⟩)
      exact .form rfl rfl (.sign kind rfl (several.closed hr rfl))
  · exact hg.object
  · next kind =>
      refine .advance (.bound fun fuel => ?_)
      have name : Operand (.identifier t.text) [t] := ⟨rfl, .form rfl rfl (.word kind rfl .nil)⟩
      exact trailers_takes hg fuel name
  · next kind =>
      refine .advance (hg.operand.bind fun inner ts h => .skip fun r hr => .pure ?_)
      obtain ⟨operand, lost, reads⟩ := h
      exact ⟨operand, lost, .grouped operand reads kind hr⟩
  · next kind => exact .advance (.pure (.leaf kind rfl rfl))
  · next kind => exact .advance (.pure (.leaf kind rfl rfl))
  · next kind => exact .advance (.pure (.leaf kind rfl rfl))
  · exact .throw _

theorem operations_takes {least : Int} (asked : 0 ≤ least) (fuel : Nat) {left : Node}
    {ts : List Token}
    (h : Operand left ts) : Takes K (fun n us => Operand n (ts ++ us))
    (operations g least fuel left) := by
  induction fuel generalizing left ts K with
  | zero => exact .throw _
  | succ fuel ih =>
    refine .current fun t => ?_
    dsimp only
    split
    · exact .pure (by simpa using h)
    next strong =>
    split
    · next operator =>
        refine .advance ((hg.expression (by omega)).bind fun right us hright => ?_)
        have longer : Operand (.expression left (some t) (some right)) (ts ++ t :: (us ++ [])) :=
          ⟨rfl, .form rfl (by simp) (.part h.2
            (.sign rfl (isWordKind_operator operator) (.part hright.2 .nil)))⟩
        exact (ih longer).mono (by simp)
    split
    · next brace =>
        have lowest : precedence t.kind = -1 := by
          rw [beq_iff_eq.mp brace]
          rfl
        omega
    · exact .pure (by simpa using h)

theorem expression_takes {least : Int} (asked : 0 ≤ least) : Takes K Operand (expression g least) :=
  (primary_takes hg).bind fun _ _ h => .bound fun fuel => operations_takes hg asked fuel h

theorem expressionOrObject_takes : Takes K Operand (expressionOrObject g) := by
  refine .sees fun opened => ?_
  split
  · exact hg.object
  · exact hg.operand

/-! ### Statements -/

theorem mapsTo_takes {t : Token} (word : isWord t = true) : Takes (At t) Standing (mapsTo g) := by
  refine .current_known (.advance
    (.skip fun m hm => hg.operand.bind fun target ts htarget => .pure ?_))
  have text : Whole (.literal (.str t.text)) [t] := .form rfl rfl (.word rfl word .nil)
  exact Whole.standing (.form rfl rfl (.part text (.sign hm rfl (.part htarget.2 .nil)))) rfl

theorem returnStatement_takes : Takes K Standing (returnStatement g) := by
  refine .skip fun w hw => hg.operand.bind fun value ts hvalue => .pure ?_
  exact Whole.standing (.form rfl rfl (.sign hw rfl (.part hvalue.2 .nil))) rfl

theorem resource_takes : Takes K Standing (resource g) := by
  refine .skip fun w hw => .consume fun kind hkind => .consume fun name hname =>
    hg.block.bind fun body ts hbody => ?_
  have stands (type : Data) :
      Standing (.resource kind.text name.text body type) (w :: kind :: name :: (ts ++ [])) :=
    Whole.standing (.form rfl rfl
      (.sign hw rfl (.word hkind rfl (.word hname rfl (.part hbody .nil))))) rfl
  dsimp only
  split
  · exact .get fun s _ => .lift fun problems _ => .refuse fun _ => .pure (stands _)
  · exact .pure (stands _)

theorem serviceBlock_takes {t : Token} (kind : t.kind = .identifier) (service : t.text = "service") :
    Takes (At t) Standing (serviceBlock g) := by
  refine .discarded (.consume_known
    (.consume fun name hname => hg.block.bind fun body ts hbody => .pure ?_))
  refine ⟨fun _ => ⟨t, _, rfl, kind⟩, .form rfl rfl ?_⟩
  rw [← service]
  exact .word kind rfl (.word hname rfl (.part hbody .nil))

theorem forLoop_takes : Takes K Standing (forLoop g) := by
  refine .skip fun w hw => .current fun t => .refuse fun ht =>
    .advance (.current fun i => .refuse fun hi => .advance ?_)
  refine hg.operand.bind fun iterable ts hiterable => .current fun l => .refuse fun _ => ?_
  refine hg.block.bind fun body us hbody => .pure ?_
  have name : t.kind = .identifier := by simpa using ht
  have inWord : i.kind = .inWord := by simpa using hi
  exact Whole.standing (.form rfl rfl (.sign hw rfl (.word name rfl (.sign inWord rfl
    (.part hiterable.2 (.part hbody .nil)))))) rfl

theorem conditional_takes : Takes K Standing (conditional g) := by
  refine .skip fun w hw => hg.operand.bind fun condition ts hcondition =>
    hg.block.bind fun yes us hyes => ?_
  refine .accept (fun e he => ?_) (.pure ?_)
  · refine .bind (P := fun no vs => ∃ n, no = some n ∧ Whole n vs)
      (.map (hg.block.mono fun n vs hn => ⟨n, rfl, hn⟩)) ?_
    rintro _ vs ⟨no, rfl, hno⟩
    refine .pure (Whole.standing (.form rfl rfl ?_) rfl)
    exact .sign hw rfl (.part hcondition.2 (.part hyes (.sign he rfl (.part hno .nil))))
  · exact Whole.standing (.form rfl rfl (.sign hw rfl (.part hcondition.2 (.part hyes .nil)))) rfl

theorem assignment_takes : Takes K Standing (assignment g) := by
  refine .consume fun name hname => .skip fun e he => hg.operand.bind fun value ts hvalue => .pure ?_
  exact Whole.standing (.form rfl rfl (.word hname rfl (.sign he rfl (.part hvalue.2 .nil)))) rfl

theorem expressionStatement_takes : Takes K Standing (expressionStatement g) := by
  refine hg.operand.bind fun value ts hvalue => .pure ?_
  obtain ⟨-, lost, reads⟩ := id hvalue
  exact Whole.standing (.form rfl (by simpa using reads.ne_nil) (.part hvalue.2 .nil)) rfl

theorem switchBranch_takes : Takes K Branch (switchBranch g) := by
  refine .accept (fun w hw => ?_) (.accept (fun w hw => ?_) (.current fun t => .throw _))
  · refine hg.operand.bind fun value us hvalue => hg.block.bind fun body bs hbody => .pure ?_
    simpa using Branch.case hw hvalue.2 hbody
  · refine hg.block.bind fun body bs hbody => .pure ?_
    simpa using Branch.default hw hbody

theorem switch_takes : Takes K Standing (switch g) := by
  refine .skip fun w hw => hg.operand.bind fun value us hvalue => .skip fun l hl => ?_
  have branches : Takes (Past l) (fun branches ts => ∃ lost, Chooses ts branches lost)
      (untilToken .rightBrace (switchBranch g)) :=
    untilToken_takes (switchBranch_takes hg) _ ⟨[], .noBranch⟩ fun _ _ _ _ => Branch.chooses
  refine branches.bind fun branches ts hbranches => .skip fun r hr => .pure ⟨nofun, ?_⟩
  obtain ⟨lost, reads⟩ := hvalue.2
  obtain ⟨losts, chosen⟩ := hbranches
  exact ⟨lost ++ losts, .switch reads chosen hw hl hr⟩

theorem namedBlock_takes : Takes K Standing (namedBlock g) := by
  refine .consume fun name hname => .sees fun labelled =>
    .label (fun label hlabel => .refuse fun _ => ?_) (.refuse fun _ => ?_)
  · refine hg.block.bind fun body ts hbody => .pure ⟨fun _ => ⟨name, _, rfl, hname⟩, .form rfl rfl ?_⟩
    exact .word hname rfl (.word hlabel rfl (.part hbody .nil))
  · refine hg.block.bind fun body ts hbody => .pure ⟨fun _ => ⟨name, _, rfl, hname⟩, .form rfl rfl ?_⟩
    exact .word hname rfl (.part hbody .nil)

theorem function_takes : Takes K Standing (function g) := by
  refine .skip fun w hw => .consume fun name hname => .skip fun l hl => ?_
  refine parameterList_takes.bind fun params ps hparams => .skip fun r hr => ?_
  have finish (result : Option TypeRef) (us : List Token)
    (hresult : wordsOf us = result.toList.flatMap TypeRef.words) :
      Takes (fun _ => True) (fun n vs => Standing n (w :: name :: l :: (ps ++ r :: (us ++ vs)))) (do
        return .function name.text params result (← g.block)) := by
    refine hg.block.bind fun body ts hbody => .pure (Whole.standing (.form rfl rfl ?_) rfl)
    have made := Made.tokens ps (.sign hr rfl (.tokens us (.part hbody .nil)))
    rw [hparams, hresult, List.append_nil] at made
    exact .sign hw rfl (.word hname rfl (.sign hl rfl made))
  refine .accept (fun c hc => ?_) ?_
  · refine .bind (P := fun result us => wordsOf us = result.toList.flatMap TypeRef.words)
      (.map (typeAnnotation_takes.mono fun type us htype => by simpa using htype))
        fun result us hresult => ?_
    exact finish result (c :: us) (by simpa [wordsOf, not_word hc rfl] using hresult)
  · exact .bind (P := fun result us => wordsOf us = result.toList.flatMap TypeRef.words)
      (.pure rfl) finish

theorem statement_takes : Takes K Standing (statement g) := by
  refine .current fun t => ?_
  split
  · exact returnStatement_takes hg
  · exact resource_takes hg
  · exact forLoop_takes hg
  · exact conditional_takes hg
  · exact switch_takes hg
  · exact function_takes hg
  · refine .get fun s inside => ?_
    split
    · next outside =>
        -- Types are defined outside of blocks only.
        have : s.level = 0 := by simpa using (Bool.and_eq_true_iff.mp outside).2
        omega
    split
    · next service =>
        obtain ⟨kind, text⟩ := Bool.and_eq_true_iff.mp service
        exact serviceBlock_takes hg (beq_iff_eq.mp kind) (beq_iff_eq.mp text)
    split
    · next word =>
        refine .seesBehind fun mapped => ?_
        split
        · exact mapsTo_takes hg (isWord_of_isTypeWord word)
        refine .seesBehind fun assigned => ?_
        split
        · exact assignment_takes hg
        refine .seesBehind fun opened => ?_
        split
        · exact namedBlock_takes hg
        · exact expressionStatement_takes hg
    · exact expressionStatement_takes hg

/-! ### Blocks -/

theorem block_reads {s s' : State} {node : Node} (outside : 0 ≤ s.level)
    (run : block g s = .ok (node, s')) :
    ∃ ts, Passes s ts s' ∧ Whole node ts := by
  have item : Takes (fun _ => True) Listed
      (do if isTypeWord (← current) then g.keyValueOrStatement else g.statement) := by
    refine .current fun t => ?_
    split
    · exact hg.keyValueOrStatement
    · exact hg.statement.mono fun n ts h => h.2.listed
  have members : Takes (fun _ => True) (fun nodes ts => ∃ lost, Members ts nodes lost)
    (untilToken .rightBrace
      (do if isTypeWord (← current) then g.keyValueOrStatement else g.statement)) :=
    untilToken_takes item _ ⟨[], .noMember⟩ fun _ _ _ _ => Listed.members
  obtain ⟨_, s₁, opened, rest⟩ := bind_eq_ok run
  obtain ⟨l, opened⟩ := of_discard opened
  obtain ⟨left, hl, rfl⟩ := of_consume opened
  obtain ⟨_, s₂, raised, rest⟩ := bind_eq_ok rest
  cases raised
  obtain ⟨statements, s₃, read, rest⟩ := bind_eq_ok rest
  obtain ⟨ts, passed, lost, hmembers⟩ := members _ _ _ (by simp only [State.skip]; omega) trivial read
  obtain ⟨_, s₄, closed, rest⟩ := bind_eq_ok rest
  obtain ⟨r, closed⟩ := of_discard closed
  obtain ⟨right, hr, rfl⟩ := of_consume closed
  obtain ⟨_, s₅, lowered, last⟩ := bind_eq_ok rest
  cases lowered
  cases last
  refine ⟨l :: (ts ++ [r]), ?_, lost, .block hmembers hl hr⟩
  have between := passed.trans (At.passes right)
  refine ⟨between.tokens, ?_, ?_, (At.ahead left).trans (congrArg (l :: ·) between.ahead)⟩
  · have same := between.level
    simp only [State.skip] at same ⊢
    omega
  · have same := between.pos
    simp only [State.skip, List.length_cons] at same ⊢
    omega

theorem object_takes : Takes K Operand (object g) := by
  have item : Takes (fun _ => True)
    (fun n ts => ∃ us commas, ts = us ++ commas ∧ wordsOf commas = [] ∧ Listed n us) (do
      let member ← g.keyValueOrStatement
      discard <| accept .comma
      return member) := by
    refine hg.keyValueOrStatement.bind fun n ts h =>
      .discarded (.accept (fun comma hcomma => .pure ?_) (.pure ?_))
    · exact ⟨ts, [comma], rfl, by simp [wordsOf, not_word hcomma rfl], h⟩
    · exact ⟨ts, [], rfl, rfl, h⟩
  refine .skip fun l hl => ?_
  refine .bind (P := fun members ts => ∃ lost, Gathers ts members lost)
    (untilToken_takes item _ ⟨[], .noEntry⟩ ?_) ?_
  · rintro n _ members us ⟨ts, commas, rfl, signs, listed⟩ ⟨losts, gathered⟩
    rw [List.append_assoc]
    exact listed.gathers signs gathered
  · rintro members ts ⟨lost, gathered⟩
    exact .skip fun r hr => .pure ⟨rfl, lost, .object gathered hl hr⟩

theorem keyed_takes {key last : Token} {label : Option String} (front : List Token)
    (word : isWord key = true)
    (pair : ∀ n us, n.isNamed = false → Whole n (key :: us) → Listed n (front ++ us))
    (named : ∀ body us, Whole body us → Listed (.named key.text label body) (front ++ us))
    (again : ∀ n us, Standing n (last :: us) → Listed n (front ++ us)) :
    Takes (Past last) (fun n us => Listed n (front ++ us)) (keyed g key.text label) := by
  refine .accept (fun c hc => .sees fun typed => .seesBehind fun opened => ?_)
    (.accept (fun e he => ?_) (.sees fun opened => ?_))
  · split
    · refine .consume fun type htype => hg.block.bind fun body ts hbody =>
        .pure (pair _ _ rfl (.form rfl rfl ?_))
      exact .word rfl word (.sign hc rfl (.word htype rfl (.part hbody .nil)))
    · refine (expressionOrObject_takes hg).bind fun value ts hvalue =>
        .pure (pair _ _ rfl (.form rfl rfl ?_))
      exact .word rfl word (.sign hc rfl (.part hvalue.2 .nil))
  · refine (expressionOrObject_takes hg).bind fun value ts hvalue =>
      .pure (pair _ _ rfl (.form rfl rfl ?_))
    exact .word rfl word (.sign he rfl (.part hvalue.2 .nil))
  · split
    · refine hg.block.bind fun body ts hbody => .pure (named _ _ ?_)
      rwa [List.append_nil]
    · refine .rewind (hg.statement.known.mono ?_)
      rintro n (_ | ⟨t, us⟩) ⟨standing, first⟩
      · obtain ⟨-, lost, reads⟩ := standing
        exact absurd rfl reads.ne_nil
      · obtain rfl : t = last := first
        exact ⟨us, rfl, again n us standing⟩

theorem keyValueOrStatement_takes : Takes K Listed (keyValueOrStatement g) := by
  refine .current fun key => ?_
  split
  · exact hg.statement.mono fun n ts h => h.2.listed
  next known =>
  have word : isWord key = true := by
    rw [Bool.not_eq_true, Bool.not_eq_false'] at known
    rcases Bool.or_eq_true_iff.mp known with word | kind
    · exact isWord_of_isTypeWord word
    · exact is_word (beq_iff_eq.mp kind) rfl
  refine .advance (.sees fun labelled => .label (fun label hlabel => ?_) ?_)
  · refine keyed_takes hg [key, label] word ?_ ?_ ?_
    · rintro n us unnamed ⟨lost, reads⟩
      exact ⟨key :: us, [label], lost, .text us word hlabel unnamed, reads⟩
    · intro body us hbody
      exact Whole.listed (.form rfl rfl (.word rfl word (.word hlabel rfl (.last hbody))))
    · rintro n us ⟨opening, lost, reads⟩
      -- A statement that starts at a text is no named block.
      have unnamed : n.isNamed = false := by
        by_contra named
        obtain ⟨_, _, same, kind⟩ := opening (Bool.eq_true_of_not_eq_false named)
        cases same
        rw [hlabel] at kind
        cases kind
      exact ⟨label :: us, [key], lost, .key us word hlabel unnamed, reads⟩
  · refine keyed_takes hg [key] word (fun n us _ h => h.listed) ?_ (fun n us h => h.2.listed)
    intro body us hbody
    exact Whole.listed (.form rfl rfl (.word rfl word (.last hbody)))

end Nonterminals

/-! ### The knot -/

theorem grammar_sourced (depth : Nat) : (grammar depth).Sourced := by
  induction depth with
  | zero => exact ⟨fun _ => .throw _, .throw _, .throw _, .throw _, .throw _⟩
  | succ depth hg =>
    refine ⟨expression_takes hg, ?_, object_takes hg, keyValueOrStatement_takes hg,
      statement_takes hg⟩
    exact fun s n s' inside _ run => block_reads hg (by omega) run

/-- The tree of a block stands for the tokens from brace to brace. Each identifier or text among
them occurs in the tree, or is lost to a later member or default, to the form of an object, or to a
label that opens no block. -/
theorem block_keeps_words {depth : Nat} {s s' : State} {node : Node} (outside : 0 ≤ s.level)
    (run : (block (grammar depth)).run s = .ok (node, s')) :
    ∃ ts lost, Passes s ts s' ∧ Reads ts node lost ∧ ∀ t ∈ ts, isTypeWord t = true → t ∈ lost ∨
      node.Says t.text := by
  obtain ⟨ts, passed, lost, reads⟩ := block_reads (grammar_sourced depth) outside run
  exact ⟨ts, lost, passed, reads, fun t member word =>
    reads.accounted t member (isWord_of_isTypeWord word)⟩

/-- A block with a labelled block, a mapping and an object in which a key is given twice. -/
theorem block_keeps_words_nested :
    let tokens : List Token := [⟨.leftBrace, "\x7b", 1, 1⟩, ⟨.identifier, "web", 1, 3⟩,
      ⟨.string, "main", 1, 7⟩,
      ⟨.leftBrace, "\x7b", 1, 14⟩, ⟨.string, "a", 1, 16⟩, ⟨.mapsTo, "maps_to", 1, 20⟩,
        ⟨.identifier, "b", 1, 28⟩,
      ⟨.rightBrace, "\x7d", 1, 30⟩, ⟨.identifier, "x", 1, 32⟩, ⟨.equals, "=", 1, 34⟩,
        ⟨.leftBrace, "\x7b", 1, 36⟩,
      ⟨.identifier, "k", 1, 38⟩, ⟨.equals, "=", 1, 40⟩, ⟨.identifier, "p", 1, 42⟩,
        ⟨.identifier, "k", 1, 44⟩,
      ⟨.equals, "=", 1, 46⟩, ⟨.identifier, "q", 1, 48⟩, ⟨.rightBrace, "\x7d", 1, 50⟩,
        ⟨.rightBrace, "\x7d", 1, 52⟩,
      ⟨.endOfFile, "", 1, 53⟩]
    let s : State := { tokens := tokens.toArray }
    let node : Node :=
      .block [.named "web" (some "main") (.block [.mapsTo (.literal (.str "a")) (.identifier "b")]),
      .keyValue "x" (.object [("k", .identifier "q")])]
    0 ≤ s.level ∧ ∃ s', (block (grammar (depthFor tokens))).run s = .ok (node, s') ∧
      ∃ ts lost, Passes s ts s' ∧ Reads ts node lost ∧ ∀ t ∈ ts, isTypeWord t = true → t ∈ lost ∨
        node.Says t.text := by
  intro tokens s node
  have read : Prod.fst <$> (block (grammar (depthFor tokens))).run s = .ok node := by cbv
  obtain ⟨⟨_, s'⟩, run, rfl⟩ := Outcome.map_eq_ok read
  exact ⟨le_refl 0, s', run, block_keeps_words (le_refl 0) run⟩

/-- Of two members with one key an object keeps the second, and the value of the first occurs
nowhere. -/
theorem repeated_key_dropped :
    let node : Node := .block [.keyValue "x" (.object [("a", .identifier "q")])]
    (fun r => (r.1, r.2.pos, r.2.tokens[6]?)) <$>
    Parser.run block "\x7b x = \x7b a = p a = q \x7d \x7d" =
        .ok (node, 12, some ⟨.identifier, "p", 1, 13⟩) ∧
      ¬ node.Says "p" := by
  intro node
  refine ⟨by cbv, ?_⟩
  have value : ¬ (Node.identifier "q").Says "p" := by
    rw [Node.says_iff]
    simp [Node.ownWords, Node.children]
  have object : ¬ (Node.object [("a", .identifier "q")]).Says "p" := by
    rw [Node.says_iff]
    simp [Node.ownWords, Node.children, Assoc.keys, value]
  have pair : ¬ (Node.keyValue "x" (.object [("a", .identifier "q")])).Says "p" := by
    rw [Node.says_iff]
    simp [Node.ownWords, Node.children, object]
  rw [Node.says_iff]
  simp [node, Node.ownWords, Node.children, pair]

end Stratus.Parser
