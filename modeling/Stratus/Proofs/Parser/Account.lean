import Stratus.Proofs.Parser.Shape

/-!
How a tree accounts for the words among its tokens. `Reads ts n lost` says that `n` stands for `ts`
and has no place for the tokens `lost`: an object keeps the last member of a key, and of its members
only pairs, typed instances and bodies of named blocks; a switch keeps its last default; a text
behind a key may go where no block is opened. Main statement: every other word occurs in the tree.
-/
namespace Stratus

open Assoc hiding set
open List

def TypeRef.words (type : TypeRef) : List String :=
  if type.members.isEmpty then [type.name] else type.members.map TypeRef.name

def Param.words (p : Param) : List String := p.name :: p.type.words

namespace Node

/-- The words of a tree that are not in the trees below it, in the order in which they are written.
-/
def ownWords : Node → List String
  | keyValue key _ => [key]
  | typed label typeName _ => label.toList ++ [typeName]
  | resource kind name _ _ => [kind, name]
  | forLoop iterator _ _ => [iterator]
  | function name params result _ =>
    name :: (params.flatMap Param.words ++ result.toList.flatMap TypeRef.words)
  | assignment name _ => [name]
  | range callee _ => [callee]
  | literal (.str text) => [text]
  | identifier name => [name]
  | access _ member => [member]
  | object attributes => keys attributes
  | named name label _ => name :: label.toList
  | typeDef _ name fields base =>
    name :: (fields.flatMap (fun f => f.1 :: f.2.1.words) ++ base.toList)
  | raw name label content => name :: (label.toList ++ [content])
  | _ => []

/-- A word occurs in a tree or in a tree inside it. -/
def Says (n : Node) (word : String) : Prop := ∃ part : Node, part.Subtree n ∧ word ∈ part.ownWords

theorem says_iff {n : Node} {word : String} :
    n.Says word ↔ word ∈ n.ownWords ∨ ∃ child ∈ n.children, child.Says word := by
  constructor
  · rintro ⟨part, inside, said⟩
    cases inside with
    | self => exact .inl said
    | inner member inside => exact .inr ⟨_, member, part, inside, said⟩
  · rintro (own | ⟨child, member, part, inside, said⟩)
    · exact ⟨n, .self n, own⟩
    · exact ⟨part, .inner member inside, said⟩

/-- Forms that stand for the words between their parts and for nothing else. -/
def isSimple : Node → Bool
  | block _ | object _ | switch .. => false
  | _ => true

def isOperand : Node → Bool
  | literal _ | identifier _ | access .. | call .. | list _ | object _ | expression .. => true
  | _ => false

def isNamed : Node → Bool
  | named .. => true
  | _ => false

end Node

namespace Parser

variable {branches : List (Option Node × Node)} {parts : List (List Token)} {kind : TokenKind}
  {own : List Token}

/-- Identifiers, texts, and the one other token that may be a key. -/
def isWordKind : TokenKind → Bool
  | .identifier | .string | .typeWord => true
  | _ => false

def isWord (t : Token) : Bool := isWordKind t.kind

def wordsOf (ts : List Token) : List String := (ts.filter isWord).map Token.text

/-- A list of tokens made of single tokens and of parts, each in their order. -/
inductive Woven : List Token → List (List Token) → List Token → Prop where
  | nil : Woven [] [] []
  | token (t : Token) {own : List Token} {parts : List (List Token)} {ts : List Token}
      (rest : Woven own parts ts) :
      Woven (t :: own) parts (t :: ts)
  | part (us : List Token) {own : List Token} {parts : List (List Token)} {ts : List Token}
      (rest : Woven own parts ts) :
      Woven own (us :: parts) (us ++ ts)

/-- What is left of a member for its tree: where a text follows the key and the tree is no named
block, one of the two may go. -/
inductive Slipped (n : Node) : List Token → List Token → List Token → Prop where
  | none (ts : List Token) : Slipped n ts ts []
  | key {key text : Token} (ts : List Token) (word : isWord key = true) (behind : text.kind = .string)
      (unnamed : n.isNamed = false) : Slipped n (key :: text :: ts) (text :: ts) [key]
  | text {key text : Token} (ts : List Token) (word : isWord key = true)
      (behind : text.kind = .string)
      (unnamed : n.isNamed = false) : Slipped n (key :: text :: ts) (key :: ts) [text]

def entriesOf (members : List Node) : List (String × Node) := members.filterMap attribute?

def casesOf (branches : List (Option Node × Node)) : List (Node × Node) :=
  branches.filterMap fun branch => branch.1.map (·, branch.2)

def defaultOf (branches : List (Option Node × Node)) : Option Node :=
  (branches.filter fun branch => branch.1.isNone).getLast?.map Prod.snd

mutual

/-- A tree stands for tokens but for those that are lost. -/
inductive Reads : List Token → Node → List Token → Prop where
  | form {n : Node} {own ts lost : List Token} {parts : List (List Token)}
      (simple : n.isSimple = true)
      (woven : Woven own parts ts) (inner : ReadsAll parts n.children lost)
        (words : wordsOf own = n.ownWords)
      (filled : ts ≠ []) : Reads ts n lost
  | grouped {n : Node} {ts lost : List Token} {l r : Token} (operand : n.isOperand = true)
      (inner : Reads ts n lost)
      (left : l.kind = .leftParen) (right : r.kind = .rightParen) : Reads (l :: (ts ++ [r])) n lost
  | block {statements : List Node} {ts lost : List Token} {l r : Token}
      (members : Members ts statements lost)
      (left : l.kind = .leftBrace) (right : r.kind = .rightBrace) :
        Reads (l :: (ts ++ [r])) (.block statements) lost
  | object {members : List Node} {ts lost : List Token} {l r : Token}
      (gathered : Gathers ts members lost)
      (left : l.kind = .leftBrace) (right : r.kind = .rightBrace) :
      Reads (l :: (ts ++ [r])) (.object (ofPairs (entriesOf members))) lost
  | switch {value : Node} {branches : List (Option Node × Node)} {us ts lost losts : List Token}
      {w l r : Token}
      (subject : Reads us value lost) (chosen : Chooses ts branches losts)
        (word : w.kind = .switchWord)
      (left : l.kind = .leftBrace) (right : r.kind = .rightBrace) :
      Reads (w :: (us ++ l :: (ts ++ [r]))) (.switch value (casesOf branches) (defaultOf branches))
        (lost ++ losts)

inductive ReadsAll : List (List Token) → List Node → List Token → Prop where
  | nil : ReadsAll [] [] []
  | cons {n : Node} {nodes : List Node} {ts lost losts : List Token} {parts : List (List Token)}
      (first : Reads ts n lost)
      (rest : ReadsAll parts nodes losts) : ReadsAll (ts :: parts) (n :: nodes) (lost ++ losts)

inductive Members : List Token → List Node → List Token → Prop where
  | noMember : Members [] [] []
  | member {n : Node} {nodes : List Node} {ts ts' us slip lost losts : List Token}
      (slipped : Slipped n ts ts' slip)
      (first : Reads ts' n lost) (rest : Members us nodes losts) :
        Members (ts ++ us) (n :: nodes) (slip ++ lost ++ losts)

/-- The members of an object. Of a named block the label goes; a member that makes no entry, or not
the last of its key, goes as a whole. -/
inductive Gathers : List Token → List Node → List Token → Prop where
  | noEntry : Gathers [] [] []
  | entry {n : Node} {nodes : List Node} {e : String × Node}
      {ts ts' us commas slip lost losts : List Token}
      (slipped : Slipped n ts ts' slip) (first : Reads ts' n lost) (unnamed : n.isNamed = false)
      (added : attribute? n = some e) (new : e.1 ∉ keys (entriesOf nodes))
        (signs : wordsOf commas = [])
      (rest : Gathers us nodes losts) :
        Gathers (ts ++ (commas ++ us)) (n :: nodes) (slip ++ lost ++ losts)
  | body {name : Token} {label : Option String} {n : Node} {nodes : List Node}
      {ts us bs own labels commas lost losts : List Token} (woven : Woven own [bs] ts)
      (words : own.filter isWord = name :: labels) (labelled : labels.map Token.text = label.toList)
      (first : Reads bs n lost) (new : name.text ∉ keys (entriesOf nodes))
        (signs : wordsOf commas = []) (rest : Gathers us nodes losts) :
      Gathers (ts ++ (commas ++ us)) (.named name.text label n :: nodes) (labels ++ lost ++ losts)
  | dropped {n : Node} {nodes : List Node} {ts ts' us commas slip lost losts : List Token}
      (slipped : Slipped n ts ts' slip) (first : Reads ts' n lost)
      (gone : ∀ e, attribute? n = some e → e.1 ∈ keys (entriesOf nodes))
        (signs : wordsOf commas = []) (rest : Gathers us nodes losts) :
      Gathers (ts ++ (commas ++ us)) (n :: nodes) (ts ++ losts)

/-- The branches of a switch. A default goes when there is a later one. -/
inductive Chooses : List Token → List (Option Node × Node) → List Token → Prop where
  | noBranch : Chooses [] [] []
  | case {value body : Node} {branches : List (Option Node × Node)}
      {us bs ts lost lost' losts : List Token} {w : Token}
      (word : w.kind = .caseWord) (first : Reads us value lost) (second : Reads bs body lost')
      (rest : Chooses ts branches losts) :
      Chooses (w :: (us ++ (bs ++ ts))) ((some value, body) :: branches) (lost ++ (lost' ++ losts))
  | default {body : Node} {branches : List (Option Node × Node)}
      {bs ts lost losts : List Token} {w : Token}
      (word : w.kind = .defaultWord) (first : Reads bs body lost) (last : defaultOf branches = none)
      (rest : Chooses ts branches losts) :
        Chooses (w :: (bs ++ ts)) ((none, body) :: branches) (lost ++ losts)
  | replaced {body : Node} {branches : List (Option Node × Node)}
      {bs ts lost losts : List Token} {w : Token}
      (word : w.kind = .defaultWord) (first : Reads bs body lost)
        (later : (defaultOf branches).isSome = true)
      (rest : Chooses ts branches losts) :
        Chooses (w :: (bs ++ ts)) ((none, body) :: branches) (bs ++ losts)

end

/-- The words among tokens are lost or have a property. -/
def Accounted (Q : String → Prop) (lost ts : List Token) : Prop :=
  ∀ t ∈ ts, isWord t = true → t ∈ lost ∨ Q t.text

variable {t : Token} {ts : List Token} {members : List Node} {word : String}
  {e : String × Node} {n : Node}

theorem mem_wordsOf (member : t ∈ ts) (word : isWord t = true) : t.text ∈ wordsOf ts :=
  mem_map_of_mem (mem_filter.mpr ⟨member, word⟩)

theorem not_word (h : t.kind = kind) (no : isWordKind kind = false) : isWord t = false := by
  rw [isWord, h, no]

theorem is_word (h : t.kind = kind) (yes : isWordKind kind = true) : isWord t = true := by
  rw [isWord, h, yes]

theorem wordsOf_append (ts us : List Token) : wordsOf (ts ++ us) = wordsOf ts ++ wordsOf us := by
  simp [wordsOf]

theorem wordsOf_sign (no : isWord t = false) (ts : List Token) : wordsOf (t :: ts) = wordsOf ts := by
  simp [wordsOf, no]

theorem wordsOf_word (yes : isWord t = true) (ts : List Token) :
    wordsOf (t :: ts) = t.text :: wordsOf ts := by
  simp [wordsOf, yes]

theorem Woven.mem (h : Woven own parts ts) (member : t ∈ ts) : t ∈ own ++ parts.flatten := by
  induction h with
  | nil => exact member
  | token u _ ih => grind
  | part us _ ih => grind

namespace Accounted

variable {Q Q' : String → Prop} {lost losts ts us : List Token}

theorem nil : Accounted Q lost [] := fun _ member => absurd member not_mem_nil

theorem whole : Accounted Q ts ts := fun _ member _ => .inl member

theorem said (words : ∀ word ∈ wordsOf ts, Q word) : Accounted Q [] ts :=
  fun _ member word => .inr (words _ (mem_wordsOf member word))

theorem mono (h : Accounted Q lost ts) (weaker : ∀ word, Q word → Q' word) : Accounted Q' lost ts :=
  fun t member word => (h t member word).imp_right (weaker _)

theorem append (h : Accounted Q lost ts) (h' : Accounted Q losts us) :
    Accounted Q (lost ++ losts) (ts ++ us) := by
  intro t member word
  rcases mem_append.mp member with here | there
  · exact (h t here word).imp_left (mem_append_left _)
  · exact (h' t there word).imp_left (mem_append_right _)

theorem signs (no : wordsOf us = []) (h : Accounted Q lost ts) : Accounted Q lost (us ++ ts) :=
  .append (.said fun _ listed => absurd (no ▸ listed) not_mem_nil) h

theorem sign {t : Token} (no : isWord t = false) (h : Accounted Q lost ts) :
    Accounted Q lost (t :: ts) :=
  .signs (wordsOf_sign no []) h

theorem between {l r : Token} (hl : isWord l = false) (hr : isWord r = false)
    (h : Accounted Q lost ts) :
    Accounted Q lost (l :: (ts ++ [r])) := by
  have last : Accounted Q [] [r] := .sign hr .nil
  exact .sign hl (by simpa using h.append last)

theorem slipped {n : Node} {slip : List Token} (h : Slipped n ts us slip)
    (rest : Accounted Q lost us) :
    Accounted Q (slip ++ lost) ts := by
  cases h with
  | none => exact rest
  | @key key text =>
    have first : Accounted Q [key] [key] := .whole
    exact first.append rest
  | @text key text =>
    obtain ⟨kept, later⟩ := forall_mem_cons.mp rest
    have second : Accounted Q [text] [text] := .whole
    exact forall_mem_cons.mpr ⟨fun word =>
      (kept word).imp_left (mem_append_right _), second.append later⟩

theorem woven (h : Woven own parts ts) (single : Accounted Q losts own)
    (inner : Accounted Q lost parts.flatten) : Accounted Q (losts ++ lost) ts :=
  fun t member => single.append inner t (h.mem member)

end Accounted

/-- An entry whose key no later one has. -/
def Surviving (e : String × Node) (entries : List (String × Node)) : Prop :=
  ∃ before after, entries = before ++ e :: after ∧ e.1 ∉ keys after

/-- A word occurs in an entry that an object keeps. -/
def Kept (members : List Node) (word : String) : Prop :=
  ∃ e, Surviving e (entriesOf members) ∧ (word = e.1 ∨ e.2.Says word)

theorem Kept.cons (n : Node) (h : Kept members word) : Kept (n :: members) word := by
  obtain ⟨e, ⟨before, after, split, new⟩, said⟩ := h
  refine ⟨e, ⟨entriesOf [n] ++ before, after, ?_, new⟩, said⟩
  rw [append_assoc, ← split]
  exact filterMap_append (l := [n])

theorem Kept.first (added : attribute? n = some e)
    (new : e.1 ∉ keys (entriesOf members))
    (said : word = e.1 ∨ e.2.Says word) : Kept (n :: members) word :=
  ⟨e, ⟨[], entriesOf members, filterMap_cons_some added, new⟩, said⟩

theorem Surviving.mem_ofPairs {entries : List (String × Node)} (h : Surviving e entries) :
    e ∈ ofPairs entries := by
  obtain ⟨before, after, rfl, new⟩ := h
  have written : ofPairs (before ++ e :: after) =
      update (Assoc.set (ofPairs before) e.1 e.2) after := by
    simp [ofPairs, update]
  have found : get? (ofPairs (before ++ e :: after)) e.1 = some e.2 := by
    rw [written, get?_update_of_notMem _ new, get?_set]
    simp
  exact mem_of_get? found

theorem says_of_kept (h : Kept members word) :
    (Node.object (ofPairs (entriesOf members))).Says word := by
  obtain ⟨e, surviving, said⟩ := h
  have kept := surviving.mem_ofPairs
  rcases said with rfl | said
  · exact Node.says_iff.mpr (.inl (mem_map_of_mem kept))
  · exact Node.says_iff.mpr (.inr ⟨e.2, mem_map_of_mem kept, said⟩)

theorem says_entry (added : attribute? n = some e) (unnamed : n.isNamed = false)
    (said : n.Says word) : word = e.1 ∨ e.2.Says word := by
  cases n with
  | keyValue key value =>
    cases added
    simpa [Node.says_iff (n := .keyValue key value), Node.ownWords, Node.children] using said
  | typed label typeName body =>
    cases added
    exact .inr said
  | named => cases unnamed
  | _ => cases added

def keptIn (branches : List (Option Node × Node)) : List Node :=
  (casesOf branches).flatMap (fun c => [c.1, c.2]) ++ (defaultOf branches).toList

theorem keptIn_case (value body : Node) (branches : List (Option Node × Node)) :
    keptIn ((some value, body) :: branches) = value :: body :: keptIn branches := rfl

theorem defaultOf_default (body : Node) (branches : List (Option Node × Node)) :
    defaultOf ((none, body) :: branches) = (defaultOf branches).or (some body) := by
  have listed : (((none : Option Node), body) :: branches).filter (fun branch => branch.1.isNone) =
      (none, body) :: branches.filter fun branch => branch.1.isNone := rfl
  rw [defaultOf, defaultOf, listed, getLast?_cons]
  cases (branches.filter fun branch => branch.1.isNone).getLast? <;> rfl

theorem keptIn_default (last : defaultOf branches = none) (body : Node) :
    keptIn ((none, body) :: branches) = keptIn branches ++ [body] := by
  simp [keptIn, defaultOf_default, last, casesOf]

theorem keptIn_replaced (later : (defaultOf branches).isSome = true)
    (body : Node) : keptIn ((none, body) :: branches) = keptIn branches := by
  obtain ⟨other, found⟩ := Option.isSome_iff_exists.mp later
  simp [keptIn, defaultOf_default, found, casesOf]

def SaidIn (nodes : List Node) (word : String) : Prop := ∃ n ∈ nodes, n.Says word

theorem SaidIn.mono {nodes nodes' : List Node} (h : nodes ⊆ nodes') (word : String) :
    SaidIn nodes word → SaidIn nodes' word := by
  rintro ⟨n, member, said⟩
  exact ⟨n, h member, said⟩

theorem SaidIn.of_mem {nodes : List Node} (member : n ∈ nodes) (word : String) :
    n.Says word → SaidIn nodes word :=
  fun said => ⟨n, member, said⟩

theorem says_of_children (word : String) (h : SaidIn n.children word) : n.Says word :=
  Node.says_iff.mpr (.inr h)

/-- Every word among the tokens of a tree is lost or occurs in it. -/
theorem Reads.accounted {lost : List Token} (h : Reads ts n lost) : Accounted n.Says lost ts := by
  induction h using Reads.rec
    (motive_2 := fun parts nodes lost _ => Accounted (SaidIn nodes) lost parts.flatten)
    (motive_3 := fun ts nodes lost _ => Accounted (SaidIn nodes) lost ts)
    (motive_4 := fun ts members lost _ => Accounted (Kept members) lost ts)
    (motive_5 := fun ts branches lost _ => Accounted (SaidIn (keptIn branches)) lost ts) with
  | form simple woven _ words _ ih =>
    have single : Accounted _ [] _ :=
      .said fun word listed => Node.says_iff.mpr (.inl (words ▸ listed))
    exact .woven woven single (ih.mono says_of_children)
  | grouped _ _ left right ih => exact .between (not_word left rfl) (not_word right rfl) ih
  | block _ left right ih =>
    exact .between (not_word left rfl) (not_word right rfl)
      (ih.mono (says_of_children (n := .block _)))
  | object _ left right ih =>
    exact .between (not_word left rfl) (not_word right rfl) (ih.mono fun _ => says_of_kept)
  | switch _ _ word left right ih ih' =>
    refine .sign (not_word word rfl) (.append (ih.mono fun word said => ?_) ?_)
    · exact says_of_children _ ⟨_, mem_cons_self, said⟩
    · refine .between (not_word left rfl) (not_word right rfl) (ih'.mono fun word said => ?_)
      exact says_of_children _ (said.mono (subset_cons_self ..))
  | nil => exact .nil
  | cons _ _ ih ih' =>
    exact .append (ih.mono (SaidIn.of_mem mem_cons_self))
      (ih'.mono (SaidIn.mono (subset_cons_self ..)))
  | noMember => exact .nil
  | member slipped _ _ ih ih' =>
    refine .append (.slipped slipped ?_) (ih'.mono (SaidIn.mono (subset_cons_self ..)))
    exact ih.mono (SaidIn.of_mem mem_cons_self)
  | noEntry => exact .nil
  | entry slipped _ unnamed added new signs _ ih ih' =>
    refine .append (.slipped slipped (ih.mono fun word said => ?_))
      (.signs signs (ih'.mono fun _ => Kept.cons _))
    exact Kept.first added new (says_entry added unnamed said)
  | @body name label n nodes ts us bs own labels commas lost losts woven words _ _ new
      signs _ ih ih' =>
    have added : attribute? (.named name.text label n) = some (name.text, n) := rfl
    have single : Accounted (Kept (.named name.text label n :: nodes)) labels own := by
      intro t member word
      have listed : t ∈ name :: labels := words ▸ mem_filter.mpr ⟨member, word⟩
      rcases mem_cons.mp listed with rfl | label
      · exact .inr (Kept.first added new (.inl rfl))
      · exact .inl label
    refine .append (.woven woven single ?_) (.signs signs (ih'.mono fun _ => Kept.cons _))
    rw [flatten_singleton]
    exact ih.mono fun word said => Kept.first added new (.inr said)
  | dropped _ _ _ signs _ _ ih' =>
    exact .append .whole (.signs signs (ih'.mono fun _ => Kept.cons _))
  | noBranch => exact .nil
  | case word _ _ _ ih ih' ih'' =>
    rw [keptIn_case]
    refine .sign (not_word word rfl) (.append (ih.mono (SaidIn.of_mem (by simp))) (.append ?_ ?_))
    · exact ih'.mono (SaidIn.of_mem (by simp))
    · exact ih''.mono (SaidIn.mono (by simp))
  | default word _ last _ ih ih' =>
    rw [keptIn_default last]
    exact .sign (not_word word rfl)
      (.append (ih.mono (SaidIn.of_mem (by simp))) (ih'.mono (SaidIn.mono (by simp))))
  | replaced word _ later _ _ ih' =>
    rw [keptIn_replaced later]
    exact .sign (not_word word rfl) (.append .whole ih')

end Parser

end Stratus
