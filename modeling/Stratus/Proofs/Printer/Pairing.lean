import Stratus.Proofs.Effect.Together
import Stratus.Proofs.Parser.Shape
import Stratus.Proofs.Printer.Margin

/-!
Two prints of one tree side by side, at levels of indentation that stand for each other: alike texts
go into alike texts, and where one print fails the other does.
-/
namespace Stratus

namespace Node

/-- Forms that are written without a look at the margin. -/
def Inline : Node → Prop
  | keyValue .. | ternary .. | switch .. | assignment .. | expression .. | returns
      _ | range .. | literal _
  | identifier _ | call .. | access .. | typeDef .. => True
  | list elements => elements.all isAtom = true
  | object attributes => attributes = []
  | block statements => statements = []
  | _ => False

/-- Forms that neither collect mappings nor show them. -/
def Mapless : Node → Prop
  | mapsTo .. => False
  | named name .. => name ≠ "deployment"
  | _ => True

end Node

namespace Printer

open Effect List

variable {name : String} {node : Node} {elements : List Node} {G : Node → Prop}

def laid (visit : Visit) (apart : Bool) (numbered : List (Node × Nat)) (start : String) :
    Print String :=
  forIn numbered start fun x result => do
    let text := (← visit x.1).getD ""
    if text != "" then
      if apart then return .yield (result ++ (if x.2 > 0 then "\n\n" else "") ++ text)
      else return .yield (result ++ (← indentation) ++ text ++ "\n")
    else return .yield result

theorem block_eq (visit : Visit) (braces : Bool) {statements : List Node}
    (filled : statements ≠ []) :
    block visit braces statements = do
      let st ← get
      if (braces && !(st.indent == 0)) = true then do
        indentBy 1
        let result ← laid visit (st.indent == 0 && braces) statements.zipIdx openBrace
        indentBy (-1)
        let pad ← indentation
        return some (Text.stripEnd (result ++ pad ++ "\x7d"))
      else do
        let result ← laid visit (st.indent == 0 && braces) statements.zipIdx ""
        return some (Text.stripEnd result) := by
  unfold block
  rw [if_neg (by simp [filled])]
  congr 1
  funext st
  by_cases inner : (braces && !(st.indent == 0)) = true
  · simp only [inner, if_true]
    rfl
  · simp only [inner]
    rfl

variable {V W : Int → Int → Prop} {L : Assoc String → Assoc String → Prop} {i j : Int}

/-- The states of two prints, each at its level, with the same functions and with related mappings.
-/
structure Beside (L : Assoc String → Assoc String → Prop) (i j : Int) (s t : State) : Prop where
  left : s.indent = i
  right : t.indent = j
  functions : s.functions = t.functions
  mappings : L s.mappings t.mappings

/-- Levels that stand for each other: so do those below them, and only the outermost stands for
itself. -/
structure Levels (V : Int → Int → Prop) : Prop where
  deeper {i j : Int} (level : V i j) : V (i + 1) (j + 1)
  outermost {i j : Int} (level : V i j) : i = 0 ↔ j = 0

theorem Levels.same : Levels Eq where
  deeper := by
    rintro i _ rfl
    rfl
  outermost := by
    rintro i _ rfl
    rfl

/-- Both prints fail, or they show alike texts or nothing and leave their levels as they were. -/
abbrev Alongside (L : Assoc String → Assoc String → Prop) (W : Int → Int → Prop) (i j : Int)
    (p q : Print Printed) : Prop :=
  Together (Beside L i j) (Option.Rel (Like W)) (Beside L i j) p q

/-- The two prints of a tree agree at all levels that stand for each other. -/
def Paired (V W : Int → Int → Prop) (L : Assoc String → Assoc String → Prop) (visit visit' : Visit)
    (node : Node) : Prop :=
  ∀ i j, V i j → Alongside L W i j (visit node) (visit' node)

section Pieces

variable {α β : Type} {R : α → β → Prop} {Q : State → State → Prop} {p : Print α} {q : Print β}
  {shown shown' : List Printed}

theorem indented (h : Together (Beside L (i + 1) (j + 1)) R Q p q) :
    Together (Beside L i j) R Q (indentBy 1 >>= fun _ => p) (indentBy 1 >>= fun _ => q) := by
  refine (Together.modify fun s t beside => ?_).bind fun _ _ _ => h
  exact ⟨congrArg (· + 1) beside.left, congrArg (· + 1) beside.right, beside.functions,
    beside.mappings⟩

theorem outdented (h : Together (Beside L i j) R Q p q) :
    Together (Beside L (i + 1) (j + 1)) R Q (indentBy (-1) >>= fun _ => p)
      (indentBy (-1) >>= fun _ => q) := by
  refine (Together.modify fun s t beside => ?_).bind fun _ _ _ => h
  have left := beside.left
  have right := beside.right
  exact ⟨by dsimp only; omega, by dsimp only; omega, beside.functions, beside.mappings⟩

theorem margined {f : String → Print α} {g : String → Print β}
    (h : Together (Beside L i j) R Q (f (padding i)) (g (padding j))) :
    Together (Beside L i j) R Q (indentation >>= f) (indentation >>= g) := by
  have margins : Together (Beside L i j) (fun a b => a = padding i ∧ b = padding j)
      (Beside L i j) indentation indentation :=
    Together.get.bind fun _ _ beside => .pure ⟨by rw [beside.left], by rw [beside.right]⟩
  refine margins.bind fun pad pad' pads => ?_
  obtain ⟨rfl, rfl⟩ := pads
  exact h

theorem getD_like {shown shown' : Printed} (h : Option.Rel (Like W) shown shown') (none : String) :
    Like W (shown.getD none) (shown'.getD none) := by
  cases h with
  | none => exact .refl _
  | some like => exact like

theorem inline_like {shown shown' : Printed} (h : Option.Rel (Like W) shown shown') :
    Like W (inline shown) (inline shown') := getD_like h "None"

theorem demand_together (mem : String) {shown shown' : Printed}
    (h : Option.Rel (Like W) shown shown') :
    Together (Beside L i j) (Like W) (Beside L i j) (demand mem shown) (demand mem shown') := by
  cases h with
  | none => exact .throw _
  | some like => exact .pure like

theorem Like.intercalate {sep : String} {as bs : List String} (h : List.Forall₂ (Like W) as bs) :
    Like W (sep.intercalate as) (sep.intercalate bs) := by
  induction h with
  | nil => exact .refl _
  | cons first rest ih =>
    cases rest with
    | nil => simpa using first
    | cons second rest =>
      rw [String.intercalate_cons_cons, String.intercalate_cons_cons]
      exact (first.append (.refl sep)).append ih

/-- Texts that are taken out of alike prints: where one is missing, so is the other. -/
theorem mapM_like {f : Data × Nat → Outcome String} (text : ∀ s k, f (.str s, k) = .ok s)
    (h : List.Forall₂ (Option.Rel (Like W)) shown shown') (k : Nat) :
    (∃ as bs, ((shown.map Data.ofText?).zipIdx k).mapM f = .ok as ∧
      ((shown'.map Data.ofText?).zipIdx k).mapM f = .ok bs ∧ List.Forall₂ (Like W) as bs) ∨
    ∃ fault, ((shown.map Data.ofText?).zipIdx k).mapM f = .error fault ∧
      ((shown'.map Data.ofText?).zipIdx k).mapM f = .error fault := by
  induction h generalizing k with
  | nil => exact .inl ⟨[], [], rfl, rfl, .nil⟩
  | @cons first first' rest rest' same _ ih =>
    simp only [map_cons, zipIdx_cons, mapM_cons]
    have here : (∃ a b, f (Data.ofText? first, k) = .ok a ∧ f (Data.ofText? first', k) = .ok b ∧
      Like W a b) ∨
        ∃ fault, f (Data.ofText? first, k) = .error fault ∧
          f (Data.ofText? first', k) = .error fault := by
      cases same with
      | some like => exact .inl ⟨_, _, text _ k, text _ k, like⟩
      | none =>
        cases f (Data.ofText? none, k) with
        | ok a => exact .inl ⟨a, a, rfl, rfl, .refl a⟩
        | error fault => exact .inr ⟨fault, rfl, rfl⟩
    rcases here with ⟨a, b, left, right, like⟩ | ⟨fault, left, right⟩
    · rcases ih (k + 1) with ⟨as, bs, left', right', likes⟩ | ⟨fault, left', right'⟩
      · exact .inl ⟨a :: as, b :: bs, by rw [left, left']; rfl, by rw [right, right']; rfl,
          .cons like likes⟩
      · exact .inr ⟨fault, by rw [left, left']; rfl, by rw [right, right']; rfl⟩
    · exact .inr ⟨fault, by rw [left]; rfl, by rw [right]; rfl⟩

theorem joinPrints_together (sep : String) (h : List.Forall₂ (Option.Rel (Like W)) shown shown') :
    Together (Beside L i j) (Like W) (Beside L i j) (joinPrints sep shown)
      (joinPrints sep shown') := by
  obtain ⟨f, joined, text⟩ : ∃ f : Data × Nat → Outcome String,
      (∀ items, Data.joinTexts sep items = items.zipIdx.mapM f >>= fun parts =>
        .ok (sep.intercalate parts)) ∧
        ∀ s k, f (.str s, k) = .ok s := ⟨_, fun _ => rfl, fun _ _ => rfl⟩
  unfold joinPrints
  rw [joined, joined]
  refine .lift ?_
  rcases mapM_like text h 0 with ⟨as, bs, left, right, likes⟩ | ⟨fault, left, right⟩
  · exact .inl ⟨_, _, by rw [left]; rfl, by rw [right]; rfl, Like.intercalate likes⟩
  · exact .inr ⟨fault, by rw [left]; rfl, by rw [right]; rfl⟩

end Pieces

section Forms

variable {visit visit' : Visit} {r : Registry}

theorem Paired.all {nodes : List Node} (each : ∀ n ∈ nodes, Paired V W L visit visit' n)
    (level : V i j) :
    Together (Beside L i j) (List.Forall₂ (Option.Rel (Like W))) (Beside L i j) (nodes.mapM visit)
      (nodes.mapM visit') :=
  .mapM fun n mem => each n mem i j level

theorem Paired.around (h : Paired V W L visit visit' node) (level : V i j) {f : String → String}
    (like : ∀ a b, Like W a b → Like W (f a) (f b)) :
    Alongside L W i j (do return some (f (inline (← visit node))))
      (do return some (f (inline (← visit' node)))) :=
  (h i j level).bind fun _ _ same => .pure (.some (like _ _ (inline_like same)))

theorem call_along {callee : Node} {arguments : List Node} (hc : Paired V W L visit visit' callee)
    (ha : ∀ n ∈ arguments, Paired V W L visit visit' n) (level : V i j) :
    Alongside L W i j (call visit callee arguments) (call visit' callee arguments) := by
  have spelled : Alongside L W i j
      (do
        let name := inline (← visit callee)
        let texts ← joinPrints ", " (← arguments.mapM visit)
        return some s!"{name}({texts})")
      (do
        let name := inline (← visit' callee)
        let texts ← joinPrints ", " (← arguments.mapM visit')
        return some s!"{name}({texts})") :=
    (hc i j level).bind fun _ _ name => (Paired.all ha level).bind fun _ _ shown =>
      (joinPrints_together ", " shown).bind fun _ _ texts =>
        .pure (.some ((((inline_like name).append (.refl _)).append texts).append (.refl _)))
  refine Together.get.bind fun s t beside => ?_
  rw [beside.functions]
  dsimp only
  split
  · refine (Together.lift_same _).bind fun value? _ same => ?_
    rw [← same.1]
    cases value? with
    | none => exact spelled
    | some d => exact .pure (.some (.refl _))
  · rw [pure_bind, pure_bind]
    exact spelled

theorem switch_along {value : Node} {cases : List (Node × Node)} {otherwise : Option Node}
    (hv : Paired V W L visit visit' value)
    (hc : ∀ c ∈ cases, Paired V W L visit visit' c.1 ∧ Paired V W L visit visit' c.2)
    (ho : ∀ n ∈ otherwise, Paired V W L visit visit' n) (level : V i j) :
    Alongside L W i j (switch visit value cases otherwise)
      (switch visit' value cases otherwise) := by
  refine (hv i j level).bind fun subject subject' same => ?_
  refine (Together.mapM (R := Option.Rel (Like W)) fun c mem => ?_).bind
    fun branches branches' related => ?_
  · refine ((hc c mem).1 i j level).bind fun test test' sameTest => ?_
    refine ((hc c mem).2 i j level).bind fun body body' sameBody => .pure (.some ?_)
    exact ((((inline_like same).append (.refl _)).append (inline_like sameTest)).append
      (.refl _)).append
      (inline_like sameBody)
  · have finish {last last' : List Printed} (h : List.Forall₂ (Option.Rel (Like W)) last last') :
        Alongside L W i j (do return some (← joinPrints " : " (branches ++ last)))
          (do return some (← joinPrints " : " (branches' ++ last'))) :=
      (joinPrints_together _ (rel_append related h)).bind fun _ _ like => .pure (.some like)
    cases otherwise with
    | none => exact (Together.pure .nil).bind fun _ _ => finish
    | some body =>
      exact (ho body rfl i j level).bind fun _ _ same =>
        (Together.pure (.cons same .nil)).bind fun _ _ => finish

theorem typeDef_along {fields : List (String × TypeRef × Option Node)}
    (each : ∀ field ∈ fields, ∀ n ∈ field.2.2, Paired V W L visit visit' n) (level : V i j) :
    Alongside L W i j (typeDef visit name fields) (typeDef visit' name fields) := by
  refine (Together.mapM (R := Like W) fun field mem => ?_).bind fun lines lines' related =>
    .pure (.some ?_)
  · obtain ⟨field, type, initial⟩ := field
    cases initial with
    | none => exact (Together.pure rfl).bind fun shown shown' same => .pure (same ▸ .refl _)
    | some node =>
      refine (each _ mem node rfl i j level).bind fun text text' same => ?_
      refine (Together.pure ((Like.refl _).append (inline_like same))).bind
        fun shown shown' like => .pure ?_
      exact ((Like.refl _).append like).append (.refl _)
  · refine (Like.refl _).append ?_
    induction related with
    | nil => exact .refl _
    | cons first _ ih => simpa using first.append ih

theorem expression_along {left : Node} {operator : Option Token} {right : Option Node}
    (hl : Paired V W L visit visit' left) (hr : ∀ n ∈ right, Paired V W L visit visit' n)
    (level : V i j) :
    Alongside L W i j (expression visit left operator right)
      (expression visit' left operator right) := by
  cases operator with
  | none => exact hl i j level
  | some op =>
    cases right with
    | none => exact hl i j level
    | some right =>
      refine (hl i j level).bind fun a a' sameLeft =>
        (hr right rfl i j level).bind fun b b' sameRight => .pure (.some ?_)
      exact ((((inline_like sameLeft).append (.refl _)).append (.refl _)).append (.refl _)).append
        (inline_like sameRight)

theorem atoms_along (atoms : elements.all Node.isAtom = true)
    (each : ∀ n ∈ elements, Paired V W L visit visit' n) (level : V i j) :
    Alongside L W i j (list visit elements) (list visit' elements) := by
  unfold list
  split
  · exact .pure (.some (.refl _))
  · exact (Paired.all each level).bind fun _ _ shown =>
      (joinPrints_together _ shown).bind fun _ _ texts =>
      .pure (.some (((Like.refl _).append texts).append (.refl _)))

theorem step_inline (inline : node.Inline)
    (each : ∀ child ∈ node.children, Paired V W L visit visit' child) :
    Paired V W L (step r visit) (step r visit') node := by
  intro i j level
  cases node with
  | keyValue k value =>
    exact Paired.around (each value (by simp [Node.children])) level fun a b => (Like.refl _).append
  | assignment name value =>
    exact Paired.around (each value (by simp [Node.children])) level fun a b => (Like.refl _).append
  | returns value =>
    exact Paired.around (each value (by simp [Node.children])) level fun a b => (Like.refl _).append
  | access owner mem =>
    exact Paired.around (each owner (by simp [Node.children])) level fun a b like =>
      (like.append (.refl _)).append (.refl _)
  | ternary condition yes no =>
    refine (each condition (by simp [Node.children]) i j level).bind fun test test' sameTest =>
      (each yes (by simp [Node.children]) i j level).bind fun a a' sameYes =>
        (each no (by simp [Node.children]) i j level).bind fun b b' sameNo => .pure (.some ?_)
    exact ((((inline_like sameTest).append (.refl _)).append (inline_like sameYes)).append
      (.refl _)).append
      (inline_like sameNo)
  | switch value cases otherwise =>
    refine switch_along (each value (by simp [Node.children])) (fun c mem => ⟨each _ ?_, each _ ?_⟩)
      (fun n found => each n ?_) level
    · simpa [Node.children] using .inr (.inl ⟨c.1, c.2, mem, .inl rfl⟩)
    · simpa [Node.children] using .inr (.inl ⟨c.1, c.2, mem, .inr rfl⟩)
    · simpa [Node.children] using .inr (.inr found)
  | expression left operator right =>
    refine expression_along (each left (by simp [Node.children])) (fun n found => each n ?_) level
    simpa [Node.children] using .inr found
  | range callee arguments =>
    exact (Paired.all each level).bind fun _ _ shown =>
      (joinPrints_together _ shown).bind fun _ _ texts =>
      .pure (.some ((((Like.refl _).append (.refl _)).append texts).append (.refl _)))
  | literal value => exact .pure (.some (.refl _))
  | identifier name => exact .pure (.some (.refl _))
  | call callee arguments =>
    exact call_along (each callee mem_cons_self) (fun n mem => each n (mem_cons_of_mem _ mem)) level
  | typeDef silent name fields base =>
    exact typeDef_along (fun field mem n found =>
      each n (mem_filterMap.mpr ⟨field, mem, found⟩)) level
  | list elements => exact atoms_along inline each level
  | object attributes =>
    cases inline
    exact .pure (.some (.refl _))
  | block statements =>
    cases inline
    exact .pure (.some (.refl _))
  | _ => exact inline.elim

end Forms

section Margins

variable {visit visit' : Visit} (levels : Levels V)
  {numbered : List (Node × Nat)} {first first' : String} {head : Node}

include levels

variable {body : Node} {label? : Option String} {statements : List Node}

theorem relaidBlock_along {header header' : String} (first : Ended V header header')
    (hb : Paired V V L visit visit' body) (level : V i j) :
    Alongside L V i j (relaidBlock visit header body) (relaidBlock visit' header' body) := by
  have deeper := levels.deeper level
  refine indented <| (hb _ _ deeper).bind fun shown shown' same =>
    (demand_together _ same).bind fun text text' like =>
    Together.get.bind fun s t beside => outdented <| .pure (.some ?_)
  rw [beside.left, beside.right]
  exact (relaid_rows deeper like _ _ first).like.append (.refl _)

theorem typed_along {typeName : String} (hb : Paired V V L visit visit' body)
    (level : V i j) : Alongside L V i j (typed visit label? typeName body)
    (typed visit' label? typeName body) := by
  have first := Ended.brace (Like.refl (W := V) (s!"type = {typeName}{label label?}"))
  refine (hb i j level).bind fun shown shown' same =>
    indented <| Together.get.bind fun s t beside =>
    (demand_together _ same).bind fun text text' like => outdented <| .pure (.some ?_)
  rw [beside.left, beside.right]
  exact (relaid_rows (levels.deeper level) like _ _ first).like.append (.refl _)

omit levels in
theorem laid_rows (each : ∀ x ∈ numbered, Paired V V L visit visit' x.1) (level : V i j)
    (start : Ended V first first') :
    Together (Beside L i j) (Ended V) (Beside L i j) (laid visit false numbered first)
      (laid visit' false numbered first') := by
  refine Together.forIn (fun x mem result result' ended => ?_) start
  refine (each x mem i j level).bind fun shown shown' same => ?_
  have like := getD_like same ""
  by_cases empty : shown.getD "" = ""
  · simp only [bne_iff_ne, ne_eq, empty, like.eq_empty_iff.mp empty, not_true_eq_false, if_false]
    exact .pure ⟨_, _, rfl, rfl, ended⟩
  · simp only [bne_iff_ne, ne_eq, empty, mt like.eq_empty_iff.mpr empty, not_false_eq_true, if_true]
    refine margined <| .pure ⟨_, _, rfl, rfl, ?_⟩
    simpa [String.append_assoc] using Rows.row level like _ _ ended

omit levels in
theorem laid_apart (each : ∀ x ∈ numbered, Paired V V L visit visit' x.1) (level : V i j)
    (start : Like V first first') :
    Together (Beside L i j) (Like V) (Beside L i j) (laid visit true numbered first)
      (laid visit' true numbered first') := by
  refine Together.forIn (fun x mem result result' before => ?_) start
  refine (each x mem i j level).bind fun shown shown' same => ?_
  have like := getD_like same ""
  by_cases empty : shown.getD "" = ""
  · simp only [bne_iff_ne, ne_eq, empty, like.eq_empty_iff.mp empty, not_true_eq_false, if_false]
    exact .pure ⟨_, _, rfl, rfl, before⟩
  · simp only [bne_iff_ne, ne_eq, empty, mt like.eq_empty_iff.mpr empty, not_false_eq_true, if_true]
    exact .pure ⟨_, _, rfl, rfl, (before.append (.refl _)).append like⟩

theorem block_along (each : ∀ n ∈ statements, Paired V V L visit visit' n) (level : V i j) :
    Alongside L V i j (block visit true statements) (block visit' true statements) := by
  by_cases empty : statements = []
  · subst empty
    exact .pure (.some (.refl _))
  have numbered : ∀ x ∈ statements.zipIdx, Paired V V L visit visit' x.1 := fun x mem =>
    each x.1 (fst_mem_of_mem_zipIdx mem)
  rw [block_eq _ _ empty, block_eq _ _ empty]
  refine Together.get.bind fun s t beside => ?_
  have root : (s.indent == 0) = (t.indent == 0) := by
    rw [Bool.eq_iff_iff, beq_iff_eq, beq_iff_eq, beside.left, beside.right]
    exact levels.outermost level
  rw [root]
  cases t.indent == 0 with
  | true =>
    exact (laid_apart numbered level (.refl "")).bind fun result result' like =>
      .pure (.some like.stripEnd)
  | false =>
    refine indented <| (laid_rows numbered (levels.deeper level)
      (Ended.of_like (.refl "\x7b"))).bind
      fun result result' ended => outdented <| margined <| .pure (.some ?_)
    exact ((ended.margin level).append (.refl _)).stripEnd

omit levels in
theorem memberLines_along (each : ∀ n ∈ statements, Paired V V L visit visit' n) (level : V i j) :
    Together (Beside L i j) (Rows V) (Beside L i j) (memberLines visit statements)
      (memberLines visit' statements) := by
  induction statements with
  | nil => exact .pure .nil
  | cons statement rest ih =>
    obtain ⟨here, later⟩ := forall_mem_cons.mp each
    refine (here i j level).bind fun shown shown' same =>
      (demand_together _ same).bind fun text text' like =>
      margined <| (ih later).bind fun lines lines' rows => .pure (.append ?_ rows)
    by_cases blank : Text.strip text = ""
    · simp only [beq_iff_eq, blank, like.strip_eq_empty_iff.mp blank, if_true]
      exact .nil
    · simp only [beq_iff_eq, blank, mt like.strip_eq_empty_iff.mpr blank, if_false]
      exact .row level like

def deploymentRest (visit : Visit) (label? : Option String) (statements : List Node)
    (shown : String) : Print Printed := do
  let lines ← memberLines visit (statements.filter (!isMapping ·))
  indentBy (-1)
  return some (s!"deployment{label label?} \x7b\n" ++ shown ++ lines ++ (← indentation) ++ "\x7d")

omit levels in
theorem deploymentRest_along {shown shown' : String}
    (each : ∀ n ∈ statements, isMapping n = false → Paired V V L visit visit' n)
    (deeper : V (i + 1) (j + 1)) (close : ∀ lines lines', Rows V lines lines' →
      Like V (s!"deployment{label label?} \x7b\n" ++ shown ++ lines ++ padding i ++ "\x7d")
        (s!"deployment{label label?} \x7b\n" ++ shown' ++ lines' ++ padding j ++ "\x7d")) :
    Together (Beside L (i + 1) (j + 1)) (Option.Rel (Like V)) (Beside L i j)
      (deploymentRest visit label? statements shown)
      (deploymentRest visit' label? statements shown') := by
  refine (memberLines_along (fun n mem => each n (mem_of_mem_filter mem) ?_) deeper).bind
    fun lines lines' rows => outdented <| margined <| .pure (.some ?_)
  · simpa using (mem_filter.mp mem).2
  · exact close lines lines' rows

theorem named_along (other : name ≠ "deployment")
    (each : ∀ statements, body.statements = .ok statements → ∀ n ∈ statements,
      Paired V V L visit visit' n)
    (level : V i j) : Alongside L V i j (named visit name label? body)
    (named visit' name label? body) := by
  unfold named
  rw [if_neg (by simpa using other), if_neg (by simpa using other)]
  refine indented <| (Together.lift_same _).bind fun statements _ same => ?_
  obtain ⟨rfl, known⟩ := same
  refine (memberLines_along (each statements known) (levels.deeper level)).bind
    fun lines lines' rows =>
    outdented <| margined <| .pure (.some ?_)
  exact (Ended.brace (.refl (s!"{name}{label label?}"))).close rows level (.refl _)

theorem serviceBlock_along (hb : Paired V V L visit visit' body)
    (each : ∀ statements, body.statements = .ok statements → ∀ key value,
      .keyValue key value ∈ statements →
      Paired V V L visit visit' value) (level : V i j) :
    Alongside L V i j (serviceBlock visit (.applied head body))
      (serviceBlock visit' (.applied head body)) := by
  have first := Ended.opened (Like.refl (W := V) "service \"web_app\" ")
  refine (Together.lift_same _).bind fun carried carried' same => ?_
  obtain ⟨rfl, found⟩ := same
  cases found
  refine (Together.lift_same _).bind fun statements statements' same => ?_
  obtain ⟨rfl, known⟩ := same
  dsimp only
  split
  · next value found =>
      obtain ⟨statement, mem, shape⟩ := exists_of_findSome?_eq_some found
      have inside : .keyValue "name" value ∈ statements := by
        split at shape
        · cases shape
          exact mem
        · cases shape
      exact (each statements known _ _ inside i j level).discard.bind fun _ _ _ =>
        relaidBlock_along levels first hb level
  · exact relaidBlock_along levels first hb level

theorem applied_along (hh : Paired V V L visit visit' head) (hb : Paired V V L visit visit' body)
    (each : ∀ statements, body.statements = .ok statements → ∀ key value,
      .keyValue key value ∈ statements →
      Paired V V L visit visit' value) (level : V i j) :
    Alongside L V i j (applied visit head body) (applied visit' head body) := by
  unfold applied
  split
  · exact serviceBlock_along levels hb each level
  · exact (hh i j level).bind fun shown shown' same =>
      relaidBlock_along levels (.opened ((inline_like same).append (.refl _))) hb level

theorem forLoop_along {iterator : String} {iterable : Node}
    (hi : Paired V V L visit visit' iterable)
    (hb : Paired V V L visit visit' body) (level : V i j) :
    Alongside L V i j (forLoop visit iterator iterable body)
      (forLoop visit' iterator iterable body) := by
  have deeper := levels.deeper level
  refine (hi i j level).bind fun items items' sameItems => indented <| margined <|
    (hb _ _ deeper).bind fun content content' sameContent =>
      outdented <| margined <| .pure (.some ?_)
  have each : Rows V (padding (i + 1) ++ ("for_each = " ++ inline items) ++ "\n")
      (padding (j + 1) ++ ("for_each = " ++ inline items') ++ "\n") :=
    .row deeper ((Like.refl _).append (inline_like sameItems))
  have inside : Rows V (padding (i + 1) ++ ("content " ++ inline content) ++ "\n")
      (padding (j + 1) ++ ("content " ++ inline content') ++ "\n") :=
    .row deeper ((Like.refl _).append (inline_like sameContent))
  have closed := (Ended.brace (.refl ("dynamic " ++ quoted iterator))).close
    (each.append inside) level
    (.refl "\x7d")
  simpa [toString, String.append_assoc] using closed

omit levels in
theorem conditional_along {condition yes : Node} {no : Option Node}
    (hc : Paired V V L visit visit' condition)
    (hy : Paired V V L visit visit' yes) (hn : ∀ n ∈ no, Paired V V L visit visit' n)
    (level : V i j) :
    Alongside L V i j (conditional visit condition yes no)
      (conditional visit' condition yes no) := by
  refine (hc i j level).bind fun test test' sameTest =>
    (hy i j level).bind fun content content' sameContent => ?_
  have head (few : String) : Like V
      ("dynamic \"conditional\" \x7b\n  for_each = " ++ inline test ++ few ++ inline content)
      ("dynamic \"conditional\" \x7b\n  for_each = " ++ inline test' ++ few ++ inline content') :=
    (((Like.refl _).append (inline_like sameTest)).append (.refl few)).append
      (inline_like sameContent)
  cases no with
  | none =>
    dsimp only
    rw [pure_bind, pure_bind]
    refine margined <| .pure (.some ?_)
    have closed := (Ended.of_like (head " ? [1] : []\n  content ")).close .nil level (.refl "\x7d")
    simpa [toString, String.append_assoc] using closed
  | some no =>
    refine (hn no rfl i j level).bind fun other other' same => ?_
    rw [pure_bind, pure_bind]
    refine margined <| .pure (.some ?_)
    have last : Rows V ("  else " ++ inline other ++ "\n") ("  else " ++ inline other' ++ "\n") :=
      .line ((Like.refl _).append (inline_like same))
    have closed := (Ended.of_like (head " ? [1] : [0]\n  content ")).close last level (.refl "\x7d")
    simpa [toString, String.append_assoc] using closed

theorem function_along {params : List Param}
    (each : ∀ statements, body.statements = .ok statements → ∀ value, .returns value ∈ statements →
      Paired V V L visit visit' value) (level : V i j) :
    Alongside L V i j (function visit name params body) (function visit' name params body) := by
  have deeper := levels.deeper level
  have first : Ended V "locals \x7b\n" "locals \x7b\n" := Ended.brace (.refl "locals")
  refine (Together.modify (Q := Beside L i j) fun s t beside => ?_).bind fun _ _ _ => indented <|
    (Together.lift_same _).bind fun statements _ same => ?_
  · exact ⟨beside.left, beside.right, by dsimp only; rw [beside.functions], beside.mappings⟩
  obtain ⟨rfl, known⟩ := same
  refine (Together.mapM (R := Rows V) fun statement mem => ?_).bind fun lines lines' rows =>
    outdented <| .pure (.some ((Rows.join rows _ _ first).like.append (.refl _)))
  split
  · next value =>
      refine (each statements known value mem _ _ deeper).bind fun shown shown' same =>
        margined <| .pure ?_
      have row : Like V (name ++ " = " ++ inline shown) (name ++ " = " ++ inline shown') :=
        (Like.refl _).append (inline_like same)
      simpa [toString, String.append_assoc] using Rows.row deeper row
  · exact .pure .nil

theorem list_along (each : ∀ n ∈ elements, Paired V V L visit visit' n) (level : V i j) :
    Alongside L V i j (list visit elements) (list visit' elements) := by
  have deeper := levels.deeper level
  by_cases atoms : elements.all Node.isAtom = true
  · exact atoms_along atoms each level
  · unfold list
    split
    · exact .pure (.some (.refl _))
    · refine indented <| (Together.mapM
        (R := fun x y => ∀ s t, Ended V s t → Like V (s ++ x) (t ++ y)) fun n mem => ?_).bind
        fun lines lines' items => outdented <| margined <| .pure (.some ?_)
      · refine (each n mem _ _ deeper).bind fun shown shown' same =>
          margined <| .pure fun s t ended => ?_
        simpa [String.append_assoc] using (ended.margin deeper).append (inline_like same)
      · have closed := (Ended.of_like (.refl "[")).close (Rows.listed items) level (.refl "]")
        simpa [String.append_assoc] using closed

theorem object_along {attributes : List (String × Node)}
    (each : ∀ e ∈ attributes, Paired V V L visit visit' e.2)
    (level : V i j) : Alongside L V i j (object visit attributes) (object visit' attributes) := by
  have deeper := levels.deeper level
  unfold object
  split
  · exact .pure (.some (.refl _))
  · refine indented <| (Together.mapM (R := Rows V) fun e mem => ?_).bind fun lines lines' rows =>
      outdented <| margined <| .pure (.some ?_)
    · refine (each e mem _ _ deeper).bind fun shown shown' same => margined <| .pure ?_
      have row : Like V (key e.1 ++ " = " ++ inline shown) (key e.1 ++ " = " ++ inline shown') :=
        (Like.refl _).append (inline_like same)
      simpa [toString, String.append_assoc] using Rows.row deeper row
    · exact (Ended.of_like (.refl "\x7b")).close (.join rows) level (.refl _)

end Margins

/-! ### One form -/

/-- Trees whose parts are of their kind again, settled bodies too; the parts of mappings and of
deployment blocks are left open. -/
structure Hereditary (r : Registry) (G : Node → Prop) : Prop where
  child {n child : Node} (whole : G n) (mapless : n.Mapless) (mem : child ∈ n.children) : G child
  settled {body body' : Node} (whole : G body)
    (run : Settle.resourceBody r body = .ok body') : G body'

theorem Hereditary.statement {r : Registry} (here : Hereditary r G) {body : Node} (whole : G body)
    {statements : List Node} (known : body.statements = .ok statements) {n : Node}
    (mem : n ∈ statements) : G n := by
  cases body with
  | block inner =>
    cases known
    exact here.child whole trivial mem
  | _ => cases known

theorem step_paired {r : Registry} {visit visit' : Visit} (levels : Levels V)
    (here : Hereditary r G) (hv : ∀ n, G n → Paired V V L visit visit' n)
    (whole : G node) (mapless : node.Mapless) :
    Paired V V L (step r visit) (step r visit') node := by
  have each (child : Node) (mem : child ∈ node.children) : Paired V V L visit visit' child :=
    hv child (here.child whole mapless mem)
  intro i j level
  cases node with
  | block statements => exact block_along levels each level
  | typed label? typeName body => exact typed_along levels (each body mem_cons_self) level
  | resource kind name body typeInstance =>
    refine (Together.lift_same _).bind fun settled _ same => ?_
    obtain ⟨rfl, run⟩ := same
    have inside : G settled := here.settled (here.child whole mapless mem_cons_self) run
    exact relaidBlock_along levels (Ended.opened (.refl _)) (hv settled inside) level
  | forLoop iterator iterable body =>
    exact forLoop_along levels (each iterable (by simp [Node.children]))
      (each body (by simp [Node.children])) level
  | conditional condition yes no =>
    refine conditional_along (each condition (by simp [Node.children]))
      (each yes (by simp [Node.children]))
      (fun n found => each n ?_) level
    simpa [Node.children] using .inr (.inr found)
  | function name params result body =>
    refine function_along levels (fun statements known value mem => hv value ?_) level
    have returned : G (.returns value) :=
      here.statement (here.child whole mapless mem_cons_self) known mem
    exact here.child returned trivial mem_cons_self
  | list elements => exact list_along levels each level
  | object attributes =>
    exact object_along levels (fun e mem => each e.2 (mem_map_of_mem mem)) level
  | named name label? body =>
    exact named_along levels mapless (fun statements known n mem =>
      hv n (here.statement (here.child whole mapless mem_cons_self) known mem)) level
  | applied head body =>
    have body_here : G body := here.child whole mapless (by simp [Node.children])
    refine applied_along levels (each head (by simp [Node.children])) (hv body body_here)
      (fun statements known key value mem => hv value ?_) level
    exact here.child (here.statement body_here known mem) trivial mem_cons_self
  | raw name label? content =>
    refine margined <| .pure (.some ?_)
    have first : Like V (s!"{name}{label label?} \x7b\n{content}")
      (s!"{name}{label label?} \x7b\n{content}") := .refl _
    exact ((Ended.of_like first).margin level).append (.refl _)
  | mapsTo source target => exact mapless.elim
  | _ =>
    refine step_inline ?_ each i j level
    exact trivial

end Printer

end Stratus
