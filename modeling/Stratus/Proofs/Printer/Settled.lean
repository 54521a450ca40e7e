import Stratus.Proofs.Printer.Indentation
import Stratus.Proofs.Settle.Nested

/-!
Resources of nested values that print: just those with no list and no null among their values whose
settled body is not too deep.
-/
namespace Stratus.Printer

open List hiding isEmpty_iff
open Effect

variable {α β : Type}

/-- A print that returns, from any state, just when a condition holds, and what it returns then. -/
structure Prints (c : Prop) (Q : α → Prop) (p : Print α) : Prop where
  returns : c → ∀ st, ∃ a st', Returns p st a st'
  only : ∀ st a st', Returns p st a st' → c ∧ Q a

namespace Prints

variable {c c' : Prop} {Q : α → Prop} {Q' : β → Prop} {p : Print α} {f : α → Print β}

theorem of_iff (same : c ↔ c') (h : Prints c Q p) : Prints c' Q p :=
  ⟨fun holds => h.returns (same.mpr holds), fun st a st' run =>
    (h.only st a st' run).imp_left same.mp⟩

theorem pure {a : α} (h : Q a) : Prints True Q (Pure.pure a : Print α) := by
  refine ⟨fun _ st => ⟨a, st, rfl⟩, fun st a' st' run => ?_⟩
  rw [(returns_pure_iff.mp run).1]
  exact ⟨trivial, h⟩

theorem throw (fault : Fault) : Prints False Q (MonadExcept.throw fault : Print α) :=
  ⟨False.elim, fun _ _ _ run => (returns_throw_iff.mp run).elim⟩

theorem get : Prints True (fun _ => True) (MonadState.get : Print State) :=
  ⟨fun _ st => ⟨st, st, rfl⟩, fun _ _ _ _ => ⟨trivial, trivial⟩⟩

theorem modify (g : State → State) : Prints True (fun _ => True) (modify g : Print PUnit) :=
  ⟨fun _ st => ⟨⟨⟩, g st, rfl⟩, fun _ _ _ _ => ⟨trivial, trivial⟩⟩

theorem bind (hp : Prints c Q p) (hf : ∀ a, Q a → Prints c' Q' (f a)) :
    Prints (c ∧ c') Q' (p >>= f) := by
  constructor
  · rintro ⟨holds, holds'⟩ st
    obtain ⟨a, m, first⟩ := hp.returns holds st
    obtain ⟨b, st', rest⟩ := (hf a (hp.only st a m first).2).returns holds' m
    exact ⟨b, st', returns_bind_iff.mpr ⟨a, m, first, rest⟩⟩
  · intro st b st' run
    obtain ⟨a, m, first, rest⟩ := returns_bind_iff.mp run
    obtain ⟨holds, here⟩ := hp.only st a m first
    obtain ⟨holds', there⟩ := (hf a here).only m b st' rest
    exact ⟨⟨holds, holds'⟩, there⟩

theorem after (hp : Prints True Q p) (hf : ∀ a, Q a → Prints c Q' (f a)) : Prints c Q' (p >>= f) :=
  .of_iff (iff_of_eq (true_and c)) (hp.bind hf)

theorem followed (hp : Prints c Q p) (hf : ∀ a, Q a → Prints True Q' (f a)) : Prints c Q' (p >>= f) :=
  .of_iff (iff_of_eq (and_true c)) (hp.bind hf)

theorem lift {x : Outcome α} {a : α} (value : x = .ok a) :
    Prints True (· = a) (liftM x : Print α) := by
  subst value
  exact pure rfl

theorem indentBy (n : Int) : Prints True (fun _ => True) (Printer.indentBy n) := modify _

theorem indentation : Prints True (fun _ => True) Printer.indentation :=
  get.after fun _ _ => pure trivial

theorem mapM {g : α → Print β} {c : α → Prop} {xs : List α}
    (hg : ∀ x ∈ xs, Prints (c x) (fun _ => True) (g x)) :
    Prints (∀ x ∈ xs, c x) (fun _ => True) (xs.mapM g) := by
  induction xs with
  | nil =>
    rw [mapM_nil]
    exact .of_iff (by simp) (pure trivial)
  | cons x xs ih =>
    obtain ⟨here, later⟩ := forall_mem_cons.mp hg
    rw [mapM_cons]
    exact .of_iff forall_mem_cons.symm
      (here.bind fun _ _ => (ih later).followed fun _ _ => pure trivial)

theorem forIn {g : α → β → Print (ForInStep β)} {c : α → Prop} {xs : List α}
    (hg : ∀ x ∈ xs, ∀ b, Prints (c x) (fun step => ∃ b, step = .yield b) (g x b)) (b : β) :
    Prints (∀ x ∈ xs, c x) (fun _ => True) (ForIn.forIn xs b g) := by
  induction xs generalizing b with
  | nil =>
    rw [forIn_nil]
    exact .of_iff (by simp) (pure trivial)
  | cons x xs ih =>
    obtain ⟨here, later⟩ := forall_mem_cons.mp hg
    rw [forIn_cons]
    refine .of_iff forall_mem_cons.symm ((here b).bind fun step turn => ?_)
    obtain ⟨b', rfl⟩ := turn
    exact ih later b'

end Prints

section Forms

variable {visit : Visit} (c : Node → Prop)

abbrev Texts (c : Prop) (p : Print Printed) : Prop := Prints c (fun shown => shown.isSome = true) p

theorem demand_prints (mem : String) {shown : Printed} (h : shown.isSome = true) :
    Prints True (fun _ => True) (demand mem shown) := by
  obtain ⟨text, rfl⟩ := Option.isSome_iff_exists.mp h
  exact .pure trivial

/-- The end of a form that goes back to the margin where it began. -/
theorem closing_texts (whole : String → String) :
    Texts True (do indentBy (-1); return some (whole (← indentation))) :=
  .after (.indentBy (-1)) fun _ _ => .after .indentation fun _ _ => .pure rfl

theorem object_texts {attributes : List (String × Node)}
    (each : ∀ e ∈ attributes, Texts (c e.2) (visit e.2)) :
    Texts (∀ e ∈ attributes, c e.2) (object visit attributes) := by
  unfold object
  split
  · next empty =>
      rw [List.isEmpty_iff] at empty
      exact .of_iff (by simp [empty]) (.pure rfl)
  · refine .after (.indentBy 1) fun _ _ => .followed (.mapM fun e mem => ?_) fun _ _ =>
      closing_texts _
    exact (each e mem).followed fun _ _ => .after .indentation fun _ _ => .pure trivial

variable {statements : List Node}

theorem memberLines_prints (each : ∀ s ∈ statements, Texts (c s) (visit s)) :
    Prints (∀ s ∈ statements, c s) (fun _ => True) (memberLines visit statements) := by
  induction statements with
  | nil => exact .of_iff (by simp) (.pure trivial)
  | cons first rest ih =>
    obtain ⟨here, later⟩ := forall_mem_cons.mp each
    refine .of_iff forall_mem_cons.symm (here.bind fun shown text => ?_)
    exact .after (demand_prints _ text) fun _ _ => .after .indentation fun _ _ =>
      (ih later).followed fun _ _ => .pure trivial

theorem mappingsText_prints : Prints True (fun _ => True) mappingsText :=
  .after (.indentBy 1) fun _ _ => .after .get fun _ _ => .after (.indentBy (-1)) fun _ _ =>
    .after .indentation fun _ _ => .pure trivial

theorem deployment_texts (label? : Option String)
    (plain : ∀ s ∈ statements, isMapping s = false) (each : ∀ s ∈ statements, Texts (c s) (visit s)) :
    Texts (∀ s ∈ statements, c s) (deployment visit label? (.block statements)) := by
  have unmapped : statements.filter (!isMapping ·) = statements := by simpa using plain
  have rest (mappings : String) :
      Texts (∀ s ∈ statements, c s) (deploymentRest visit label? statements mappings) := by
    rw [deploymentRest, unmapped]
    exact (memberLines_prints c each).followed fun _ _ => closing_texts _
  have silent : ∀ s ∈ statements, ∀ u : PUnit, Prints True (fun step => ∃ b, step = .yield b) (do
      if isMapping s = true then discard <| visit s
      return ForInStep.yield u : Print (ForInStep PUnit)) := by
    intro s mem u
    rw [plain s mem]
    exact .pure ⟨_, rfl⟩
  refine .after (.lift rfl) fun nodes same => ?_
  rw [same]
  refine .after (.of_iff (by simp) (.forIn silent ⟨⟩)) fun _ _ => .after (.indentBy 1) fun _ _ =>
    .after .get fun st _ => ?_
  dsimp only
  split
  · exact .after (Prints.pure (Q := fun _ => True) trivial) fun mappings _ => rest mappings
  · exact .after mappingsText_prints fun _ _ => .after .indentation fun _ _ =>
      .after (.modify _) fun _ _ =>
      .after (Prints.pure (Q := fun _ => True) trivial) fun mappings _ => rest mappings

theorem named_texts (name : String) (label? : Option String)
    (plain : ∀ s ∈ statements, isMapping s = false) (each : ∀ s ∈ statements, Texts (c s) (visit s)) :
    Texts (∀ s ∈ statements, c s) (named visit name label? (.block statements)) := by
  unfold named
  split
  · exact deployment_texts c label? plain each
  · refine .after (.indentBy 1) fun _ _ => .after (.lift rfl) fun nodes same => ?_
    rw [same]
    exact (memberLines_prints c each).followed fun _ _ => closing_texts _

theorem laid_prints (apart : Bool) (each : ∀ s ∈ statements, Texts (c s) (visit s)) (start : String) :
    Prints (∀ s ∈ statements, c s) (fun _ => True) (laid visit apart statements.zipIdx start) := by
  have turn : ∀ x ∈ statements.zipIdx, Texts (c x.1) (visit x.1) := fun x mem =>
    each x.1 (fst_mem_of_mem_zipIdx mem)
  have all : (∀ x ∈ statements.zipIdx, c x.1) ↔ ∀ s ∈ statements, c s := by
    rw [← forall_mem_map, zipIdx_map_fst]
  refine .of_iff all (.forIn (fun x mem result => (turn x mem).followed fun shown _ => ?_) start)
  · dsimp only
    split
    · split
      · exact .pure ⟨_, rfl⟩
      · exact .after .indentation fun _ _ => .pure ⟨_, rfl⟩
    · exact .pure ⟨_, rfl⟩

theorem block_texts (braces : Bool) (each : ∀ s ∈ statements, Texts (c s) (visit s)) :
    Texts (∀ s ∈ statements, c s) (block visit braces statements) := by
  by_cases empty : statements = []
  · subst empty
    exact .of_iff (by simp) (.pure rfl)
  · rw [block_eq _ _ empty]
    refine .after .get fun st _ => ?_
    split
    · exact .after (.indentBy 1) fun _ _ => (laid_prints c _ each _).followed fun _ _ =>
        closing_texts _
    · exact (laid_prints c _ each _).followed fun _ _ => .pure rfl

end Forms

variable {r : Registry}

theorem isMapping_of_printable {node : Node} (h : node.Printable) : isMapping node = false := by
  cases h <;> rfl

/-- A settled tree has a text just when the printer goes deeper than the tree. -/
theorem within_texts {node : Node} (printable : node.Printable) (depth : Nat) :
    Texts (node.steps < depth) (within r depth node) := by
  induction depth generalizing node with
  | zero => exact .of_iff (by simp) (.throw _)
  | succ depth ih =>
    cases printable with
    | literal d => exact .of_iff (by simp [Node.steps]) (.pure rfl)
    | object each =>
      refine .of_iff ?_ (object_texts (·.steps < depth) fun e mem => ih (each e mem))
      rw [Node.steps, Nat.lt_succ_iff, Node.stepsEntries_le_iff]
    | keyValue key inner =>
      refine .of_iff ?_ ((ih inner).followed fun _ _ => .pure rfl)
      rw [Node.steps, Nat.succ_lt_succ_iff]
    | named name label each =>
      refine .of_iff ?_ (named_texts (·.steps < depth) name label
        (fun s mem => isMapping_of_printable (each s mem)) fun s mem => ih (each s mem))
      rw [Node.steps, Node.steps, Nat.lt_succ_iff, Node.stepsAll_le_iff]
    | block each =>
      refine .of_iff ?_ (block_texts (·.steps < depth) true fun s mem => ih (each s mem))
      rw [Node.steps, Nat.lt_succ_iff, Node.stepsAll_le_iff]

section Resources

variable {statements : List Node} {kind name : String} {type : Data} {st : State}

theorem relaidBlock_texts {c : Prop} {visit : Visit} {body : Node} (header : String)
    (inner : Texts c (visit body)) :
    Texts c (relaidBlock visit header body) :=
  .after (.indentBy 1) fun _ _ => inner.followed fun _ text =>
    .after (demand_prints _ text) fun _ _ =>
    .after .get fun _ _ => .after (.indentBy (-1)) fun _ _ => .pure rfl

/-- A resource has a text just when its body settles to a tree that is not too deep. -/
theorem visit_resource_iff (content : ∀ s ∈ statements, s.Content) :
    (∃ text st', Returns (visit r (.resource kind name (.block statements) type)) st
      (some text) st') ↔
      ∃ settled, Settle.resourceBody r (.block statements) = .ok settled ∧
        settled.steps < maxDepth + (Node.block statements).height := by
  have texts {settled : Node} (run : Settle.resourceBody r (.block statements) = .ok settled) :=
    relaidBlock_texts (s!"resource {quoted kind} {quoted name} " ++ openBrace) (within_texts (r := r)
      (Settle.convertible_of_resourceBody content run).1 (maxDepth + (Node.block statements).height))
  have knot : visit r (.resource kind name (.block statements) type) =
      resource (within r (maxDepth + (Node.block statements).height)) r kind name
        (.block statements) := rfl
  rw [knot, resource]
  constructor
  · rintro ⟨text, st', run⟩
    obtain ⟨settled, m, lifted, rest⟩ := returns_bind_iff.mp run
    obtain ⟨settles, rfl⟩ := returns_lift_iff.mp lifted
    exact ⟨settled, settles, ((texts settles).only _ _ _ rest).1⟩
  · rintro ⟨settled, settles, shallow⟩
    obtain ⟨shown, st', rest⟩ := (texts settles).returns shallow st
    obtain ⟨text, rfl⟩ := Option.isSome_iff_exists.mp ((texts settles).only _ _ _ rest).2
    exact ⟨text, st', returns_bind_iff.mpr ⟨settled, st, returns_lift_iff.mpr ⟨settles, rfl⟩, rest⟩⟩

/-- A resource of nested values has a text just when there is no list and no null among them and its
settled body is not too deep. -/
theorem resource_prints_iff_convertible (content : ∀ s ∈ statements, s.Content) :
    ((∃ text st', Returns (visit r (.resource kind name (.block statements) type)) st
      (some text) st') ↔
      (Node.block statements).Throughout Node.Convertible ∧
        ∀ settled, Settle.resourceBody r (.block statements) = .ok settled →
          settled.steps < maxDepth + (Node.block statements).height) ∧
    ((Node.block statements).objects < maxDepth →
      ((∃ text st', Returns (visit r (.resource kind name (.block statements) type)) st
        (some text) st') ↔
        (Node.block statements).Throughout Node.Convertible)) := by
  rw [visit_resource_iff content]
  refine ⟨⟨?_, ?_⟩, fun few => ⟨?_, ?_⟩⟩
  · rintro ⟨settled, settles, shallow⟩
    refine ⟨(Settle.convertible_of_resourceBody content settles).2, fun other same => ?_⟩
    cases settles.symm.trans same
    exact shallow
  · rintro ⟨convertible, shallow⟩
    obtain ⟨settled, settles, -⟩ := Settle.exists_resourceBody (r := r) content convertible
    exact ⟨settled, settles, shallow settled settles⟩
  · rintro ⟨settled, settles, -⟩
    exact (Settle.convertible_of_resourceBody content settles).2
  · intro convertible
    obtain ⟨settled, settles, bound⟩ := Settle.exists_resourceBody (r := r) content convertible
    exact ⟨settled, settles, by omega⟩

/-- Objects in objects, and a name for one of them in a block of its own. -/
theorem resource_prints_nested :
    ∃ text st', Returns (visit [] (.resource "a" "b" (.block [
      .keyValue "x" (.object [("y", .object [("z", .literal (.int 1))])]),
      .named "deployment" none (.block [.keyValue "c" (.identifier "x")])]) .null)) {}
        (some text) st' := by
  have nested : (Node.object [("y", .object [("z", .literal (.int 1))])]).Nested :=
    .object (by decide) (forall_mem_singleton.mpr
      (.object (by decide) (forall_mem_singleton.mpr (.literal rfl))))
  have content : ∀ s ∈ [Node.keyValue "x" (.object [("y", .object [("z", .literal (.int 1))])]),
      .named "deployment" none (.block [.keyValue "c" (.identifier "x")])], s.Content :=
    forall_mem_cons.mpr ⟨.keyValue "x" nested, forall_mem_singleton.mpr
      (.named _ _ (forall_mem_singleton.mpr (.keyValue "c" (.identifier "x"))))⟩
  refine ((resource_prints_iff_convertible content).2 (by decide)).mpr
    (Node.throughout_iff.mpr ⟨trivial, ?_⟩)
  refine forall_mem_cons.mpr ⟨?_, forall_mem_singleton.mpr ?_⟩
  · exact .around trivial rfl (.around trivial rfl (.around trivial rfl (.leaf trivial rfl)))
  · exact .around trivial rfl (.around trivial rfl (.around trivial rfl (.leaf trivial rfl)))

/-- A resource with a list in it is read, and has no text. -/
theorem parsed_list_not_printed :
    Prod.fst <$> Parser.parse "resource \"a\" \"b\" \x7b x = [1] \x7d" =
      .ok (.block [.resource "a" "b" (.block [.keyValue "x" (.list [.literal (.int 1)])]) .null]) ∧
    ((visit [] (.resource "a" "b"
      (.block [.keyValue "x" (.list [.literal (.int 1)])]) .null)).run.run {}).1 =
      .error (.notAValue "<class 'transpiler.ast_nodes.ListNode'>") :=
  ⟨by cbv, rfl⟩

end Resources

end Stratus.Printer
