import Stratus.Proofs.Expand.NormalForm
import Stratus.Proofs.Printer.Indentation

/-!
Resources in the configuration text. Only the values of a resource's members are printed, so the
fields of its type are in the text just where the resource has them itself.
-/
namespace Stratus

open Effect Text Outcome

variable {members : List (String × Node)} {statements : List Node} {body : Node}
  {kind name : String} {type : Data}
  {tree : Node} {state : Parser.State} {depth : Nat}

/-- Literals that are no list or map, and identifiers. -/
def Node.Scalar : Node → Prop
  | literal d => d.hashable = true
  | identifier _ => True
  | _ => False

def Node.values (values : List (String × Data)) : List Node :=
  values.map fun e => .keyValue e.1 (.literal e.2)

namespace Settle

variable {r : Registry} {vars vars' : Vars}

theorem value_scalar {node : Node} {d : Data} (scalar : node.Scalar)
    (known : ∀ e ∈ vars, e.2.hashable = true)
    (run : (value r node).run vars = .ok (d, vars')) : d.hashable = true ∧ vars' = vars := by
  cases node with
  | literal value =>
    cases run
    refine ⟨?_, rfl⟩
    cases value <;> exact scalar
  | identifier name =>
    cases run
    refine ⟨?_, rfl⟩
    unfold Assoc.getD
    cases found : Assoc.get? vars name with
    | none => rfl
    | some d => exact known (name, d) (Assoc.mem_of_get? found)
  | _ => exact scalar.elim

theorem settled_scalar {key : String} {d : Data} (scalar : d.hashable = true)
    (run : (settled r key d).run vars = .ok (tree, vars')) :
    tree = .literal d ∧ vars' = Assoc.set vars key d := by
  cases d with
  | list items => cases scalar
  | map entries => cases scalar
  | null => cases run
  | _ =>
    cases run
    exact ⟨rfl, rfl⟩

/-- Members that are scalars keep their keys and get values that are scalars. -/
theorem statementsOf_pairs {nodes : List Node} (scalar : ∀ e ∈ members, e.2.Scalar)
    (known : ∀ e ∈ vars, e.2.hashable = true)
    (run : (statementsOf r (members.map fun e => .keyValue e.1 e.2)).run vars = .ok (nodes, vars')) :
    ∃ values : List (String × Data), nodes = Node.values values ∧
      values.map Prod.fst = members.map Prod.fst ∧ ∀ e ∈ values, e.2.hashable = true := by
  induction members generalizing vars nodes with
  | nil =>
    cases run
    exact ⟨[], rfl, rfl, by simp⟩
  | cons e members ih =>
    obtain ⟨key, node⟩ := e
    simp only [List.map_cons, statementsOf, StateT.run_bind, StateT.run_pure] at run
    obtain ⟨⟨d, vars₁⟩, evaluated, later⟩ := bind_eq_ok run
    obtain ⟨⟨tree, vars₂⟩, settles, last⟩ := bind_eq_ok later
    obtain ⟨⟨rest, vars₃⟩, others, whole⟩ := bind_eq_ok last
    obtain ⟨hashable, rfl⟩ := value_scalar (scalar _ List.mem_cons_self) known evaluated
    obtain ⟨rfl, rfl⟩ := settled_scalar hashable settles
    cases whole
    -- the variables stay scalars, so no later identifier can stand for an object
    have known' : ∀ e ∈ Assoc.set vars₁ key d, e.2.hashable = true := by
      intro e mem
      rcases Assoc.mem_of_mem_set mem with mem | rfl
      · exact known e mem
      · exact hashable
    obtain ⟨values, rfl, keys, plain⟩ :=
      ih (fun e mem => scalar e (List.mem_cons_of_mem _ mem)) known' others
    refine ⟨(key, d) :: values, rfl, ?_, ?_⟩
    · rw [List.map_cons, keys, List.map_cons]
    · intro e mem
      rcases List.mem_cons.mp mem with rfl | mem
      · exact hashable
      · exact plain e mem

theorem resourceBody_pairs (scalar : ∀ e ∈ members, e.2.Scalar)
    (run : resourceBody r (Expand.ofPairs members) = .ok body) :
    ∃ values : List (String × Data), body = .block (Node.values values) ∧
      values.map Prod.fst = members.map Prod.fst ∧ ∀ e ∈ values, e.2.hashable = true := by
  simp only [resourceBody, Expand.ofPairs, Settle.body, StateT.run_bind, StateT.run_pure] at run
  obtain ⟨⟨node, vars⟩, inside, last⟩ := bind_eq_ok run
  obtain ⟨⟨nodes, vars'⟩, members, whole⟩ := bind_eq_ok inside
  cases whole
  cases last
  obtain ⟨values, rfl, keys, plain⟩ := statementsOf_pairs scalar (by simp) members
  exact ⟨values, rfl, keys, plain⟩

end Settle

namespace Printer

variable {r : Registry} {st : State} {p : Printed}

theorem within_value (depth : Nat) (e : String × Data) :
    Returns (within r (depth + 2) (.keyValue e.1 (.literal e.2))) st (some (memberText e)) st := rfl

def State.deeper (st : State) : State := { st with indent := st.indent + 1 }

theorem indentBy_one : Returns (indentBy 1) st () st.deeper := rfl

theorem indentBy_back : Returns (indentBy (-1)) st.deeper () st := by
  refine returns_modify_iff.mpr ?_
  simp [State.deeper]

variable {st' : State} {visit : Visit}

theorem laid_cons {x : Node × Nat} {rest : List (Node × Nat)} {text start result : String}
    (shown : Returns (visit x.1) st (some text) st) (filled : text ≠ "")
    (later : Returns (laid visit false rest (start ++ padding st.indent ++ text ++ "\n")) st
      result st') :
    Returns (laid visit false (x :: rest) start) st result st' := by
  have first : Returns (do
      let text := (← visit x.1).getD ""
      if text != "" then
        if false then return .yield (start ++ (if x.2 > 0 then "\n\n" else "") ++ text)
        else return .yield (start ++ (← indentation) ++ text ++ "\n")
      else return .yield start : Print (ForInStep String)) st
        (.yield (start ++ padding st.indent ++ text ++ "\n")) st := by
    refine returns_bind_iff.mpr ⟨some text, st, shown, ?_⟩
    simp [filled, indentation]
  unfold laid
  rw [List.forIn_cons]
  exact returns_bind_iff.mpr ⟨_, st, first, later⟩

theorem laid_values (depth : Nat) (values : List (String × Data)) (index : Nat) (start : String) :
    Returns (laid (within r (depth + 2)) false ((Node.values values).zipIdx index) start) st
      (start ++ bodyText st.indent values) st := by
  induction values generalizing index start with
  | nil => simp [laid, Node.values, bodyText, bodyLines]
  | cons e values ih =>
    have filled : memberText e ≠ "" := by simp [memberText]
    have whole : start ++ bodyText st.indent (e :: values) =
        start ++ padding st.indent ++ memberText e ++ "\n" ++ bodyText st.indent values := by
      simp [bodyText, bodyLines, String.append_assoc]
    rw [whole]
    exact laid_cons (within_value depth e) filled (ih (index + 1) _)

theorem block_values (st : State) (depth : Nat) {values : List (String × Data)}
    (lined : ∀ e ∈ values, IsLine (memberText e)) (inside : st.indent ≠ 0) :
    ∃ text, Returns (within r (depth + 3) (.block (Node.values values))) st (some text) st ∧
      ∀ level, relaid level text = bodyText level values := by
  by_cases empty : values = []
  · subst empty
    exact ⟨"\x7b\x7d", rfl, fun level => rfl⟩
  · refine ⟨openBrace ++ bodyText (st.indent + 1) values ++ padding st.indent ++ "\x7d", ?_,
      fun level => relaid_bodyText lined level _ _⟩
    have filled : Node.values values ≠ [] := by simpa [Node.values] using empty
    have brace : Tight "\x7d" := (Word.isLine ⟨solid_of_all rfl, by decide⟩).toTight
    have apart : (st.indent == 0 && true) = false := by simp [inside]
    have result : stripEnd (openBrace ++ bodyText (st.indent + 1) values ++
      padding st.indent ++ "\x7d") =
        openBrace ++ bodyText (st.indent + 1) values ++ padding st.indent ++ "\x7d" :=
          stripEnd_append brace _
    rw [within, step, block_eq _ _ filled]
    refine returns_bind_iff.mpr ⟨st, st, rfl, ?_⟩
    rw [if_pos (by simp [inside]), apart]
    simp only [returns_bind_iff, returns_pure_iff]
    exact ⟨(), st.deeper, indentBy_one, _, st.deeper, laid_values depth values 0 openBrace, (), st,
      indentBy_back, _, st, rfl, congrArg some result.symm, rfl⟩

theorem relaidBlock_returns {text : String} (header : String)
    (shown : Returns (visit body) st.deeper (some text) st.deeper) :
    Returns (relaidBlock visit header body) st
      (some (header ++ relaid (st.indent + 1) text ++ "\x7d")) st := by
  simp only [relaidBlock, returns_bind_iff, returns_pure_iff]
  exact ⟨(), st.deeper, indentBy_one, some text, st.deeper, shown, text, st.deeper, rfl, st.deeper,
    st.deeper, rfl, (), st, indentBy_back, rfl, rfl⟩

def header (kind name : String) : String :=
  "resource " ++ quoted kind ++ " " ++ quoted name ++ " " ++ openBrace

/-- A resource at the margin shows its values, settled, and nothing else. -/
theorem within_resource (plain : ∀ e ∈ members, Legible e.1 ∧ e.2.Scalar) (margin : st.indent = 0)
    (run : Returns (within r (depth + 4)
      (.resource kind name (Expand.ofPairs members) type)) st p st') :
    ∃ values : List (String × Data), p = some (header kind name ++ bodyText 1 values ++ "\x7d") ∧
      values.map Prod.fst = members.map Prod.fst ∧ ∀ e ∈ values, Legible e.1 ∧
        IsLine (memberText e) := by
  obtain ⟨body, m, lifted, rest⟩ := returns_bind_iff.mp run
  obtain ⟨settled, rfl⟩ := returns_lift_iff.mp lifted
  obtain ⟨values, rfl, keys, scalar⟩ :=
    Settle.resourceBody_pairs (fun e mem => (plain e mem).2) settled
  have legible : ∀ e ∈ values, Legible e.1 := by
    intro e mem
    have key : e.1 ∈ members.map Prod.fst := keys ▸ List.mem_map_of_mem mem
    obtain ⟨e', member', same⟩ := List.mem_map.mp key
    exact same ▸ (plain e' member').1
  have lined : ∀ e ∈ values, IsLine (memberText e) := fun e mem =>
    (isLine_key (legible e mem)).append (isLine_literal (scalar e mem)) (by decide)
  obtain ⟨text, shown, lines⟩ :=
    block_values (r := r) m.deeper depth lined (by simp [State.deeper, margin])
  refine ⟨values, ?_, keys, fun e mem => ⟨legible e mem, lined e mem⟩⟩
  rw [((relaidBlock_returns _ shown).unique rest).1, margin, lines]
  rfl

theorem tight_resource (kind name body : String) : Tight (header kind name ++ body ++ "\x7d") := by
  have first : Tight "resource" := (Word.isLine ⟨solid_of_all rfl, by decide⟩).toTight
  have last : Tight "\x7d" := (Word.isLine ⟨solid_of_all rfl, by decide⟩).toTight
  have whole : header kind name ++ body ++ "\x7d" =
      "resource" ++ (" " ++ quoted kind ++ " " ++ quoted name ++ " " ++ openBrace ++ body) ++
        "\x7d" := by
    apply String.toList_inj.mp
    simp [header, String.toList_append]
  rw [whole]
  exact first.append last _

theorem mapM_reaches {α β : Type} {g : α → Print β}
    (hg : ∀ a st b st', Returns (g a) st b st' → st'.indent = st.indent) {xs : List α} {ys : List β}
    (run : Returns (xs.mapM g) st ys st') {x : α} (mem : x ∈ xs) :
    ∃ m y m' before after, Returns (g x) m y m' ∧ m.indent = st.indent ∧
      ys = before ++ y :: after := by
  induction xs generalizing st ys with
  | nil => cases mem
  | cons first xs ih =>
    rw [List.mapM_cons] at run
    obtain ⟨y, m, here, later⟩ := returns_bind_iff.mp run
    obtain ⟨rest, m', others, last⟩ := returns_bind_iff.mp later
    obtain ⟨rfl, rfl⟩ := returns_pure_iff.mp last
    rcases List.mem_cons.mp mem with rfl | mem
    · exact ⟨st, y, m, [], rest, here, rfl, rfl⟩
    · obtain ⟨n, z, n', before, after, there, margin, rfl⟩ := ih others mem
      refine ⟨n, z, n', y :: before, after, there, ?_, rfl⟩
      rw [margin, hg first st y m here]

theorem program_reaches (mem : .resource kind name body type ∈ statements)
    (run : Returns (program (Printer.visit r) statements) st p st') :
    ∃ m shown m', Returns (Printer.visit r (.resource kind name body type)) m shown m' ∧
      m.indent = st.indent ∧
      ∀ text ≠ "", shown = some text → ∃ before after,
        p = some (Text.strip (before ++ text ++ after)) := by
  obtain ⟨texts, m, each, last⟩ := returns_bind_iff.mp run
  obtain ⟨rfl, rfl⟩ := returns_pure_iff.mp last
  obtain ⟨⟨node, index⟩, numbered, rfl⟩ :=
    List.mem_map.mp ((List.zipIdx_map_fst 0 statements).symm ▸ mem)
  -- every line before the resource's own leaves the margin, whatever it prints
  have reached := mapM_reaches (fun x st text st' run => by
    obtain ⟨statement, index⟩ := x
    dsimp only at run
    split at run
    · rw [(returns_pure_iff.mp run).2]
    · obtain ⟨shown, m, visited, last⟩ := returns_bind_iff.mp run
      rw [(returns_pure_iff.mp last).2, indent_eq_of_within visited]) each numbered
  obtain ⟨m, line, m', before, after, here, margin, rfl⟩ := reached
  obtain ⟨shown, m'', visited, written⟩ := returns_bind_iff.mp here
  refine ⟨m, shown, m'', visited, margin, ?_⟩
  rintro text filled rfl
  refine ⟨String.join before ++ (if index > 0 then "\n" else ""), String.join after, ?_⟩
  have line_eq : line = (if index > 0 then "\n" else "") ++ text := by
    rw [(returns_pure_iff.mp written).1, Option.getD_some, if_neg (by simpa using filled)]
    split <;> simp
  simp [line_eq, String.append_assoc]

end Printer

theorem Expand.within_resource {r : Registry}
    (run : within r (depth + 2) (.block statements) = .ok tree)
    (mem : .resource kind name body type ∈ statements) :
    ∃ expanded, tree = .block expanded ∧ .resource kind name body type ∈ expanded := by
  obtain ⟨expanded, each, shape⟩ := block_eq_ok_iff.mp run
  obtain ⟨node, there, same⟩ := exists_mem_of_mapM each mem
  cases same
  rcases shape with ⟨pairs, _, found, _⟩ | ⟨_, rfl⟩
  · -- a block that has a resource is no list of pairs
    rw [pairs?_eq_some_iff, ofPairs, Node.block.injEq] at found
    simp [found] at there
  · exact ⟨expanded, rfl, there⟩

open Printer

theorem configurationText_eq_ok {source out : String}
    (parsed : Parser.parse source = .ok (tree, state))
    (printed : configurationText source = .ok out) :
    ∃ expanded p st, tree.expand state.registry = .ok expanded ∧
      Returns (Printer.print state.registry expanded) {} p st ∧ out = Printer.inline p := by
  rw [configurationText, parsed] at printed
  obtain ⟨⟨_, _⟩, same, rest⟩ := bind_eq_ok printed
  cases same
  obtain ⟨expanded, expands, shown⟩ := bind_eq_ok rest
  obtain ⟨p, prints, last⟩ := bind_eq_ok shown
  cases last
  exact ⟨expanded, p, _, expands, Prod.ext prints rfl, rfl⟩

/-- The text of a description has every resource of values in it, with a line for each of its
members. -/
theorem configurationText_resource {source out kind name : String}
    (parsed : Parser.parse source = .ok (.block statements, state))
    (printed : configurationText source = .ok out)
    (mem : .resource kind name (Expand.ofPairs members) type ∈ statements)
    (plain : ∀ e ∈ members, Legible e.1 ∧ e.2.Scalar) :
    ∃ before values after, out = before ++
      (header kind name ++ bodyText 1 values ++ "\x7d") ++ after ∧
      values.map Prod.fst = members.map Prod.fst ∧
      ∀ e ∈ values, Legible e.1 ∧ IsLine (memberText e) := by
  obtain ⟨tree, p, st, expands, prints, rfl⟩ := configurationText_eq_ok parsed printed
  obtain ⟨expanded, rfl, kept⟩ := Expand.within_resource expands mem
  obtain ⟨m, shown, m', visited, margin, stands⟩ := program_reaches kept prints
  -- the knot is deep enough for the resource, its block, a member and the value
  obtain ⟨depth, deep⟩ : ∃ depth, Printer.maxDepth +
      (Node.resource kind name (Expand.ofPairs members) type).height = depth + 4 := by
    apply Nat.exists_eq_add_of_le'
    exact Nat.le_trans (by decide) (Nat.le_add_right _ _)
  rw [Printer.visit, deep] at visited
  obtain ⟨values, rfl, keys, lined⟩ := Printer.within_resource plain margin visited
  have tight := tight_resource kind name (bodyText 1 values)
  obtain ⟨before, after, rfl⟩ := stands _ tight.ne_empty rfl
  exact ⟨_, values, _, strip_around tight before after, keys, lined⟩

/-- Fields whose values an instance may leave to its type. -/
def Field.supplied (f : Field) : Bool := !f.initial.isAbsent || f.calculated.isSome

/-- The fields that a type supplies, along its bases, all have the property. -/
def Registry.Supplied (r : Registry) (typeName : String) (P : String → Prop) : Prop :=
  ∃ fields, r.allFields typeName = .ok fields ∧ ∀ e ∈ fields, e.2.supplied = true → P e.1

/-- The lines of a resource give the fields that it gives itself, so all fields that its type
supplies are there just where the resource has them. -/
theorem configurationText_completes_iff {source out kind name typeName : String}
    {statements : List Node} {state : Parser.State} {members : List (String × Node)} {type : Data}
    (parsed : Parser.parse source = .ok (.block statements, state))
    (printed : configurationText source = .ok out)
    (mem : .resource kind name (Expand.ofPairs members) type ∈ statements)
    (plain : ∀ e ∈ members, Legible e.1 ∧ e.2.Scalar)
    (typed : ("type", .identifier typeName) ∈ members)
    (legible : ∀ fields, state.registry.allFields typeName = .ok fields → ∀ e ∈ fields, Legible e.1) :
    ∃ before values after, out = before ++
      (header kind name ++ bodyText 1 values ++ "\x7d") ++ after ∧
      values.map Prod.fst = members.map Prod.fst ∧
      (state.registry.Supplied typeName (Assigns (bodyText 1 values)) ↔
        state.registry.Supplied typeName (· ∈ members.map Prod.fst)) ∧
      Assigns (bodyText 1 values) "type" := by
  obtain ⟨before, values, after, whole, keys, lined⟩ :=
    configurationText_resource parsed printed mem plain
  have given {field : String} (legible : Legible field) :
      Assigns (bodyText 1 values) field ↔ field ∈ members.map Prod.fst := by
    rw [← keys]
    exact assigns_bodyText_iff (fun e mem => (lined e mem).2) (fun e mem => (lined e mem).1) legible
  refine ⟨before, values, after, whole, keys, ?_, ?_⟩
  · refine exists_congr fun fields => and_congr_right fun declared => forall₂_congr fun e mem => ?_
    exact imp_congr_right fun _ => given (legible fields declared e mem)
  · exact (given (plain _ typed).1).mpr (List.mem_map_of_mem typed)

def Sample.registry : Registry := [("A", ⟨"A", [
  ("x", {
    constraint := ⟨.declared ⟨"any", false, []⟩, false⟩
    initial := .computed (.literal (.int 1)) })], none⟩)]

set_option maxRecDepth 20000 in
/-- The field is in the text where the resource gives it. -/
theorem configurationText_completes_given : ∃ before values after,
    configurationText "type A \x7b x: any = 1 \x7d resource \"a\" \"b\" \x7b type = A x = 2 \x7d" =
      .ok (before ++ (header "a" "b" ++ bodyText 1 values ++ "\x7d") ++ after) ∧
    Sample.registry.Supplied "A" (Assigns (bodyText 1 values)) := by
  have read : (fun x => (x.1, x.2.registry)) <$>
      Parser.parse "type A \x7b x: any = 1 \x7d resource \"a\" \"b\" \x7b type = A x = 2 \x7d" =
        .ok (.block [
        .typeDef false "A" [("x", { name := "any" }, some (.literal (.int 1)))] none,
        .resource "a" "b" (Expand.ofPairs [("type", .identifier "A"), ("x", .literal (.int 2))])
          (.str "A")],
      Sample.registry) := by
    cbv
  obtain ⟨⟨tree, state⟩, parsed, same⟩ := map_eq_ok read
  obtain ⟨rfl, registered⟩ := Prod.mk.inj same
  dsimp only at registered
  have printed :
      configurationText "type A \x7b x: any = 1 \x7d resource \"a\" \"b\" \x7b type = A x = 2 \x7d" =
        .ok "# Type A definition\n#   x: any = 1\n\nresource \"a\" \"b\" \x7b\n  type = \"A\"\n  x = 2\n\x7d" := by
    rw [configurationText, parsed, bind_eq_ok_iff]
    refine ⟨_, rfl, ?_⟩
    dsimp only
    rw [registered]
    cbv
  have plain : ∀ e ∈ [("type", Node.identifier "A"), ("x", .literal (.int 2))], Legible e.1 ∧
      e.2.Scalar := by
    simp [Legible, Node.Scalar, Data.hashable]
  have legible : ∀ fields, state.registry.allFields "A" = .ok fields → ∀ e ∈ fields, Legible e.1 := by
    intro fields declared
    rw [registered] at declared
    cases declared
    simp [Legible]
  obtain ⟨before, values, after, whole, -, completes, -⟩ :=
    configurationText_completes_iff parsed printed
    (List.mem_cons_of_mem _ List.mem_cons_self) plain List.mem_cons_self legible
  rw [registered] at completes
  refine ⟨before, values, after, whole ▸ printed, completes.mpr ⟨_, rfl, ?_⟩⟩
  simp

set_option maxRecDepth 20000 in
/-- Without the field the default is not there, and the type is. -/
theorem configurationText_leaves_default_out :
    configurationText "type A \x7b x: any = 1 \x7d resource \"a\" \"b\" \x7b type = A \x7d" =
      .ok "# Type A definition\n#   x: any = 1\n\nresource \"a\" \"b\" \x7b\n  type = \"A\"\n\x7d" := by
  cbv

end Stratus
