import Stratus.Proofs.Printer.Pairing
import Stratus.Proofs.Settle.Outline

/-!
The mappings of deployment blocks. All mappings go to one place, and the next deployment block shows
what it finds there; `scopedPrint` is a printer without such a place, and agrees where all mappings
stand directly in deployment blocks.
-/
namespace Stratus

open List hiding isEmpty_iff

namespace Node

/-- Neither a mapping nor a deployment block is in the tree. -/
def Bare (n : Node) : Prop := n.Throughout Mapless

theorem ofForms_mapless : OfForms Mapless where
  spelling {tree} spelled := by cases spelled <;> trivial
  member _ _ := trivial
  block _ := trivial
  named h _ := h

/-- Mappings stand directly in deployment blocks only, and are between bare trees. -/
inductive Tidy : Node → Prop where
  | deployment (label : Option String) {statements : List Node}
      (mappings : ∀ source target, mapsTo source target ∈ statements → source.Bare ∧ target.Bare)
      (others : ∀ n ∈ statements, Printer.isMapping n = false → Tidy n) :
      Tidy (named "deployment" label (block statements))
  | inner {n : Node} (mapless : n.Mapless) (each : ∀ child ∈ n.children, Tidy child) : Tidy n

variable {n : Node}

theorem Spelling.tidy (h : n.Spelling) : n.Tidy := by
  induction h with
  | literal d => exact .inner trivial (forall_mem_nil _)
  | list _ ih => exact .inner trivial ih
  | object _ ih => exact .inner trivial (forall_mem_map.mpr ih)

theorem Tidy.child {child : Node} (tidy : n.Tidy) (mapless : n.Mapless) (mem : child ∈ n.children) :
    child.Tidy := by
  cases tidy with
  | deployment => exact absurd rfl mapless
  | inner _ each => exact each child mem

/-- Settling leaves mappings where they are and makes none. -/
theorem Tidy.settles {n' : Node} (tidy : n.Tidy) (settles : n.Settles n') : n'.Tidy := by
  induction tidy generalizing n' with
  | deployment label mappings others ih =>
    cases settles with
    | same => exact .deployment label mappings others
    | named _ _ inner =>
      cases inner with
      | same => exact .deployment label mappings others
      | block each =>
        refine .deployment label (fun source target mem => ?_) (fun n' mem other => ?_)
        · obtain ⟨n, inside, origin⟩ := Settles.exists_origin each mem
          cases origin
          exact mappings source target inside
        · obtain ⟨n, inside, origin⟩ := Settles.exists_origin each mem
          refine ih n inside ?_ origin
          cases origin with
          | same => exact other
          | _ => rfl
  | @inner n mapless each ih =>
    cases settles with
    | same => exact .inner mapless each
    | keyValue key value spelled => exact .inner trivial (forall_mem_singleton.mpr spelled.tidy)
    | block settled =>
      refine .inner trivial fun n' mem => ?_
      obtain ⟨n, inside, origin⟩ := Settles.exists_origin settled mem
      exact ih n inside origin
    | named name label inner =>
      exact .inner mapless (forall_mem_singleton.mpr (ih _ mem_cons_self inner))

end Node

namespace Printer

open Effect

def side (visit : Visit) (node : Node) : Print String := do
  return Text.stripChar '"' (← demand "strip" (← visit node))

/-- The printing of both sides of a mapping. -/
abbrev Sides := Node → Node → Print (String × String)

def directMappings (sides : Sides) : List Node → Print (List (String × String))
  | [] => return []
  | .mapsTo source target :: rest => do
    let mapping ← sides source target
    return mapping :: (← directMappings sides rest)
  | _ :: rest => directMappings sides rest

/-- The attribute that shows mappings, at a margin; nothing for no mappings. -/
def mappingsRow (level : Int) (mappings : Assoc String) : String :=
  if mappings.isEmpty then "" else
    padding level ++ ("mappings = \x7b\n" ++
      String.join (mappings.map fun e =>
        padding (level + 1) ++ key e.1 ++ " = " ++ quoted e.2 ++ "\n") ++
      padding level ++ "\x7d") ++ "\n"

/-- A deployment block that shows the mappings among its statements, the last one of each source. -/
def scopedDeployment (visit : Visit) (sides : Sides) (label? : Option String) (body : Node) :
    Print Printed := do
  let statements ← body.statements
  let own ← directMappings sides statements
  indentBy 1
  let shown := mappingsRow (← get).indent (Assoc.ofPairs own)
  let lines ← memberLines visit (statements.filter (!isMapping ·))
  indentBy (-1)
  return some (s!"deployment{label label?} \x7b\n" ++ shown ++ lines ++ (← indentation) ++ "\x7d")

def scopedStep (r : Registry) (visit : Visit) (sides : Sides) : Node → Print Printed
  | .named name label? body =>
    if name == "deployment" then scopedDeployment visit sides label? body
      else named visit name label? body
  | .mapsTo source target => do
    discard <| side visit source
    discard <| side visit target
    return none
  | node => step r visit node

mutual

def scopedWithin (r : Registry) : Nat → Node → Print Printed
  | 0, _ => throw .tooDeep
  | depth + 1, node => scopedStep r (scopedWithin r depth) (scopedSides r depth) node

def scopedSides (r : Registry) : Nat → Node → Node → Print (String × String)
  | 0, _, _ => throw .tooDeep
  | depth + 1, source, target => do
    let source ← side (scopedWithin r depth) source
    let target ← side (scopedWithin r depth) target
    return (source, target)

end

def scopedVisit (r : Registry) (node : Node) : Print Printed :=
  scopedWithin r (maxDepth + node.height) node

def scopedPrint (r : Registry) : Node → Print Printed
  | .block statements => program (scopedVisit r) statements
  | node => scopedVisit r node

section Agreement

variable {r : Registry} {i : Int} {L : Assoc String → Assoc String → Prop}
  {node n : Node} {depth : Nat} {statements : List Node}

theorem scopedStep_mapless (visit : Visit) (sides : Sides) (mapless : node.Mapless) :
    scopedStep r visit sides node = step r visit node := by
  cases node with
  | named name label? body =>
    have other : name ≠ "deployment" := mapless
    rw [scopedStep, if_neg (by simpa using other)]
    rfl
  | mapsTo source target => exact mapless.elim
  | _ => rfl

theorem hereditary_bare : Hereditary r Node.Bare where
  child whole _ mem := (Node.throughout_iff.mp whole).2 _ mem
  settled whole run := (Settle.resourceBody_settles run).throughout Node.ofForms_mapless whole

theorem hereditary_tidy : Hereditary r Node.Tidy where
  child := Node.Tidy.child
  settled whole run := whole.settles (Settle.resourceBody_settles run)

theorem within_bare (L : Assoc String → Assoc String → Prop) (bare : node.Bare) (depth : Nat) :
    Paired Eq Eq L (within r depth) (scopedWithin r depth) node := by
  induction depth generalizing node with
  | zero => exact fun i j _ => .throw _
  | succ depth ih =>
    have mapless := (Node.throughout_iff.mp bare).1
    intro i j level
    rw [scopedWithin, scopedStep_mapless _ _ mapless]
    exact step_paired Levels.same hereditary_bare (fun n => ih) bare mapless i j level

theorem side_together {visit visit' : Visit} (h : Paired Eq Eq L visit visit' node) :
    Together (Beside L i i) Eq (Beside L i i) (side visit node) (side visit' node) :=
  (h i i rfl).bind fun _ _ same => (demand_together _ same).bind fun _ _ like =>
    .pure (congrArg _ like.eq_of_same)

def Held (mappings : Assoc String) (a b : Assoc String) : Prop := a = mappings ∧ b = []

theorem mapping_direct {source target : Node} (hs : source.Bare) (ht : target.Bare)
    (held : Assoc String) :
    Joint (Beside (Held held) i i)
      (fun _ mapping => Beside (Held (Assoc.set held mapping.1 mapping.2)) i i)
      (within r depth (.mapsTo source target)) (scopedSides r depth source target) := by
  cases depth with
  | zero => exact fun s t _ => .inr ⟨_, s, t, rfl, rfl⟩
  | succ depth =>
    rw [scopedSides]
    refine Joint.bind (side_together (within_bare _ hs depth)) fun key _ s t reached => ?_
    obtain ⟨rfl, reached⟩ := reached
    refine Joint.bind (side_together (within_bare _ ht depth))
      (fun value _ s t reached => ?_) s t reached
    obtain ⟨rfl, reached⟩ := reached
    refine .inl ⟨none, _, (key, value), t, rfl, rfl, reached.left, reached.right, reached.functions,
      ?_, reached.mappings.2⟩
    exact congrArg (Assoc.set · key value) reached.mappings.1

def collect (visit : Visit) (statements : List Node) : Print PUnit :=
  forIn statements PUnit.unit fun n _ => do
    if isMapping n then discard <| visit n
    return ForInStep.yield PUnit.unit

theorem isMapping_iff : isMapping n = true ↔ ∃ source target, n = .mapsTo source target := by
  cases n <;> simp [isMapping]

theorem collect_mapping (visit : Visit) (source target : Node) (rest : List Node) :
    collect visit (.mapsTo source target :: rest) = visit (.mapsTo source target) >>= fun _ =>
      collect visit rest := by
  have discarded (p : Print Printed) : discard p = p >>= fun _ => pure ⟨⟩ := map_eq_pure_bind _ p
  rw [collect, forIn_cons]
  change (discard (visit (.mapsTo source target)) >>= fun _ =>
    pure (ForInStep.yield PUnit.unit)) >>= _ = _
  rw [discarded, bind_assoc, bind_assoc]
  simp only [pure_bind]
  rfl

theorem collect_other (visit : Visit) (other : isMapping n = false) (rest : List Node) :
    collect visit (n :: rest) = collect visit rest := by
  rw [collect, forIn_cons]
  simp only [other]
  rfl

theorem directMappings_other (sides : Sides) (other : isMapping n = false) (rest : List Node) :
    directMappings sides (n :: rest) = directMappings sides rest := by
  cases n with
  | mapsTo source target => cases other
  | _ => rfl

/-- What a deployment block collects is what stands among its statements, over what was there. -/
theorem collect_direct
    (bare : ∀ source target, .mapsTo source target ∈ statements → source.Bare ∧ target.Bare)
    (held : Assoc String) :
    Joint (Beside (Held held) i i) (fun _ own => Beside (Held (Assoc.update held own)) i i)
      (collect (within r depth) statements) (directMappings (scopedSides r depth) statements) := by
  induction statements generalizing held with
  | nil => exact .pure fun _ _ => id
  | cons n rest ih =>
    have later := ih fun source target mem => bare source target (mem_cons_of_mem _ mem)
    cases mapping : isMapping n with
    | false =>
      rw [collect_other _ mapping, directMappings_other _ mapping]
      exact later held
    | true =>
      obtain ⟨source, target, rfl⟩ := isMapping_iff.mp mapping
      obtain ⟨hs, ht⟩ := bare source target mem_cons_self
      rw [collect_mapping]
      refine Joint.bind (mapping_direct hs ht held) fun _ mapping => ?_
      rw [← bind_pure (collect _ rest)]
      exact Joint.bind (later _) fun _ own => .pure fun _ _ => id

theorem indentation_held {s t : State} (beside : Beside L i i s t) :
    Returns indentation s (padding i) s := by
  rw [← beside.left]
  rfl

theorem mappingsText_held {held : Assoc String} {s t : State} (beside : Beside (Held held) i i s t) :
    ∃ s', Returns mappingsText s
      ("mappings = \x7b\n" ++
        String.join (held.map fun e => padding (i + 1) ++ key e.1 ++ " = " ++ quoted e.2 ++ "\n") ++
          padding i ++ "\x7d") s' ∧
      Beside (Held held) i i s' t := by
  obtain ⟨rfl, right, functions, rfl, none⟩ := beside
  have run : Returns mappingsText s
      ("mappings = \x7b\n" ++
        String.join (s.mappings.map fun e =>
          padding (s.indent + 1) ++ key e.1 ++ " = " ++ quoted e.2 ++ "\n") ++
        padding (s.indent + 1 + -1) ++ "\x7d") { s with indent := s.indent + 1 + -1 } := rfl
  have back : s.indent + 1 + -1 = s.indent := by omega
  rw [back] at run
  exact ⟨s, run, rfl, right, functions, rfl, none⟩

theorem deployment_scoped {label? : Option String}
    (bare : ∀ source target, .mapsTo source target ∈ statements → source.Bare ∧ target.Bare)
    (each : ∀ n ∈ statements, isMapping n = false →
      Paired Eq Eq (Held []) (within r depth) (scopedWithin r depth) n) :
    Alongside (Held []) Eq i i (deployment (within r depth) label? (.block statements))
      (scopedDeployment (scopedWithin r depth) (scopedSides r depth) label? (.block statements)) := by
  refine (Together.lift_same _).bind fun statements' _ same => ?_
  obtain ⟨rfl, known⟩ := same
  cases known
  have rest (shown : String) :
      Together (Beside (Held []) (i + 1) (i + 1)) (Option.Rel (Like Eq)) (Beside (Held []) i i)
        (deploymentRest (within r depth) label? statements shown)
        (deploymentRest (scopedWithin r depth) label? statements shown) := by
    refine deploymentRest_along each rfl fun lines lines' rows => ?_
    rw [rows.eq_of_same]
    exact .refl _
  refine Together.after (collect_direct bare []) fun _ own =>
    indented <| Together.get.bind fun s t beside => ?_
  dsimp only
  rw [beside.right, beside.mappings.1, ← Assoc.ofPairs]
  by_cases empty : Assoc.ofPairs own = []
  · rw [if_pos (List.isEmpty_iff.mpr empty), pure_bind, mappingsRow,
      if_pos (List.isEmpty_iff.mpr empty), empty]
    exact rest ""
  · rw [if_neg (mt List.isEmpty_iff.mp empty)]
    refine Together.left (fun s t beside => mappingsText_held beside) <|
      Together.left (fun s t beside => ⟨s, indentation_held beside, beside⟩) <|
      Together.left (M := Beside (Held []) (i + 1) (i + 1)) (fun s t beside => ⟨_, rfl, ?_⟩) ?_
    · exact ⟨beside.left, beside.right, beside.functions, rfl, beside.mappings.2⟩
    · rw [pure_bind, mappingsRow, if_neg (mt List.isEmpty_iff.mp empty)]
      exact rest _

theorem within_tidy (tidy : node.Tidy) (depth : Nat) :
    Paired Eq Eq (Held []) (within r depth) (scopedWithin r depth) node := by
  induction depth generalizing node with
  | zero => exact fun i j _ => .throw _
  | succ depth ih =>
    rintro i _ rfl
    by_cases mapless : node.Mapless
    · rw [scopedWithin, scopedStep_mapless _ _ mapless]
      exact step_paired Levels.same hereditary_tidy (fun n => ih) tidy mapless i i rfl
    · cases tidy with
      | deployment label mappings others =>
        exact deployment_scoped mappings fun n mem other => ih (others n mem other)
      | inner mapless' _ => exact absurd mapless' mapless

theorem program_scoped (tidy : ∀ n ∈ statements, n.Tidy) :
    Alongside (Held []) Eq i i (program (visit r) statements)
      (program (scopedVisit r) statements) := by
  refine (Together.mapM (R := Eq) fun x mem => ?_).bind fun texts _ same => .pure (.some ?_)
  · obtain ⟨n, index⟩ := x
    have here := within_tidy (r := r) (tidy n (fst_mem_of_mem_zipIdx mem))
      (maxDepth + n.height) i i rfl
    dsimp only
    split
    · exact .pure rfl
    · refine here.bind fun shown shown' like => .pure ?_
      cases like with
      | none => rfl
      | some like => rw [like.eq_of_same]
  · rw [forall₂_eq_eq_eq] at same
    subst same
    exact .refl _

/-- From the start, a tidy tree has the same text or fault as if each deployment block knew its own
mappings only. -/
theorem print_eq_scopedPrint (r : Registry) {tree : Node} (tidy : tree.Tidy) :
    ((print r tree).run.run {}).1 = ((scopedPrint r tree).run.run {}).1 := by
  have beside : Beside (Held []) 0 0 {} {} := ⟨rfl, rfl, rfl, rfl, rfl⟩
  have both : Alongside (Held []) Eq 0 0 (print r tree) (scopedPrint r tree) := by
    cases tree with
    | block statements => exact program_scoped fun n mem => tidy.child trivial mem
    | _ => exact within_tidy tidy _ 0 0 rfl
  rcases both {} {} beside with
    ⟨shown, s, shown', t, here, there, like, -⟩ | ⟨fault, s, t, here, there⟩
  · refine (congrArg Prod.fst here).trans (Eq.trans ?_ (congrArg Prod.fst there).symm)
    cases like with
    | none => rfl
    | some like => rw [like.eq_of_same]
  · exact (congrArg Prod.fst here).trans (congrArg Prod.fst there).symm

end Agreement

/-- Two deployment blocks, one of them with a source twice. -/
theorem two_deployments_scoped :
    ((print [] (.block [
        .named "deployment" none (.block [
          .mapsTo (.literal (.str "a")) (.literal (.str "b")),
            .mapsTo (.literal (.str "a")) (.literal (.str "c"))]),
        .named "deployment" (some "d") (.block [
          .mapsTo (.literal (.str "e")) (.literal (.str "f")),
            .keyValue "x" (.literal (.int 1))])])).run.run {}).1 =
      ((scopedPrint [] (.block [
        .named "deployment" none (.block [
          .mapsTo (.literal (.str "a")) (.literal (.str "b")),
            .mapsTo (.literal (.str "a")) (.literal (.str "c"))]),
        .named "deployment" (some "d") (.block [
          .mapsTo (.literal (.str "e")) (.literal (.str "f")),
            .keyValue "x" (.literal (.int 1))])])).run.run {}).1 := by
  have text (s : String) : (Node.literal (.str s)).Bare := .leaf trivial rfl
  have value : (Node.keyValue "x" (.literal (.int 1))).Tidy :=
    .inner trivial (forall_mem_singleton.mpr (.inner trivial (forall_mem_nil _)))
  refine print_eq_scopedPrint [] (.inner trivial (forall_mem_cons.mpr ⟨.deployment none ?_ ?_,
    forall_mem_singleton.mpr (.deployment (some "d") ?_ ?_)⟩))
  · intro source target mem
    simp only [mem_cons, not_mem_nil, or_false, Node.mapsTo.injEq] at mem
    rcases mem with ⟨rfl, rfl⟩ | ⟨rfl, rfl⟩
    · exact ⟨text _, text _⟩
    · exact ⟨text _, text _⟩
  · simp [isMapping]
  · intro source target mem
    simp only [mem_cons, not_mem_nil, or_false, Node.mapsTo.injEq, reduceCtorEq] at mem
    obtain ⟨rfl, rfl⟩ := mem
    exact ⟨text _, text _⟩
  · simpa [isMapping] using value

/-- A mapping before a deployment block is shown in it. -/
theorem stray_mapping_shown :
    Prod.fst <$> Parser.parse "\"a\" maps_to \"b\"\ndeployment \x7b x = 1 \x7d" = .ok (.block [
      .mapsTo (.literal (.str "a")) (.literal (.str "b")),
      .named "deployment" none (.block [.keyValue "x" (.literal (.int 1))])]) ∧
    ((print [] (.block [
      .mapsTo (.literal (.str "a")) (.literal (.str "b")),
      .named "deployment" none (.block [.keyValue "x" (.literal (.int 1))])])).run.run {}).1 =
        .ok (some "deployment \x7b\n  mappings = \x7b\n    a = \"b\"\n  \x7d\n  x = 1\n\x7d") ∧
    ((scopedPrint [] (.block [
      .mapsTo (.literal (.str "a")) (.literal (.str "b")),
      .named "deployment" none (.block [.keyValue "x" (.literal (.int 1))])])).run.run {}).1 =
        .ok (some "deployment \x7b\n  x = 1\n\x7d") :=
  ⟨by cbv, rfl, rfl⟩

end Printer

end Stratus
