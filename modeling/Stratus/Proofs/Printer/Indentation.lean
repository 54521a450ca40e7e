import Stratus.Proofs.Printer.Pairing

/-!
Printing leaves the indentation as it was. Mappings and deployment blocks are paired like the other
forms where the sources of mappings do not depend on the level.
-/
namespace Stratus.Printer

open Effect

variable {V : Int → Int → Prop} {i j : Int}

/-- Mappings from the same sources to alike targets. -/
def SameSources (V : Int → Int → Prop) (m m' : Assoc String) : Prop :=
  List.Forall₂ (fun e e' => e.1 = e'.1 ∧ Like V e.2 e'.2) m m'

theorem SameSources.refl (m : Assoc String) : SameSources V m m :=
  List.forall₂_same.mpr fun _ _ => ⟨rfl, .refl _⟩

theorem SameSources.set {m m' : Assoc String} (h : SameSources V m m') (source : String)
    {target target' : String}
    (like : Like V target target') :
    SameSources V (Assoc.set m source target) (Assoc.set m' source target') := by
  induction h with
  | nil => exact .cons ⟨rfl, like⟩ .nil
  | @cons e e' m m' same rest ih =>
    obtain ⟨k, v⟩ := e
    obtain ⟨k', v'⟩ := e'
    obtain rfl : k = k' := same.1
    rw [Assoc.set, Assoc.set]
    split
    · exact .cons ⟨rfl, like⟩ rest
    · exact .cons same ih

theorem SameSources.isEmpty_eq {m m' : Assoc String} (h : SameSources V m m') :
    m.isEmpty = m'.isEmpty := by
  cases h <;> rfl

section Forms

variable {visit visit' : Visit} (levels : Levels V)

theorem mapsTo_along {source target : Node} (hs : Paired V Eq (SameSources V) visit visit' source)
    (ht : Paired V V (SameSources V) visit visit' target) (level : V i j) :
    Alongside (SameSources V) V i j (mapsTo visit source target) (mapsTo visit' source target) := by
  have bare {U : Int → Int → Prop} {node : Node} (h : Paired V U (SameSources V) visit visit' node) :
      Together (Beside (SameSources V) i j) (Like U) (Beside (SameSources V) i j)
        (do return Text.stripChar '"' (← demand "strip" (← visit node)) : Print String)
        (do return Text.stripChar '"' (← demand "strip" (← visit' node)) : Print String) :=
    (h i j level).bind fun _ _ same => (demand_together _ same).bind fun _ _ like =>
      .pure like.stripChar
  refine (bare hs).bind fun key key' same => (bare ht).bind fun value value' like =>
    (Together.modify fun s t beside => ?_).bind fun _ _ _ => .pure .none
  obtain rfl := same.eq_of_same
  exact ⟨beside.left, beside.right, beside.functions, beside.mappings.set key like⟩

include levels

theorem mappingsText_along (level : V i j) :
    Together (Beside (SameSources V) i j) (Like V)
      (Beside (SameSources V) i j) mappingsText mappingsText := by
  have deeper := levels.deeper level
  refine indented <| Together.get.bind fun s t beside => outdented <| margined <| .pure ?_
  have rows : List.Forall₂ (Rows V)
      (s.mappings.map fun e => s!"{padding s.indent}{key e.1} = {quoted e.2}\n")
      (t.mappings.map fun e => s!"{padding t.indent}{key e.1} = {quoted e.2}\n") := by
    rw [beside.left, beside.right, List.forall₂_map_left_iff, List.forall₂_map_right_iff]
    refine beside.mappings.imp fun e e' same => ?_
    have row : Like V (key e.1 ++ " = " ++ quoted e.2) (key e'.1 ++ " = " ++ quoted e'.2) := by
      rw [same.1]
      exact (Like.refl _).append (((Like.refl _).append same.2).append (.refl _))
    simpa [toString, String.append_assoc] using Rows.row deeper row
  exact (Ended.of_like (.refl "mappings = \x7b")).close (.join rows) level (.refl _)

theorem deployment_along {label? : Option String} {body : Node}
    (each : ∀ statements, body.statements = .ok statements → ∀ n ∈ statements,
      Paired V V (SameSources V) visit visit' n) (level : V i j) :
    Alongside (SameSources V) V i j (deployment visit label? body)
      (deployment visit' label? body) := by
  have deeper := levels.deeper level
  refine (Together.lift_same _).bind fun statements _ same => ?_
  obtain ⟨rfl, known⟩ := same
  have visited := each statements known
  refine (Together.forIn (R := fun _ _ => True) (fun n mem _ _ _ => ?_) trivial).bind
    fun _ _ _ => indented <|
    Together.get.bind fun s t beside => ?_
  · split
    · exact (visited n mem i j level).discard.bind fun _ _ _ => .pure ⟨_, _, rfl, rfl, trivial⟩
    · exact .pure ⟨_, _, rfl, rfl, trivial⟩
  have rest {shown shown' : String} (rows : Rows V shown shown') :
      Together (Beside (SameSources V) (i + 1) (j + 1)) (Option.Rel (Like V))
        (Beside (SameSources V) i j)
        (deploymentRest visit label? statements shown)
          (deploymentRest visit' label? statements shown') := by
    refine deploymentRest_along (fun n mem _ => visited n mem) deeper fun lines lines' more => ?_
    have closed := (Ended.brace (.refl (s!"deployment{label label?}"))).close
      (rows.append more) level (.refl "\x7d")
    simpa [toString, String.append_assoc] using closed
  dsimp only
  rw [beside.mappings.isEmpty_eq]
  split
  · rw [pure_bind, pure_bind]
    exact rest .nil
  · refine (mappingsText_along levels deeper).bind fun text text' like => margined <|
      (Together.modify (Q := Beside (SameSources V) (i + 1) (j + 1)) fun s t beside => ?_).bind
        fun _ _ _ => ?_
    · exact ⟨beside.left, beside.right, beside.functions, .nil⟩
    · rw [pure_bind, pure_bind]
      exact rest (.row deeper like)

end Forms

theorem within_self (r : Registry) (depth : Nat) (node : Node) :
    Paired Eq Eq (SameSources Eq) (within r depth) (within r depth) node := by
  have every : Hereditary r fun _ => True := ⟨fun _ _ _ => trivial, fun _ _ => trivial⟩
  induction depth generalizing node with
  | zero => exact fun i j _ => .throw _
  | succ depth ih =>
    by_cases mapless : node.Mapless
    · exact step_paired .same every (fun n _ => ih n) trivial mapless
    · intro i j level
      cases node with
      | mapsTo source target => exact mapsTo_along (ih source) (ih target) level
      | named name label? body =>
        obtain rfl : name = "deployment" := not_not.mp mapless
        exact deployment_along .same (fun _ _ n _ => ih n) level
      | _ => exact absurd trivial mapless

variable {r : Registry} {node : Node} {st st' : State} {shown : Printed}

theorem indent_eq_of_within {depth : Nat} (run : Returns (within r depth node) st shown st') :
    st'.indent = st.indent := by
  rcases within_self r depth node st.indent st.indent rfl st st ⟨rfl, rfl, rfl, .refl _⟩ with
    ⟨_, _, _, _, again, -, -, beside⟩ | ⟨_, _, _, fails, -⟩
  · rw [(again.unique run).2, beside.left]
  · exact (run.not_fails fails).elim

/-- A tree that is printed, in whatever state, leaves the level of indentation as it found it. -/
theorem indent_eq_of_visit {r : Registry} {node : Node} {st st' : State} {shown : Printed}
    (run : Returns (visit r node) st shown st') : st'.indent = st.indent := indent_eq_of_within run

/-- A loop around a branch, and a deployment block with a mapping to a list of objects, at level
two. -/
theorem indent_eq_of_visit_nested :
    ∃ shown st', Returns (visit [] (.named "service" none (.block [
        .forLoop "i" (.identifier "xs")
          (.block [.conditional (.identifier "c") (.block [.returns (.literal (.int 1))]) none]),
        .named "deployment" none (.block [
          .mapsTo (.literal (.str "a")) (.list [.object [("b", .literal (.int 1))]])])])))
            ⟨2, [], []⟩ shown st' ∧
      st'.indent = 2 :=
  Exists.imp (fun _ => Exists.imp fun _ run => ⟨run, indent_eq_of_visit run⟩) ⟨_, _, rfl⟩

end Stratus.Printer
