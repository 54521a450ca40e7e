import Stratus.Proofs.Expand.Mentions
import Stratus.Proofs.Typing.Inheritance

/-!
Evaluating an expression, reading or spelling a value and completing an instance never fail because
a depth was too small.
-/
namespace Stratus

/-- An outcome that does not depend on a depth that was too small. -/
abbrev Outcome.Shallow {α : Type} (x : Outcome α) : Prop := x.Raises (· ≠ .tooDeep)

mutual

theorem Data.compareBy_shallow (c : Comparison) (a b : Data) : (compareBy c a b).Shallow := by
  unfold compareBy
  split
  · exact .ok _
  · exact compareItems_shallow c _ _
  · split
    · exact .ok _
    · exact .ok _
    · exact .error nofun

theorem Data.compareItems_shallow (c : Comparison) (xs ys : List Data) :
    (compareItems c xs ys).Shallow := by
  unfold compareItems
  split
  · split
    · exact compareItems_shallow c _ _
    · exact compareBy_shallow c _ _
  · exact .ok _
  · exact .ok _
  · exact .ok _

end

theorem Data.toFloat?_shallow {d : Data} {x : Outcome Binary64} (h : d.toFloat? = some x) :
    x.Shallow := by
  unfold toFloat? at h
  split at h
  · cases h
    exact .ok _
  · obtain ⟨n, _, rfl⟩ := Option.map_eq_some_iff.mp h
    dsimp only
    split
    · exact .error nofun
    · exact .ok _

theorem Data.add_shallow (a b : Data) : (a.add b).Shallow := by
  unfold add
  split
  · exact .ok _
  · exact .ok _
  · split
    · next result found =>
        unfold arithmetic? at found
        split at found
        · cases found
          exact .ok _
        · obtain ⟨x, first, found⟩ := Option.bind_eq_some_iff.mp found
          obtain ⟨y, second, found⟩ := Option.bind_eq_some_iff.mp found
          cases found
          exact (toFloat?_shallow first).bind fun _ _ =>
            (toFloat?_shallow second).bind fun _ _ => .ok _
    · split <;> exact .error nofun

namespace Node

theorem operate_shallow (operator : Option String) (a b : Data) :
    (operate .fields operator a b).Shallow := by
  unfold operate
  split
  case h_1 => exact Data.add_shallow a b
  case h_4 | h_5 | h_6 | h_7 => exact .map (Data.compareBy_shallow _ a b)
  case h_10 h => cases h
  case h_11 h => cases h
  case h_13 => exact .error nofun
  all_goals exact .ok _

mutual

theorem evaluate_shallow (known : Assoc Data) : (e : Node) → (e.evaluate .fields known).Shallow
  | literal _ | identifier _ => by rw [evaluate]; exact .ok _
  | expression left operator right => by
      rw [evaluate]
      refine (evaluate_shallow known left).bind fun a _ => ?_
      exact (evaluate?_shallow known right).bind fun b _ => operate_shallow _ a b
  | ternary condition yes no => by
      rw [evaluate]
      refine (evaluate_shallow known condition).bind fun a _ => ?_
      split
      · exact evaluate_shallow known yes
      · exact evaluate_shallow known no
  | list elements => .map (evaluateAll_shallow known elements)
  | object attributes => .map (evaluateEntries_shallow known attributes)
  | access owner name => by
      rw [evaluate]
      exact (evaluate_shallow known owner).bind fun _ _ => .ok _
  | keyValue .. | block
      _ | typed .. | resource .. | forLoop .. | conditional .. | switch .. | function ..
  | assignment .. | returns
      _ | range .. | call .. | named .. | typeDef .. | applied .. | raw .. | mapsTo .. =>
    .error nofun

theorem evaluate?_shallow (known : Assoc Data) :
    (e : Option Node) → (evaluate? .fields known e).Shallow
  | none => .ok _
  | some e => evaluate_shallow known e

theorem evaluateAll_shallow (known : Assoc Data) :
    (es : List Node) → (evaluateAll .fields known es).Shallow
  | [] => .ok _
  | e :: rest =>
    (evaluate_shallow known e).bind fun _ _ => (evaluateAll_shallow known rest).bind fun _ _ => .ok _

theorem evaluateEntries_shallow (known : Assoc Data) :
    (m : List (String × Node)) → (evaluateEntries .fields known m).Shallow
  | [] => .ok _
  | (_, e) :: rest =>
    (evaluate_shallow known e).bind fun _ _ =>
    (evaluateEntries_shallow known rest).bind fun _ _ => .ok _

end

mutual

theorem toValue_shallow : (n : Node) → n.toValue.Shallow
  | literal _ | identifier _ => .ok _
  | list elements => .map (toItems_shallow elements)
  | object attributes => .map (toEntries_shallow attributes)
  | keyValue .. | block
      _ | typed .. | ternary .. | resource .. | forLoop .. | conditional .. | switch ..
  | function .. | assignment .. | expression .. | returns
      _ | range .. | call .. | access .. | named ..
  | typeDef .. | applied .. | raw .. | mapsTo .. => .error nofun

theorem toItems_shallow : (ns : List Node) → (toItems ns).Shallow
  | [] => .ok _
  | n :: rest => (toValue_shallow n).bind fun _ _ => (toItems_shallow rest).bind fun _ _ => .ok _

theorem toEntries_shallow : (m : List (String × Node)) → (toEntries m).Shallow
  | [] => .ok _
  | (_, n) :: rest =>
    (toValue_shallow n).bind fun _ _ => (toEntries_shallow rest).bind fun _ _ => .ok _

end

mutual

theorem ofValue_shallow : (d : Data) → (ofValue d).Shallow
  | .null => .error nofun
  | .list items => .map (ofItems_shallow items)
  | .map entries => .map (ofEntries_shallow entries)
  | .bool _ | .int _ | .float _ | .str _ => .ok _

theorem ofItems_shallow : (ds : List Data) → (ofItems ds).Shallow
  | [] => .ok _
  | d :: rest => (ofValue_shallow d).bind fun _ _ => (ofItems_shallow rest).bind fun _ _ => .ok _

theorem ofEntries_shallow : (m : List (String × Data)) → (ofEntries m).Shallow
  | [] => .ok _
  | (_, d) :: rest =>
    (ofValue_shallow d).bind fun _ _ => (ofEntries_shallow rest).bind fun _ _ => .ok _

end

end Node

namespace Registry

theorem initialValue_shallow (initial : Initial) (known : Assoc Data) :
    (initialValue (fun e known => e.evaluate .fields known) initial known).Shallow := by
  unfold initialValue
  split
  · exact .ok _
  · exact .ok _
  · exact .ok _
  · exact .map (Node.evaluate_shallow known _)

theorem fillInitial_shallow (fields : Assoc Field) (known : Assoc Data) :
    (fillInitial (fun e known => e.evaluate .fields known) fields known).Shallow := by
  induction fields generalizing known with
  | nil => exact .ok _
  | cons e rest ih =>
    rw [fillInitial]
    split
    · exact ih known
    · refine (initialValue_shallow _ known).bind fun initial _ => ?_
      cases initial with
      | none => exact ih known
      | some d => exact ih _

theorem fillCalculated_shallow (fields : Assoc Field) (known : Assoc Data) :
    (fillCalculated (fun e known => e.evaluate .fields known) fields known).Shallow := by
  induction fields generalizing known with
  | nil => exact .ok _
  | cons e rest ih =>
    rw [fillCalculated]
    split
    · exact (Node.evaluate_shallow known _).bind fun d _ => ih _
    · exact ih known

theorem complete_shallow {r : Registry} {name : String} (rooted : r.Rooted name)
    (values : Assoc Data) :
    (r.complete (.str name) (.map values)
      (some fun e known => e.evaluate .fields known)).Shallow := by
  obtain ⟨fields, found⟩ := allFields_ok_iff.mpr rooted
  rw [complete_eq, found]
  split
  · exact (fillInitial_shallow fields _).bind fun known _ => fillCalculated_shallow fields known
  · exact .error nofun

end Registry

theorem Expand.registeredType_shallow (r : Registry) (m : Assoc Node) :
    (registeredType r m).Shallow := by
  unfold registeredType Node.declaredType
  split
  · exact .ok _
  · exact .ok _
  · next value _ =>
      cases value <;> first | exact .ok _ | exact .error nofun
  · exact .error nofun

end Stratus
