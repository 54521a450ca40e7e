import Stratus.Proofs.Parser.Progress
import Stratus.Proofs.Typing.Conformance

/-!
Marks on the annotations of fields. A question mark says that a field may be null, and the
definition keeps it with the type; the registered constraint has a flag of its own, which no
definition sets.
-/
namespace Stratus

open Assoc

/-- Checking an instance finds no problem with one of its fields. -/
def Registry.Accepts (r : Registry) (entries : Assoc Data) (key : String) (field : Field) : Prop :=
  fieldProblems (.map entries) (r.candidates entries) [(key, field)] = .ok []

theorem Registry.accepts_null_iff {r : Registry} {entries : Assoc Data} {key : String} {field : Field}
    (given : get? entries key = some .null) :
    r.Accepts entries key field ↔ field.constraint.nullable = true := by
  have answer : field.constraint.problem? (r.candidate .null) =
      .ok (if field.constraint.nullable = true then none else some "Value cannot be null") := rfl
  rw [Accepts, fieldProblems_present given, answer]
  cases field.constraint.nullable <;> simp [bind, Except.bind, pure, Except.pure, fieldProblems]

namespace Parser

/-- At a position stand the name of a field and a colon. -/
structure FieldAt (tokens : Array Token) (i : Nat) (name : String) : Prop where
  named : ∃ t, tokens[i]? = some t ∧ t.kind = .identifier ∧ t.text = name
  colon : ∃ t, tokens[i + 1]? = some t ∧ t.kind = .colon

/-- The annotation of the field at a position is marked: a question mark stands behind its first
word. -/
def MarkedAt (tokens : Array Token) (i : Nat) : Prop :=
  ∃ t, tokens[i + 3]? = some t ∧ t.kind = .question

section Small

variable {s s' : State} {t : Token} {kind : TokenKind}

theorem of_current (run : current s = .ok (t, s')) : s.tokens[s.pos]? = some t ∧ s' = s := by
  obtain ⟨o, m, looked, rest⟩ := bind_eq_ok run
  cases looked
  cases found : s.tokens[s.pos]? with
  | none =>
    rw [Nat.add_zero, found] at rest
    cases rest
  | some t' =>
    rw [Nat.add_zero, found] at rest
    cases rest
    exact ⟨rfl, rfl⟩

theorem of_consume (run : consume kind s = .ok (t, s')) :
    s.tokens[s.pos]? = some t ∧ t.kind = kind ∧ s' = s.skip 1 := by
  obtain ⟨t', m, looked, rest⟩ := bind_eq_ok run
  obtain ⟨found, rfl⟩ := of_current looked
  split at rest
  · next same =>
      cases rest
      exact ⟨found, beq_iff_eq.mp same, rfl⟩
  · cases rest

theorem of_sees {b : Bool} (run : sees kind s = .ok (b, s')) :
    (b = true ↔ ∃ t, s.tokens[s.pos]? = some t ∧ t.kind = kind) ∧ s' = s := by
  obtain ⟨t, m, looked, last⟩ := bind_eq_ok run
  obtain ⟨found, rfl⟩ := of_current looked
  cases last
  exact ⟨by simp [found], rfl⟩

theorem of_accept {b : Bool} (run : accept kind s = .ok (b, s')) :
    b = true ↔ ∃ t, s.tokens[s.pos]? = some t ∧ t.kind = kind := by
  obtain ⟨seen, m, looked, rest⟩ := bind_eq_ok run
  obtain ⟨meaning, -⟩ := of_sees looked
  have same : b = seen := by
    split at rest <;> cases rest
    · next yes => exact yes.symm
    · next no => exact (Bool.eq_false_iff.mpr no).symm
  exact same ▸ meaning

theorem of_map {α β : Type} {p : Parse α} {f : α → β} {b : β} (run : (f <$> p) s = .ok (b, s')) :
    ∃ a, p s = .ok (a, s') ∧ b = f a := by
  rw [map_eq_pure_bind] at run
  obtain ⟨a, m, first, last⟩ := bind_eq_ok run
  cases last
  exact ⟨a, first, rfl⟩

theorem of_discard {α : Type} {p : Parse α} {u : Unit}
    (run : (discard p : Parse Unit) s = .ok (u, s')) :
    ∃ a, p s = .ok (a, s') := by
  obtain ⟨a, first, -⟩ := of_map run
  exact ⟨a, first⟩

theorem of_lift {α : Type} {x : Outcome α} {a : α} (run : (liftM x : Parse α) s = .ok (a, s')) :
    x = .ok a ∧ s' = s := by
  cases x with
  | error fault => cases run
  | ok b =>
    cases run
    exact ⟨rfl, rfl⟩

end Small

theorem TypeMember.field?_of_written {written : String × TypeRef × Option Node} (member : TypeMember)
    (h : member.written? = some written) : ∃ field, member.field? = some (written.1, field) := by
  cases member with
  | base name => cases h
  | field name type initial calculated =>
    cases h
    exact ⟨_, rfl⟩

variable {g : Grammar} {s s' o : State}

theorem nullable_typeAnnotation {type : TypeRef} (run : typeAnnotation s = .ok (type, s')) :
    type.nullable = true ↔ ∃ t, s.tokens[s.pos + 1]? = some t ∧ t.kind = .question := by
  obtain ⟨name, s₁, first, run⟩ := bind_eq_ok run
  obtain ⟨t, m, looked, word⟩ := bind_eq_ok first
  obtain ⟨-, rfl⟩ := of_current looked
  split at word
  · cases word
    obtain ⟨marked, s₂, second, run⟩ := bind_eq_ok run
    obtain ⟨fuel, s₃, -, run⟩ := bind_eq_ok run
    obtain ⟨members, s₄, -, last⟩ := bind_eq_ok run
    have kept : type.nullable = marked := by
      split at last <;> cases last <;> rfl
    rw [kept]
    exact of_accept second
  · cases word

/-- A member that is a field starts with its name and a colon; its constraint admits what the
annotation says, and is not nullable. -/
theorem typeMember_field {member : TypeMember} {key : String} {field : Field}
    (run : typeMember g s = .ok (member, s')) (kept : member.field? = some (key, field)) :
    FieldAt s.tokens s.pos key ∧ ∃ type : TypeRef, field.constraint = { admits := .declared type } ∧
      (type.nullable = true ↔ MarkedAt s.tokens s.pos) := by
  obtain ⟨t, m, looked, whole⟩ := bind_eq_ok run
  obtain ⟨named, rfl⟩ := of_current looked
  dsimp only at whole
  split at whole
  · cases whole
  next identifier =>
  obtain ⟨_, s₁, advanced, rest⟩ := bind_eq_ok whole
  cases advanced
  obtain ⟨_, s₂, second, rest⟩ := bind_eq_ok rest
  obtain ⟨colon, consumed⟩ := of_discard second
  obtain ⟨found, isColon, rfl⟩ := of_consume consumed
  have here : FieldAt m.tokens m.pos t.text :=
    ⟨⟨t, named, by simpa using identifier, rfl⟩, ⟨colon, found, isColon⟩⟩
  have finish {type : TypeRef} {initial calculated : Option Node} {s₃ s₄ : State}
      (annotated : typeAnnotation (State.skip m 2) = .ok (type, s₃))
      (last : (do discard <| accept .comma; return .field t.text type initial calculated :
        Parse TypeMember) s₄ =
        .ok (member, s')) :
      FieldAt m.tokens m.pos key ∧ ∃ type : TypeRef, field.constraint = { admits := .declared type } ∧
        (type.nullable = true ↔ MarkedAt m.tokens m.pos) := by
    obtain ⟨_, s₅, -, last⟩ := bind_eq_ok last
    cases last
    cases kept
    exact ⟨here, type, rfl, nullable_typeAnnotation annotated⟩
  split at rest
  · obtain ⟨base, s₃, read, rest⟩ := bind_eq_ok rest
    obtain ⟨name, -, rfl⟩ := of_map read
    obtain ⟨_, s₄, -, last⟩ := bind_eq_ok rest
    cases last
    cases kept
  · obtain ⟨type, s₃, annotated, rest⟩ := bind_eq_ok rest
    obtain ⟨equals, s₄, -, rest⟩ := bind_eq_ok rest
    split at rest
    · obtain ⟨calculated, s₅, -, rest⟩ := bind_eq_ok rest
      split at rest
      · obtain ⟨_, s₆, -, rest⟩ := bind_eq_ok rest
        obtain ⟨e, s₇, -, rest⟩ := bind_eq_ok rest
        obtain ⟨_, s₈, -, rest⟩ := bind_eq_ok rest
        exact finish annotated rest
      · obtain ⟨e, s₆, -, rest⟩ := bind_eq_ok rest
        exact finish annotated rest
    · exact finish annotated rest

section Items

variable {α : Type} {k : Nat} {item : Parse α} {close : TokenKind} {items : List α}

theorem repeated_items (hi : From o k item) {fuel : Nat} (here : Behind o k s)
    (run : repeated (do if ← sees close then return none else some <$> item) fuel s =
      .ok (items, s')) :
    Behind s 0 s' ∧ ∀ a ∈ items, ∃ m m', Behind s 0 m ∧ item m = .ok (a, m') ∧ Behind m' 0 s' := by
  induction fuel generalizing s items with
  | zero => cases run
  | succ fuel ih =>
    have start : Behind s 0 s := (Later.refl here.placed).toBehind
    obtain ⟨a?, s₁, step, rest⟩ := bind_eq_ok run
    obtain ⟨closed, m, looked, taken⟩ := bind_eq_ok step
    obtain ⟨-, rfl⟩ := of_sees looked
    split at taken
    · cases taken
      cases rest
      exact ⟨start, by simp⟩
    · obtain ⟨a, read, rfl⟩ := of_map taken
      obtain ⟨later, s₂, others, last⟩ := bind_eq_ok rest
      cases last
      have onward : Behind m 1 s₁ := ((hi m here).ok read).toBehind
      obtain ⟨ended, each⟩ := ih ((here.trans onward).weaken (by omega)) others
      refine ⟨(onward.trans ended).weaken (by omega), fun b member => ?_⟩
      rcases List.mem_cons.mp member with rfl | member
      · exact ⟨m, s₁, start, read, ended⟩
      · obtain ⟨n, n', reached, read, before⟩ := each b member
        exact ⟨n, n', (onward.trans reached).weaken (by omega), read, before⟩

theorem untilToken_items (hi : From o k item) (here : Behind o k s)
    (run : untilToken close item s = .ok (items, s')) :
    ∀ a ∈ items, ∃ m m', Behind s 0 m ∧ item m = .ok (a, m') ∧ Behind m' 0 s' := by
  obtain ⟨fuel, m, counted, rest⟩ := bind_eq_ok run
  cases counted
  exact (repeated_items hi here rest).2

end Items

/-- A definition registers the fields of its members; where two have one name, the later is written
over the other. -/
theorem typeDefinition_members {node : Node} (placed : s.Placed) (he : From s 1 (g.expression 0))
    (run : typeDefinition g s = .ok (node, s')) :
    ∃ (name : String) (members : List TypeMember) (base : Option String) (type : TypeDef),
      node = .typeDef false name (members.filterMap TypeMember.written?) base ∧
      get? s'.registry name = some type ∧
      type.fields = ofPairs (members.filterMap TypeMember.field?) ∧
      ∀ member ∈ members, ∃ m m', Behind s 1 m ∧ typeMember g m = .ok (member, m') ∧
        m'.pos < s'.pos := by
  obtain ⟨word, m, looked, whole⟩ := bind_eq_ok run
  obtain ⟨rfl, ts, ahead⟩ := (current_ends placed).ok looked
  dsimp only at whole
  split at whole
  · cases whole
  next typeWord =>
  obtain ⟨_, s₁, advanced, rest⟩ := bind_eq_ok whole
  obtain ⟨name, s₂, second, rest⟩ := bind_eq_ok rest
  obtain ⟨_, s₃, third, rest⟩ := bind_eq_ok rest
  obtain ⟨members, s₄, read, rest⟩ := bind_eq_ok rest
  obtain ⟨_, s₅, closed, rest⟩ := bind_eq_ok rest
  obtain ⟨_, s₆, got, rest⟩ := bind_eq_ok rest
  obtain ⟨registry, s₇, registered, rest⟩ := bind_eq_ok rest
  obtain ⟨_, s₈, written, last⟩ := bind_eq_ok rest
  have more : word.kind ≠ .endOfFile := by
    intro ended
    simp [ended] at typeWord
  have h₁ : Later m 1 s₁ := by
    cases advanced
    exact (Later.refl placed).skip ahead more
  have h₂ : Later m 1 s₂ := (Reaches.word (by decide) s₁ h₁).ok second
  have h₃ : Later m 1 s₃ := ((Reaches.word (by decide)).map s₂ h₂).ok third
  have here : Behind m 1 s₃ := h₃.toBehind
  have h₄ := ((untilToken_ends (typeMember_from he) .rightBrace here).ok read).1
  have h₅ : Later s₄ 1 s₅ := ((Reaches.word (by decide)).map s₄ (Later.refl h₄.placed)).ok closed
  cases got
  obtain ⟨registered, rfl⟩ := of_lift registered
  obtain ⟨-, rfl⟩ := Registry.register_eq_ok_iff.mp registered
  cases written
  cases last
  refine ⟨name.text, members, _, _, rfl, (Registry.get?_registered _).trans (if_pos rfl), rfl,
    fun member listed => ?_⟩
  obtain ⟨n, n', reached, read, before⟩ :=
    untilToken_items (typeMember_from he) here read member listed
  refine ⟨n, n', (here.trans reached).weaken (by omega), read, ?_⟩
  have := before.read
  have := h₅.read
  dsimp only
  omega

/-- Each field that a definition writes is registered with the type of its annotation and its mark;
yet no instance that gives null for the field is accepted, so the two agree just where the
annotation is not marked. -/
theorem typeDefinition_null_iff {node : Node} (placed : s.Placed)
    (run : (typeDefinition (grammar (depthFor s.tokens.toList))).run s = .ok (node, s')) :
    ∃ (name : String) (written : List (String × TypeRef × Option Node)) (base : Option String)
      (type : TypeDef),
      node = .typeDef false name written base ∧ get? s'.registry name = some type ∧
      ∀ key ∈ written.map Prod.fst, ∃ (i : Nat) (field : Field) (declared : TypeRef),
        s.pos < i ∧ i < s'.pos ∧ FieldAt s.tokens i key ∧ get? type.fields key = some field ∧
        field.constraint.admits = .declared declared ∧
          (declared.nullable = true ↔ MarkedAt s.tokens i) ∧
        ∀ (r : Registry) (entries : Assoc Data), get? entries key = some .null →
          ((r.Accepts entries key field ↔ MarkedAt s.tokens i) ↔ ¬ MarkedAt s.tokens i) := by
  have deep : 4 * s.left + 1 < depthFor s.tokens.toList + 4 * 1 := by
    rw [State.left, depthFor, Array.length_toList]
    omega
  have he := (grammar_proceeds _).expression deep 0
  obtain ⟨name, members, base, type, rfl, found, fields, each⟩ := typeDefinition_members placed he run
  refine ⟨name, _, base, type, rfl, found, fun key listed => ?_⟩
  -- Members that are written are kept, but it may be a later one of the same name that counts.
  obtain ⟨field, kept⟩ : ∃ field, get? type.fields key = some field := by
    obtain ⟨_, written, rfl⟩ := List.mem_map.mp listed
    obtain ⟨member, own, same⟩ := List.mem_filterMap.mp written
    obtain ⟨field, kept⟩ := member.field?_of_written same
    exact fields ▸ get?_ofPairs_of_mem (List.mem_filterMap.mpr ⟨member, own, kept⟩)
  have source := mem_of_get? kept
  rw [fields] at source
  obtain ⟨member, own, same⟩ := List.mem_filterMap.mp (mem_of_mem_ofPairs source)
  obtain ⟨m, m', reached, read, before⟩ := each member own
  obtain ⟨here, declared, constraint, mark⟩ := typeMember_field read same
  have onward : m.pos + 1 ≤ m'.pos := ((typeMember_from he m reached).ok read).read
  have start := reached.read
  rw [reached.tokens] at here mark
  refine ⟨m.pos, field, declared, by omega, by omega, here, kept, by rw [constraint], mark, ?_⟩
  intro r entries given
  rw [Registry.accepts_null_iff given, constraint]
  simp

/-- A definition with a marked field before one that is not. -/
theorem typeDefinition_null_marked :
    let tokens : List Token := [⟨.identifier, "type", 1, 1⟩, ⟨.identifier, "A", 1, 6⟩,
      ⟨.leftBrace, "\x7b", 1, 8⟩,
      ⟨.identifier, "x", 1, 10⟩, ⟨.colon, ":", 1, 11⟩, ⟨.identifier, "string", 1, 13⟩,
        ⟨.question, "?", 1, 19⟩,
      ⟨.identifier, "y", 1, 21⟩, ⟨.colon, ":", 1, 22⟩, ⟨.identifier, "any", 1, 24⟩,
        ⟨.rightBrace, "\x7d", 1, 28⟩,
      ⟨.endOfFile, "", 1, 29⟩]
    let s : State := { tokens := tokens.toArray }
    s.Placed ∧ MarkedAt s.tokens 3 ∧ ∃ node s' type field,
      (typeDefinition (grammar (depthFor s.tokens.toList))).run s = .ok (node, s') ∧
      get? s'.registry "A" = some type ∧ get? type.fields "x" = some field ∧
      ∀ (r : Registry) (entries : Assoc Data), get? entries "x" = some .null →
        ¬ r.Accepts entries "x" field := by
  intro tokens s
  have closed : Closed (tokens.dropLast ++ [(⟨.endOfFile, "", 1, 29⟩ : Token)]).toArray :=
    closed_of_ended rfl (by decide)
  have placed : s.Placed := ⟨closed, by decide⟩
  have read : Prod.fst <$> (typeDefinition (grammar (depthFor s.tokens.toList))).run s =
      .ok (.typeDef false "A" [("x", { name := "string", nullable := true }, none),
        ("y", { name := "any" }, none)]
        none) := by
    cbv
  obtain ⟨⟨node, s'⟩, run, rfl⟩ := Outcome.map_eq_ok read
  obtain ⟨name, written, base, type, same, found, each⟩ := typeDefinition_null_iff placed run
  cases same
  obtain ⟨i, field, declared, -, -, -, kept, -, -, null⟩ := each "x" (by simp)
  refine ⟨placed, ⟨⟨.question, "?", 1, 19⟩, rfl, rfl⟩, _, s', type, field, run, found, kept,
    fun r entries given => ?_⟩
  have agree := null r entries given
  tauto

/-- Null is refused for the one field of a type, although its annotation is marked. -/
theorem parse_refuses_marked_null :
    let r : Registry := [("A", { name := "A", fields := [("x", { constraint :=
      { admits := .declared { name := "string", nullable := true } } })] })]
    (fun x => x.2.registry) <$> parse "type A \x7b x: string? \x7d" = .ok r ∧
      r.problems "A" (.map [("x", .null)]) = .ok ["Field x: Value cannot be null"] := by
  intro r
  exact ⟨by cbv, rfl⟩

end Parser

end Stratus
