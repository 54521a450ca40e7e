import Stratus.Proofs.Terraform.Reference

/-!
Substitution of references in passages and in values. A passage is text in which references in
braces stand between segments without their mark.
-/
namespace Stratus

open String

namespace Terraform

variable {addresses : Addresses}

theorem leaves_resolveAll (addresses : Addresses) (d : Data) :
    (resolveAll addresses d).leaves = d.leaves.map fun leaf =>
    (leaf.1, leaf.2.onText (resolveText addresses)) :=
  Data.leaves_mapTexts false d

/-- A component of a kind, and possibly a field of it. -/
structure Reference where
  kind : String
  name : String
  field : Option String
  undotted : '.' ∉ kind.toList ∧ '.' ∉ name.toList
  closed : '\x7d' ∉ kind.toList ∧ '\x7d' ∉ name.toList ∧ ∀ f ∈ field, '\x7d' ∉ f.toList

namespace Reference

def path (ref : Reference) : String :=
  mark ++ ref.kind ++ "." ++ ref.name ++ ref.field.elim "" ("." ++ ·)

def written (ref : Reference) : String := wrapped ref.path

/-- The field of the component's address, or its identifier; a reference without an address stays.
-/
def resolved (addresses : Addresses) (ref : Reference) : String :=
  let address := Assoc.getD addresses ref.name ""
  if address = "" then ref.written else wrapped (address ++ "." ++ ref.field.getD "id")

theorem resolveName_path (addresses : Addresses) (ref : Reference) :
    resolveName addresses ref.path = ref.resolved addresses := by
  obtain ⟨kind, name, field, ⟨hk, hn⟩, _⟩ := ref
  cases field with
  | some f =>
    have spelled : mark ++ kind ++ "." ++ name ++ ("." ++ f) = mark ++ kind ++ "." ++
        name ++ "." ++ f :=
      append_assoc.symm
    simp only [path, resolved, written, Option.elim_some, Option.getD_some, spelled]
    exact resolveName_reference hk hn f
  | none =>
    have starts : Text.startsWith (mark ++ kind ++ "." ++ name) mark = true := by
      simpa only [append_assoc] using startsWith_mark _
    have parts : Text.split (mark ++ kind ++ "." ++ name) "." = ["infrastructure", kind, name] := by
      rw [split_kind hk, show "." = singleton '.' from rfl, Text.split_of_notMem hn]
    simp only [path, resolved, written, Option.elim_none, Option.getD_none, append_empty]
    rw [resolveName_of_split starts parts]
    rfl

/-- No brace closes inside a reference. -/
theorem path_spelled (ref : Reference) :
    ∃ c body, ref.path.toList = mark.toList ++ c :: body ∧ '\x7d' ∉ c :: body := by
  obtain ⟨c, body, spelled⟩ :
      ∃ c body, (ref.kind ++ "." ++ ref.name ++ ref.field.elim "" ("." ++ ·)).toList =
        c :: body := by
    apply List.exists_cons_of_ne_nil
    simp
  refine ⟨c, body, ?_, ?_⟩
  · rw [← spelled]
    simp [path, toList_append]
  · obtain ⟨kind, name, field⟩ := ref.closed
    have last : '\x7d' ∉ (ref.field.elim "" ("." ++ ·)).toList := by
      cases found : ref.field with
      | none => simp
      | some f => simpa [toList_append] using field f found
    rw [← spelled]
    simp [toList_append, kind, name, last]

end Reference

/-- Text without the mark of references. -/
abbrev Segment := { s : String // ¬ mark.toList <:+: s.toList }

/-- Segments with references between them. -/
structure Passage where
  start : Segment
  rest : List (Reference × Segment)

namespace Passage

def text (p : Passage) : String := p.start.1 ++ join (p.rest.map fun e => e.1.written ++ e.2.1)

def resolved (addresses : Addresses) (p : Passage) : String :=
  p.start.1 ++ join (p.rest.map fun e => e.1.resolved addresses ++ e.2.1)

def later (rest : List (Reference × Segment)) : List Char :=
  rest.flatMap fun e => e.1.written.toList ++ e.2.1.toList

theorem opens_later (rest : List (Reference × Segment)) : Opens (later rest) := by
  cases rest with
  | nil => exact .inl rfl
  | cons e rest => exact .inr ⟨_, by simp [later, Reference.written, wrapped, toList_append]; rfl⟩

theorem flatMap_written_segment (segment : Segment) {tail : List Char} (opens : Opens tail)
    (fuel : Nat) :
    (piecesFrom (segment.1.toList.length + fuel) (segment.1.toList ++ tail)).flatMap
    (Piece.written addresses) =
      segment.1.toList ++ (piecesFrom fuel tail).flatMap (Piece.written addresses) := by
  rw [piecesFrom_of_unmarked segment.2 opens, List.flatMap_append]
  simp [List.flatMap_map, Piece.written]

theorem flatMap_written_later (rest : List (Reference × Segment)) {fuel : Nat}
    (enough : (later rest).length ≤ fuel) :
    (piecesFrom fuel (later rest)).flatMap (Piece.written addresses) =
      rest.flatMap fun e => (e.1.resolved addresses).toList ++ e.2.1.toList := by
  induction rest generalizing fuel with
  | nil => simp [later, piecesFrom]
  | cons e rest ih =>
    obtain ⟨ref, segment⟩ := e
    obtain ⟨c, body, spelled, clear⟩ := ref.path_spelled
    have text : later ((ref, segment) :: rest) = (wrapped ref.path).toList ++
        (segment.1.toList ++ later rest) := by
      simp [later, Reference.written]
    have filled : 0 < (wrapped ref.path).toList.length := by simp [wrapped, toList_append]
    rw [text, List.length_append, List.length_append] at enough
    -- a reference takes one step, a segment one for each of its characters
    obtain ⟨left, rfl⟩ : ∃ left, fuel = segment.1.toList.length + left + 1 :=
      ⟨fuel - segment.1.toList.length - 1, by omega⟩
    rw [text, piecesFrom_wrapped clear spelled, List.flatMap_cons,
      flatMap_written_segment segment (opens_later rest),
      ih (by omega), Piece.written, ref.resolveName_path, List.flatMap_cons, List.append_assoc]

/-- In a passage every reference is resolved and nothing else is changed. -/
theorem resolveText_text (addresses : Addresses) (p : Passage) :
    resolveText addresses p.text = p.resolved addresses := by
  have text : p.text.toList = p.start.1.toList ++ later p.rest := by
    simp [Passage.text, later, toList_append, toList_join, List.flatMap_map]
  have size : p.text.length = p.start.1.toList.length + (later p.rest).length := by
    rw [← length_toList, text, List.length_append]
  apply toList_inj.mp
  rw [resolveText_eq, pieces, text, size, toList_ofList,
    flatMap_written_segment p.start (opens_later p.rest), flatMap_written_later p.rest le_rfl]
  simp [resolved, toList_append, toList_join, List.flatMap_map]

end Passage

/-- In a passage each reference gives way to the field of its component's address that it names, the
identifier if it names none, unless the address is empty; in a value only the texts among the leaves
change. -/
theorem resolveAll_passages (addresses : Addresses) :
    (∀ p : Passage, resolveAll addresses (.str p.text) = .str (p.resolved addresses)) ∧
    ∀ d, (resolveAll addresses d).leaves =
      d.leaves.map fun leaf => (leaf.1, leaf.2.onText (resolveText addresses)) := by
  refine ⟨fun p => ?_, leaves_resolveAll addresses⟩
  rw [resolveAll_str, p.resolveText_text]

/-- Two references without a character between them, behind text that has braces and half of a mark.
-/
theorem resolveAll_adjacent :
    resolveAll [("vpc", "aws_vpc.vpc")]
        (.str "$\x7bx\x7d infrastructure$\x7binfrastructure.net.vpc\x7d$\x7binfrastructure.net.vpc.tags.a\x7d$") =
      .str "$\x7bx\x7d infrastructure$\x7baws_vpc.vpc.id\x7d$\x7baws_vpc.vpc.tags.a\x7d$" :=
  (resolveAll_passages [("vpc", "aws_vpc.vpc")]).1 {
    start := ⟨"$\x7bx\x7d infrastructure", by decide⟩
    rest := [
      (⟨"net", "vpc", none, by decide, by decide⟩, ⟨"", by decide⟩),
      (⟨"net", "vpc", some "tags.a", by decide, by decide⟩, ⟨"$", by decide⟩)] }

/-- A component whose address is empty is in the table, and yet its reference is not replaced. -/
theorem reference_of_empty_address :
    Assoc.get? [("b", "")] "b" = some "" ∧
      resolveAll [("b", "")] (.str "$\x7binfrastructure.a.b\x7d") ≠
        .str (wrapped ("" ++ "." ++ "id")) := by
  have kept : resolveAll [("b", "")] (.str "$\x7binfrastructure.a.b\x7d") =
    .str "$\x7binfrastructure.a.b\x7d" := rfl
  refine ⟨rfl, ?_⟩
  rw [kept, ne_eq, Data.str.injEq]
  decide

end Terraform

end Stratus
