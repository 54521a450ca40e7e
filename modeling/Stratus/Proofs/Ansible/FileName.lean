import Stratus.Proofs.Data.Parts
import Stratus.Proofs.Text.Split
import Stratus.Ansible.Plays

/-!
Files that playbooks read. A text under a key that reads a file becomes a reference, but always to
the same file; nothing else in a value changes.
-/
namespace Stratus.Ansible.Plays

open Data (Step)

/-- A file with a name is read at the start of a text. -/
def Opens (name cs : List Char) : Prop :=
  name ≠ [] ∧ '"' ∉ name ∧ "file(\"".toList ++ name ++ "\")".toList <+: cs

/-- A file with a name is read at a place of a text, and none is read before it. -/
def FirstFile (s name : String) : Prop :=
  ∃ i, Opens name.toList (s.toList.drop i) ∧ ∀ j < i, ∀ other, ¬ Opens other (s.toList.drop j)

theorem span_quoted {name : List Char} (clear : '"' ∉ name) (rest : List Char) :
    (name ++ '"' :: rest).takeWhile (· != '"') = name ∧ (name ++ '"' :: rest).dropWhile
    (· != '"') = '"' :: rest := by
  have all : ∀ c ∈ name, (c != '"') = true := by
    rintro c mem
    rw [bne_iff_ne]
    rintro rfl
    exact clear mem
  rw [List.takeWhile_append_of_pos all, List.dropWhile_append_of_pos all]
  simp

theorem readsFileHere_iff {cs : List Char} : readsFileHere cs = true ↔ ∃ name, Opens name cs := by
  unfold readsFileHere
  constructor
  · intro reads
    split at reads
    · next rest start =>
        obtain ⟨filled, closed⟩ := Bool.and_eq_true_iff.mp reads
        refine ⟨rest.takeWhile (· != '"'), by simpa using filled, ?_, ?_⟩
        · intro mem
          simpa using List.mem_takeWhile_imp mem
        · obtain ⟨tail, spelled⟩ := Option.isSome_iff_exists.mp closed
          have behind : rest.dropWhile (· != '"') = "\")".toList ++ tail :=
            String.toList_ofList.symm.trans (Text.after?_eq_some_iff.mp spelled)
          refine ⟨tail, ?_⟩
          rw [Text.after?_eq_some_iff.mp start, List.append_assoc, List.append_assoc, ← behind,
            List.takeWhile_append_dropWhile]
    · cases reads
  · rintro ⟨name, filled, clear, tail, rfl⟩
    have text : "file(\"".toList ++ name ++ "\")".toList ++ tail = "file(\"".toList ++
        (name ++ '"' :: ')' :: tail) := by
      simp
    obtain ⟨taken, dropped⟩ := span_quoted clear (')' :: tail)
    rw [text, Text.after?_eq_some_iff.mpr rfl]
    simp only [taken, dropped]
    simp [filled, Text.startsWith, Text.after?]

theorem readsFile_iff {cs : List Char} : readsFile cs = true ↔ ∃ i name, Opens name (cs.drop i) := by
  induction cs with
  | nil =>
    simp [readsFile, Opens]
  | cons c cs ih =>
    rw [readsFile, Bool.or_eq_true, readsFileHere_iff, ih]
    constructor
    · rintro (here | ⟨i, later⟩)
      · exact ⟨0, here⟩
      · exact ⟨i + 1, later⟩
    · rintro ⟨i, found⟩
      cases i with
      | zero => exact .inl found
      | succ i => exact .inr ⟨i, found⟩

theorem Opens.unique {name other cs : List Char} (h : Opens name cs) (h' : Opens other cs) :
    name = other := by
  obtain ⟨-, clear, tail, rfl⟩ := h
  obtain ⟨-, clear', tail', same⟩ := h'
  simp only [List.append_assoc, List.append_cancel_left_eq] at same
  have first := (span_quoted clear (')' :: tail)).1
  have second := (span_quoted clear' (')' :: tail')).1
  exact first.symm.trans ((congrArg _ same.symm).trans second)

theorem FirstFile.unique {s name other : String} (h : FirstFile s name) (h' : FirstFile s other) :
    name = other := by
  obtain ⟨i, here, before⟩ := h
  obtain ⟨j, there, before'⟩ := h'
  rcases Nat.lt_trichotomy i j with less | rfl | less
  · exact absurd here (before' i less _)
  · exact String.toList_inj.mp (here.unique there)
  · exact absurd there (before j less _)

/-- A text reads files just if one of them is the first. -/
theorem readsFile_iff_existsUnique {s : String} :
    readsFile s.toList = true ↔ ∃! name, FirstFile s name := by
  rw [readsFile_iff]
  constructor
  · intro reads
    classical
    obtain ⟨name, opens⟩ := Nat.find_spec reads
    have first : FirstFile s (String.ofList name) := by
      refine ⟨Nat.find reads, by rwa [String.toList_ofList], fun j less other found => ?_⟩
      exact Nat.find_min reads less ⟨other, found⟩
    exact ⟨_, first, fun other later => later.unique first⟩
  · rintro ⟨name, ⟨i, found, -⟩, -⟩
    exact ⟨i, _, found⟩

def reference (name : String) : String := "$\x7bfile(\"" ++ name ++ "\")\x7d"

def referred (s : String) : String := if readsFile s.toList then fileReference else s

theorem reference_inj {name other : String} : reference name = reference other ↔ name = other := by
  simp [reference]

theorem referred_eq_reference_iff {s name : String} (first : FirstFile s name) :
    referred s = reference name ↔ name = "nginx.conf" := by
  have reads : readsFile s.toList = true :=
    readsFile_iff_existsUnique.mpr ⟨name, first, fun other later => later.unique first⟩
  have only : fileReference = reference "nginx.conf" := rfl
  rw [referred, if_pos reads, only, reference_inj, eq_comm]

theorem referred_of_none {s : String} (clear : ∀ name, ¬ FirstFile s name) : referred s = s := by
  rw [referred, if_neg]
  intro reads
  obtain ⟨name, first, -⟩ := readsFile_iff_existsUnique.mp reads
  exact clear name first

def keyed (path : List Step) : Bool := path.getLast?.elim false Step.isKey

def rewritten (leaf : List Step × Data) : List Step × Data :=
  (leaf.1, if keyed leaf.1 then leaf.2.onText referred else leaf.2)

theorem leaves_withFiles (d : Data) : (withFiles d).leaves = d.leaves.map rewritten := by
  rw [withFiles, Data.leaves_mapTexts]
  refine List.map_congr_left fun leaf _ => ?_
  unfold rewritten keyed
  cases leaf.1.getLast?.elim false Step.isKey with
  | false => cases leaf.2 <;> rfl
  | true => rfl

/-- A leaf before and after texts are made references. A text under a key that reads a file has the
reference to its first file in its place just if playbooks read that file; all else stays. -/
structure Referred (before after : List Step × Data) : Prop where
  path : after.1 = before.1
  named : ∀ s name, keyed before.1 = true → before.2 = .str s → FirstFile s name →
    (after.2 = .str (reference name) ↔ name = "nginx.conf")
  other : (∀ s name, keyed before.1 = true → before.2 = .str s → ¬ FirstFile s name) →
    after.2 = before.2

theorem referred_rewritten (leaf : List Step × Data) : Referred leaf (rewritten leaf) where
  path := rfl
  named s name under text first := by
    rw [rewritten, if_pos under, text, Data.onText, Data.str.injEq, referred_eq_reference_iff first]
  other clear := by
    cases under : keyed leaf.1 with
    | false => rw [rewritten, under, if_neg Bool.false_ne_true]
    | true =>
      rw [rewritten, if_pos under]
      cases text : leaf.2 with
      | str s => rw [Data.onText, referred_of_none fun name => clear s name under text]
      | _ => rfl

/-- In a value the leaves keep their places, and each becomes what it has to be just if it reads no
file but the one that playbooks read. -/
theorem withFiles_names_iff (d : Data) : List.Forall₂ Referred d.leaves (withFiles d).leaves := by
  rw [leaves_withFiles, List.forall₂_map_right_iff]
  exact List.forall₂_same.mpr fun leaf _ => referred_rewritten leaf

namespace Sample

def copied : Data := .map [("src", .str "file(\"app.conf\")")]

end Sample

/-- The name of the file is lost. -/
theorem fileName_lost : Sample.copied.at? [.key "src"] = some (.str "file(\"app.conf\")") ∧
    FirstFile "file(\"app.conf\")" "app.conf" ∧
    (withFiles Sample.copied).at? [.key "src"] = some (.str (reference "nginx.conf")) ∧
    reference "nginx.conf" ≠ reference "app.conf" := by
  refine ⟨rfl, ⟨0, ⟨by simp, by decide, ⟨[], rfl⟩⟩, by simp⟩, rfl, ?_⟩
  rw [ne_eq, reference_inj]
  decide

end Stratus.Ansible.Plays
