import Stratus.Proofs.Terraform.Naming

/-!
Meta-arguments. The blocks of data sources and modules carry what they are given; the block of a
resource carries none of it, whatever the tree says.
-/
namespace Stratus.Terraform

open Assoc hiding set

open Landscape (Listing Reads listed taken)

variable {providers : Assoc Data} {addresses : Addresses} {tree : Data}

/-- An argument that a tree gives under one name and a block carries under another. -/
structure MetaArgument where
  given : String
  written : String
  value : Component → Data
  /-- Whether a value is more than the lack of one. -/
  counts : Data → Bool

def metaArguments : List MetaArgument := [
  ⟨"count", "count", Component.count, fun d => !d.isNull⟩,
  ⟨"for_each", "for_each", Component.forEach, fun d => !d.isNull⟩,
  ⟨"lifecycle", "lifecycle", Component.lifecycle, Data.holds⟩,
  ⟨"provisioners", "provisioner", Component.provisioners, Data.holds⟩]

def Slot.isResource : Slot → Bool
  | resource _ _ => true
  | data _ _ | module _ => false

namespace MetaArgument

def given? (a : MetaArgument) (entries : Assoc Data) : Option Data :=
  (get? entries a.given).filter a.counts

def Kept (a : MetaArgument) (entries : Assoc Data) (block : Data) : Prop :=
  ∀ d, a.given? entries = some d → block.step? (.key a.written) = some d

variable {a : MetaArgument} (mem : a ∈ metaArguments)

include mem

theorem written_ne : a.written ≠ "provider" ∧ a.written ≠ "depends_on" ∧
    a.written ≠ "component_type" := by
  revert a
  decide

theorem value_of_given {entries : Assoc Data} {c : Component} (reads : Reads entries c) {d : Data}
    (h : a.given? entries = some d) : a.value c = d ∧ a.counts d = true := by
  obtain ⟨found, counts⟩ := Option.filter_eq_some_iff.mp h
  refine ⟨?_, counts⟩
  have read : a.value c = getD entries a.given .null := by
    simp only [metaArguments, List.mem_cons, List.not_mem_nil, or_false] at mem
    rcases mem with rfl | rfl | rfl | rfl
    · exact reads.count
    · exact reads.forEach
    · exact reads.lifecycle
    · exact reads.provisioners
  rw [read, getD, found, Option.getD_some]

end MetaArgument

def addMeta (c : Component) (block : Assoc Data) (a : MetaArgument) : Assoc Data :=
  if a.counts (a.value c) then set a.written (a.value c) block else block

theorem withMeta_eq (c : Component) (block : Assoc Data) :
    withMeta c block = metaArguments.foldl (addMeta c) block := by
  unfold withMeta metaArguments
  simp only [List.foldl_cons, List.foldl_nil, addMeta]
  cases c.count.isNull <;> cases c.forEach.isNull <;> rfl

section Added

variable {c : Component} {as : List MetaArgument} {block : Assoc Data}

theorem get?_addMeta_of_ne {a : MetaArgument} {key : String} (other : a.written ≠ key) :
    get? (addMeta c block a) key = get? block key := by
  unfold addMeta
  split
  · rw [set, get?_set, if_neg other]
  · rfl

theorem get?_foldl_addMeta_of_notMem {key : String} (other : key ∉ as.map MetaArgument.written) :
    get? (as.foldl (addMeta c) block) key = get? block key := by
  induction as generalizing block with
  | nil => rfl
  | cons a rest ih =>
    rw [List.map_cons, List.mem_cons, not_or] at other
    rw [List.foldl_cons, ih other.2, get?_addMeta_of_ne (Ne.symm other.1)]

theorem get?_foldl_addMeta {a : MetaArgument} (apart : (as.map MetaArgument.written).Nodup)
    (mem : a ∈ as) (counts : a.counts (a.value c) = true) :
    get? (as.foldl (addMeta c) block) a.written = some (a.value c) := by
  induction as generalizing block with
  | nil => cases mem
  | cons b rest ih =>
    obtain ⟨new, apart⟩ := List.nodup_cons.mp apart
    rw [List.foldl_cons]
    rcases List.mem_cons.mp mem with rfl | later
    · rw [get?_foldl_addMeta_of_notMem new, addMeta, if_pos counts, set, get?_set, if_pos rfl]
    · exact ih apart later

theorem nodup_keys_foldl_addMeta (h : (keys block).Nodup) :
    (keys (as.foldl (addMeta c) block)).Nodup := by
  induction as generalizing block with
  | nil => exact h
  | cons a rest ih =>
    apply ih
    unfold addMeta
    split
    · exact nodup_keys_set h _ _
    · exact h

end Added

theorem get?_withMeta {a : MetaArgument} (mem : a ∈ metaArguments) {c : Component}
    (counts : a.counts (a.value c) = true) (block : Assoc Data) :
    get? (withMeta c block) a.written = some (a.value c) := by
  rw [withMeta_eq]
  exact get?_foldl_addMeta (by decide) mem counts

theorem nodup_keys_withMeta {block : Assoc Data} (h : (keys block).Nodup) (c : Component) :
    (keys (withMeta c block)).Nodup := by
  rw [withMeta_eq]
  exact nodup_keys_foldl_addMeta h

theorem nodup_keys_renameDynamic {block : Assoc Data} (h : (keys block).Nodup) :
    (keys (renameDynamic block)).Nodup := by
  unfold renameDynamic
  split
  · exact nodup_keys_set (nodup_keys_erase h _) _ _
  · exact h

section Emitted

variable {entries : Assoc Data} {c : Component} {slot : Slot} {block : Data}
  (reads : Reads entries c)
  (nodup : (keys entries).Nodup) (made : emission providers addresses c = .ok (some (slot, block)))

include reads nodup made

variable {a : MetaArgument}

theorem kept_of_emission (other : slot.isResource = false) (mem : a ∈ metaArguments) :
    a.Kept entries block := by
  intro d given
  obtain ⟨rfl, counts⟩ := a.value_of_given mem reads given
  unfold emission at made
  split at made
  · cases made
  · split at made
    · obtain ⟨type, -, last⟩ := Outcome.bind_eq_ok made
      cases last
      exact get?_withMeta mem counts _
    · split at made
      · simp only [Except.ok.injEq, Option.ite_none_right_eq_some, Option.some.injEq,
          Prod.mk.injEq] at made
        obtain ⟨-, -, rfl⟩ := made
        have own := nodup_keys_renameDynamic (nodup_keys_erase (reads.nodup nodup) "source")
        rw [Data.step?, get?_update _ (nodup_keys_withMeta own c), get?_withMeta mem counts,
          Option.some_or]
      · obtain ⟨found, -, made⟩ := Outcome.bind_eq_ok made
        cases found with
        | none => cases made
        | some attributes =>
          obtain ⟨_, -, made⟩ := Outcome.bind_eq_ok made
          obtain ⟨type, -, last⟩ := Outcome.bind_eq_ok made
          cases last
          cases other

/-- A resource has under the name of a meta-argument only what the tree gives as an attribute of
that name. -/
theorem step?_of_resource (here : slot.isResource = true) (mem : a ∈ metaArguments) :
    block.step? (.key a.written) =
      if a.written ∈ taken then none else (get? entries a.written).map (resolveAll addresses) := by
  obtain ⟨hp, hd, hk⟩ := a.written_ne mem
  cases slot with
  | resource type name =>
    rw [attribute_of_emission made hp hd]
    split
    · next popped => rw [reads.dropped nodup popped, Option.map_none]
    · next free => rw [reads.kept free hk]
  | _ => cases here

theorem kept_iff_of_emission (mem : a ∈ metaArguments) : a.Kept entries block ↔
    slot.isResource = false ∨ a.given? entries = none ∨
      (a.written ∉ taken ∧ (get? entries a.written).map (resolveAll addresses) =
        a.given? entries) := by
  cases here : slot.isResource with
  | false => exact iff_of_true (kept_of_emission reads nodup made here mem) (.inl rfl)
  | true =>
    rw [MetaArgument.Kept, step?_of_resource reads nodup made here mem]
    cases a.given? entries with
    | none => simp
    | some d => simp

end Emitted

/-- The component of an entry at the turn at which it takes a slot that no later component takes. -/
structure Standing (source : Data) (l : Landscape) (e : Listing) (before : List Component)
    (c : Component) (later : List Component) (slot : Slot) : Prop where
  read : Landscape.ofTree source = .ok l
  turn : laidOut l.services = before ++ c :: later
  entry : (listed source)[before.length]? = some e
  placed : slot? l.providers c = some slot
  alone : ∀ d ∈ later, slot? l.providers d ≠ some slot

/-- The block of a component carries a meta-argument that the tree gives exactly if it is no
resource, or if an attribute has the name of the argument and resolves to its value. -/
theorem generate_keeps_meta_arguments_iff {source : Data} {l : Landscape} {e : Listing}
    {before later : List Component}
    {c : Component} {slot : Slot} (standing : Standing source l e before c later slot)
    (distinct : source.distinct = true) (generated : Generates l.providers l.services tree) :
    ∃ entries block, e.content = .map entries ∧ tree.at? slot.path = some block ∧
      ∀ a ∈ metaArguments, a.Kept entries block ↔ slot.isResource = false ∨ a.given? entries = none ∨
        (a.written ∉ taken ∧ (Assoc.get? entries a.written).map (resolveAll
          ((before ++ [c]).foldl (record (claims l.providers)) (table l.services))) =
          a.given? entries) := by
  obtain ⟨entries, content, reads⟩ := reads_of_turn standing.read standing.turn standing.entry
  obtain ⟨made, block, emitted, written, grown⟩ :=
    written_of_turn generated standing.turn standing.placed standing.alone
  have whole := Landscape.distinct_listed distinct (List.mem_of_getElem? standing.entry)
  rw [content] at whole
  refine ⟨entries, block, content, written, ?_⟩
  intro a mem
  rw [← kept_iff_of_emission reads (Data.distinct_map_iff.mp whole).1 emitted mem, MetaArgument.Kept,
    MetaArgument.Kept, grown.rest a.written (a.written_ne mem).2.1]

namespace Sample

def only (name : String) (content : Assoc Data) : Data :=
  .map [("service", .list [.map [("web", .map [("infrastructure", .list [
    .map [("compute", .list [.map [(name, .map content)]])]])])]])]

def images : Assoc Data := [
  ("resource_type", .str "aws_ami"), ("data_source", .bool true), ("count", .int 2),
  ("lifecycle", .map [("postcondition", .str "self.tags")]), ("owners", .texts ["self"])]

def servers : Assoc Data := [("resource_type", .str "aws_instance"), ("count", .int 3)]

end Sample

theorem generate_keeps_count_and_lifecycle_of_images :
    ∃ l tree, Landscape.ofTree (Sample.only "images" Sample.images) =
      .ok l ∧ Generates l.providers l.services tree ∧
    tree.at? [.key "data", .key "aws_ami", .key "images", .key "count"] = some (.int 2) ∧
    tree.at? [.key "data", .key "aws_ami", .key "images", .key "lifecycle"] =
      some (.map [("postcondition", .str "self.tags")]) := by
  have run : ∃ l c, Standing (Sample.only "images" Sample.images) l
    ⟨"compute", "images", .map Sample.images⟩ [] c []
      (.data "aws_ami" "images") ∧ ∃ tree, Generates l.providers l.services tree :=
    ⟨_, _, ⟨rfl, rfl, rfl, rfl, by simp⟩, .map [
      ("terraform", .map [("required_providers", .map [])]),
      ("data", .map [("aws_ami", .map [("images", .map [
        ("owners", .texts ["self"]), ("count", .int 2),
        ("lifecycle", .map [("postcondition", .str "self.tags")])])])]),
      ("output", .map [("web_images_id", .map [
        ("value", .str "$\x7baws_ami.images.id\x7d"),
        ("description", .str "ID of images in service web")])])],
      _, rfl, rfl⟩
  obtain ⟨l, c, standing, tree, generated⟩ := run
  obtain ⟨entries, block, content, found, kept⟩ :=
    generate_keeps_meta_arguments_iff standing rfl generated
  cases content
  have carried (a : MetaArgument) (mem : a ∈ metaArguments) {d : Data}
    (given : a.given? Sample.images = some d) :
      tree.at? [.key "data", .key "aws_ami", .key "images", .key a.written] = some d := by
    have path : tree.at? (Slot.path (.data "aws_ami" "images") ++ [.key a.written]) = some d :=
      Data.at?_concat_eq_some_iff.mpr ⟨block, found, (kept a mem).mpr (.inl rfl) d given⟩
    exact path
  have count := carried _ List.mem_cons_self rfl
  have lifecycle :=
    carried _ (List.mem_cons_of_mem _ (List.mem_cons_of_mem _ List.mem_cons_self)) rfl
  exact ⟨l, tree, standing.read, generated, count, lifecycle⟩

/-- Servers that are to be three become one. -/
theorem generate_loses_count_of_servers : ∃ l tree block,
    Landscape.ofTree (Sample.only "servers" Sample.servers) = .ok l ∧
      Generates l.providers l.services tree ∧
    tree.at? [.key "resource", .key "aws_instance", .key "servers"] = some block ∧
    ∃ a ∈ metaArguments, a.given? Sample.servers = some (.int 3) ∧
      ¬ a.Kept Sample.servers block := by
  refine ⟨_, .map [
    ("terraform", .map [("required_providers", .map [])]),
    ("resource", .map [("aws_instance", .map [("servers", .map [])])]),
    ("output", .map [("web_servers_id", .map [
      ("value", .str "$\x7baws_instance.servers.id\x7d"),
      ("description", .str "ID of servers in service web")])])],
    _, rfl, ⟨_, rfl, rfl⟩, rfl, ⟨"count", "count", Component.count, fun d => !d.isNull⟩, ?_, rfl, ?_⟩
  · exact List.mem_cons_self
  · intro kept
    cases kept _ rfl

end Stratus.Terraform
