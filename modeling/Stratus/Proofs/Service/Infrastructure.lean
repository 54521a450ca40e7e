import Stratus.Proofs.Service.Reading

/-!
Blocks of sections. Lists may stand around blocks and entries; only the maps in them count, in
order. The components of an infrastructure block are those of its entries.
-/
namespace Stratus

namespace Data

theorem lower_eq_ok_iff {d : Data} {s : String} :
    d.lower = .ok s ↔ ∃ text, d = str text ∧ Text.lower text = s := by
  cases d <;> simp [lower, strFor, refuse, Functor.map, Except.map]

end Data

namespace Landscape

/-- A content that can be read: a map, with a text for its operating system. -/
def Listing.Readable (e : Listing) : Prop := e.content.isMap = true ∧ e.system.isStr = true

instance (e : Listing) : Decidable e.Readable := inferInstanceAs (Decidable (_ ∧ _))

theorem describe_eq_ok_iff {fallback : Data} {e : Listing} (named : e.kind ≠ "")
    (distinct : e.content.distinct = true)
    (c : Component) : describe fallback e = .ok c ↔ e.Readable ∧ c = e.component fallback := by
  obtain ⟨kind, name, content⟩ := e
  cases content with
  | map entries =>
    have placed : (kind == "") = false := beq_false_of_ne named
    have rest : Assoc.without entries (takenFrom kind) = entries.filter fun entry =>
      !taken.contains entry.1 := by
      rw [takenFrom, placed]
      exact Assoc.without_eq_filter (Data.distinct_map_iff.mp distinct).1 taken
    rw [describe_map, rest, placed, Outcome.bind_eq_ok_iff]
    constructor
    · rintro ⟨os, lowered, made⟩
      cases made
      obtain ⟨text, given, rfl⟩ := Data.lower_eq_ok_iff.mp lowered
      have system : Listing.system ⟨kind, name, .map entries⟩ = .str text := given
      refine ⟨⟨rfl, by rw [system]; rfl⟩, ?_⟩
      unfold Listing.component
      rw [system]
      rfl
    · rintro ⟨⟨-, text⟩, rfl⟩
      cases given : Listing.system ⟨kind, name, .map entries⟩ with
      | str text =>
        refine ⟨Text.lower text, Data.lower_eq_ok_iff.mpr ⟨text, given, rfl⟩, ?_⟩
        unfold Listing.component
        rw [given]
        rfl
      | _ =>
        rw [given] at text
        cases text
  | _ =>
    constructor
    · intro h
      cases h
    · rintro ⟨⟨h, -⟩, -⟩
      cases h

def componentListing (block : Data) : List Listing := listing Data.maps Data.maps block

/-- A block is read just when each of its contents can be, and into one component for each entry, in
order. -/
theorem infrastructure_eq_ok_iff_listing {fallback block : Data} (distinct : block.distinct = true)
    (named : ∀ e ∈ componentListing block, e.kind ≠ "") (cs : List Component) :
    infrastructure fallback block = .ok cs ↔
      (∀ e ∈ componentListing block, e.Readable) ∧ cs = (componentListing block).map
      (Listing.component fallback) := by
  rw [componentListing, ← listings_eq] at named ⊢
  rw [infrastructure_eq]
  apply Outcome.mapM_eq_ok_iff_map
  intro e mem
  exact describe_eq_ok_iff (named e mem) (distinct_listings distinct mem)

namespace Sample

/-- Lists around a block and around the entries of its first section, and a section that is a text.
-/
def fleet : Data := .list [
  .list [.map [("compute", .list [
    .list [.map [("a", .map [("count", .int 2), ("providers", .str "east"), ("size", .str "s")])]],
    .map [("b", .map [("provider", .null), ("providers", .str "east"), ("os", .str "CentOS")])]])]],
  .map [("note", .str "n"), ("network", .map [("c", .map [("module", .bool true)])])]]

end Sample

theorem infrastructure_of_fleet : Sample.fleet.distinct = true ∧
    (componentListing Sample.fleet).map (fun e => (e.kind, e.name)) =
      [("compute", "a"), ("compute", "b"), ("network", "c")] ∧
    infrastructure (.str "west") Sample.fleet = .ok [
      { name := "a", kind := .str "compute", count := .int 2, provider := .str "east"
        attributes := [("size", .str "s")], packageManager := .str "apt" },
      { name := "b", kind := .str "compute", attributes := [("os", .str "CentOS")],
        packageManager := .str "yum" },
      { name := "c", kind := .str "network", provider := .str "west", module := .bool true
        packageManager := .str "apt" }] := by
  refine ⟨by decide, by decide, ?_⟩
  exact (infrastructure_eq_ok_iff_listing (by decide) (by decide) _).mpr ⟨by decide, rfl⟩

end Landscape

end Stratus
