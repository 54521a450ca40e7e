import Stratus.Proofs.Json.Shown
import Stratus.Service.Convert
import Stratus.World.Disk

/-!
Mappings as a file. They are shown as in messages, with double quotes for all single ones, and read
as JSON; they come back just if all their characters are tame.
-/
namespace Stratus.Landscape

open Assoc hiding set
open List

open Json

theorem shownEntries_eq (m : Assoc String) :
    Data.shownEntries (mapValues .str m) = m.map fun e =>
      Text.shown e.1 ++ ": " ++ Text.shown e.2 := by
  induction m with
  | nil => rfl
  | cons e m ih => exact congrArg (_ :: ·) ih

theorem requoted_lines (m : Assoc String) :
    (Text.commas (Data.shownEntries (mapValues .str m))).toList.map requoted = lines glyphsOf m := by
  have one (e : String × String) : (Text.shown e.1 ++ ": " ++ Text.shown e.2).toList.map requoted =
      line (glyphsOf e.1) (glyphsOf e.2) := by
    rw [String.toList_append, String.toList_append, map_append, map_append, requoted_shown,
      requoted_shown, line, append_assoc]
    rfl
  rw [shownEntries_eq, Text.commas, String.toList_intercalate, map_map, lines]
  induction m with
  | nil => rfl
  | cons e m ih =>
    cases m with
    | nil => simpa using one e
    | cons e' m =>
      rw [map_cons, map_cons, intercalate_cons_cons, map_cons, map_cons,
        intercalate_cons_cons, map_append, map_append]
      rw [map_cons, map_cons] at ih
      rw [ih, ← one e]
      rfl

def mappingsChars (m : Assoc String) : List Char := '\x7b' :: (lines glyphsOf m ++ ['\x7d'])

theorem mappingsText?_eq {l : Landscape} {m : Assoc String}
    (given : l.mappings = .map (mapValues .str m))
    (nonempty : m ≠ []) : l.mappingsText? = some (String.ofList (mappingsChars m)) := by
  have holds : l.mappings.holds = true := by
    rw [given]
    cases m with
    | nil => exact absurd rfl nonempty
    | cons e m => rfl
  have text : l.mappings.text = "\x7b" ++ Text.commas (Data.shownEntries (mapValues .str m)) ++
      "\x7d" := by
    rw [given]
    rfl
  rw [mappingsText?, if_pos holds]
  congr 1
  apply String.toList_inj.mp
  rw [show "'" = String.singleton '\'' from rfl, show "\"" = String.singleton '"' from rfl,
    Text.replace_singleton,
    String.toList_ofList, text, String.toList_append, String.toList_append, map_append, map_append]
  have inner : (Text.commas (Data.shownEntries (mapValues .str m))).toList.map
      (fun c => if c = '\'' then '"' else c) = lines glyphsOf m := requoted_lines m
  rw [inner]
  rfl

variable {e : String × String} {m : Assoc String}

theorem composed_mappings {P : Char → Prop} (base : ∀ d, Tame d → P d)
    (own : ∀ x ∈ e :: m, ∀ s ∈ [x.1, x.2], Text.shownQuote s ∈ s.toList → P '"') :
    Composed (fun g => g.Fits P ∧ '\r' ∉ g.written) (mappingsChars (e :: m)) := by
  have sign (c : Char) (mem : c ∈ [':', ' ', ',', '\x7b', '\x7d']) :
      (Glyph.plain c).Fits P ∧ '\r' ∉ (Glyph.plain c).written := by
    have plain : ∀ c ∈ [':', ' ', ',', '\x7b', '\x7d'], Tame c ∧ c ≠ '\\' ∧ c ≠ '\r' := by
      simp only [forall_mem_cons, not_mem_nil, false_imp_iff, implies_true]
      decide
    obtain ⟨tame, free, solid⟩ := plain c mem
    exact fits_plain base tame free solid
  have text (x : String × String) (given : x ∈ e :: m) (s : String)
    (part : s ∈ [x.1, x.2]) (g : Glyph)
      (mem : g ∈ glyphsOf s) : g.Fits P ∧ '\r' ∉ g.written := by
    obtain ⟨c, inside, mem⟩ := mem_flatMap.mp mem
    exact (shows_char _ c).fits base (shownQuote_cases s)
      (fun same => own x given s part (same ▸ inside)) mem
  have inner : Composed (fun g => g.Fits P ∧ '\r' ∉ g.written) (lines glyphsOf (e :: m)) := by
    apply composed_lines
    · intro c mem
      rcases mem_cons.mp mem with rfl | mem
      · exact fits_quote
      · exact sign c (mem_append_left ['\x7b', '\x7d'] mem)
    · intro x given
      exact ⟨text x given x.1 (by simp), text x given x.2 (by simp)⟩
  exact (composed_one (sign '\x7b' (by simp))).append
    (inner.append (composed_one (sign '\x7d' (by simp))))

/-- What is read of a file of mappings has tame characters only, and double quotes only if some text
has the quote it is shown in. -/
theorem throughout_of_read {P : Char → Prop} (base : ∀ d, Tame d → P d)
    (own : ∀ x ∈ e :: m, ∀ s ∈ [x.1, x.2], Text.shownQuote s ∈ s.toList → P '"')
    (h : Json.read (String.ofList (mappingsChars (e :: m))) = .ok (.map (mapValues .str (e :: m)))) :
    ∀ x ∈ e :: m, Throughout P x.1 ∧ Throughout P x.2 := by
  have clean : Clean P (String.ofList (mappingsChars (e :: m))).toList := by
    rw [String.toList_ofList]
    exact (composed_mappings base own).imp fun g fits => fits.1
  have texts := texts_of_read clean h
  intro x mem
  have entry : (x.1, Data.str x.2) ∈ mapValues Data.str (e :: m) := mem_map_of_mem mem
  cases texts with
  | map names inner =>
    refine ⟨names x.1 _ entry, ?_⟩
    cases inner x.1 _ entry with
    | str h => exact h

theorem withUnixNewlines_mappings (e : String × String) (m : Assoc String) :
    Text.withUnixNewlines (String.ofList (mappingsChars (e :: m))) =
      String.ofList (mappingsChars (e :: m)) := by
  obtain ⟨gs, same, all⟩ := composed_mappings (P := fun _ => True) (e := e) (m := m)
    (fun _ _ => trivial) (fun _ _ _ _ _ => trivial)
  rw [Text.withUnixNewlines, String.toList_ofList, Text.unifyNewlines_of_notMem]
  rw [same]
  intro mem
  obtain ⟨g, inside, mem⟩ := mem_flatMap.mp mem
  exact (all g inside).2 mem

theorem readText_bind {α : Type} {disk : Disk} {path text : String} (file : disk.read path = .ok text)
    (f : String → Outcome α) : (disk.readText path >>= f) = f (Text.withUnixNewlines text) := by
  rw [Disk.readText, file]
  rfl

/-- A file of mappings is read as these mappings exactly if every character of them is tame. -/
theorem mappings_file_decodes_iff {l : Landscape} {m : Assoc String}
    (given : l.mappings = .map (Assoc.mapValues .str m)) (nonempty : m ≠ [])
    (nodup : (Assoc.keys m).Nodup) :
    ∃ text, l.mappingsText? = some text ∧ ∀ (disk : Disk) (path : String),
      disk.read path = .ok text →
      ((disk.readText path >>= Json.read) = .ok l.mappings ↔
        ∀ x ∈ m, Throughout Tame x.1 ∧ Throughout Tame x.2) := by
  refine ⟨_, mappingsText?_eq given nonempty, ?_⟩
  intro disk path file
  obtain ⟨e, m, rfl⟩ := exists_cons_of_ne_nil nonempty
  have text : (disk.readText path >>= Json.read) =
      Json.read (String.ofList (mappingsChars (e :: m))) := by
    rw [readText_bind file, withUnixNewlines_mappings]
  rw [text, given]
  constructor
  · intro read
    -- First no text has a single quote, so that all are shown in single quotes; then none has a
    -- double one.
    have once := throughout_of_read (P := fun c => Tame c ∨ c = '"') (fun _ => .inl)
      (fun _ _ _ _ _ => .inr rfl) read
    refine throughout_of_read (fun _ tame => tame) ?_ read
    intro x mem s part quoted
    have free : '\'' ∉ s.toList := by
      intro single
      have either : Tame '\'' ∨ '\'' = '"' := by
        rcases mem_pair.mp part with rfl | rfl
        · exact (once x mem).1 _ single
        · exact (once x mem).2 _ single
      revert either
      decide
    rw [shownQuote_of_notMem free] at quoted
    exact absurd quoted free
  · intro tame
    apply read_lines _ nodup
    intro x mem
    exact ⟨means_glyphsOf (tame x mem).1, means_glyphsOf (tame x mem).2⟩

namespace Sample

def mapped (m : Assoc String) : Landscape :=
  { services := [], providers := [], mappings := .map (mapValues .str m) }

def disk (text : String) : Disk := Disk.put {} "mappings.json" text

def paths : Assoc String := [("compute.web", "C:\\site\n"), ("compute.db", "größe")]

def possessive : Assoc String := [("a", "it's")]

end Sample

theorem mappings_file_decodes_paths :
    ∃ text, (Sample.mapped Sample.paths).mappingsText? = some text ∧
    ((Sample.disk text).readText "mappings.json" >>= Json.read) = .ok
    (Sample.mapped Sample.paths).mappings := by
  have distinct : (Assoc.keys Sample.paths).Nodup := by decide
  obtain ⟨text, written, decodes⟩ :=
    mappings_file_decodes_iff (l := Sample.mapped Sample.paths) rfl (by decide) distinct
  have file : (Sample.disk text).read "mappings.json" = .ok text := rfl
  refine ⟨text, written, (decodes _ _ file).mpr ?_⟩
  decide

/-- An apostrophe ends its text too early. -/
theorem mappings_file_with_apostrophe :
    ∃ text, (Sample.mapped Sample.possessive).mappingsText? = some text ∧
    ((Sample.disk text).readText "mappings.json" >>= Json.read) = .error
    (.badJson .expectingComma 1 11 10) :=
  ⟨"\x7b\"a\": \"it\"s\"\x7d", rfl, rfl⟩

end Stratus.Landscape
