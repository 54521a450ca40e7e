import Stratus.Proofs.Assoc
import Stratus.Proofs.World.Path

/-!
What changes on a disk and what stays: outside the names that a change is about, files keep their
texts and directories stay what they are.
-/
namespace Stratus.Disk

open List hiding keys
open Assoc hiding set

/-- All texts under a name; the first one is the text of the file. -/
def textsAt (d : Disk) (name : String) : List String := valuesAt d.files name

/-- A name of a file or of a directory that was made. -/
def Kept (d : Disk) (name : String) : Prop := d.textsAt name ≠ [] ∨ name ∈ d.made

section Reading

variable {d : Disk} {path : String}

theorem textsAt_ne_nil_iff {name : String} : d.textsAt name ≠ [] ↔ name ∈ keys d.files := by
  rw [Ne, textsAt, valuesAt_eq_nil_iff, not_not]

theorem isFile_iff : d.isFile path = true ↔ d.textsAt (normal path) ≠ [] := by
  rw [textsAt_ne_nil_iff]
  exact contains_iff

theorem isDir_iff : d.isDir path = true ↔
    normal path = "" ∨ normal path ∈ d.made ∨ ∃ q, d.Kept q ∧ normal path ∈ parents q := by
  simp only [isDir, Bool.or_eq_true, beq_iff_eq, contains_iff_mem, any_eq_true, Kept,
    textsAt_ne_nil_iff, keys, mem_map]
  constructor
  · rintro (((empty | made) | ⟨f, mem, above⟩) | ⟨m, mem, above⟩)
    · exact .inl empty
    · exact .inr (.inl made)
    · exact .inr (.inr ⟨f.1, .inl ⟨f, mem, rfl⟩, above⟩)
    · exact .inr (.inr ⟨m, .inr mem, above⟩)
  · rintro (empty | made | ⟨q, ⟨f, mem, rfl⟩ | mem, above⟩)
    · exact .inl (.inl (.inl empty))
    · exact .inl (.inl (.inr made))
    · exact .inl (.inr ⟨f, mem, above⟩)
    · exact .inr ⟨q, mem, above⟩

theorem holds_iff : d.holds path = true ↔
    normal path = "" ∨ d.Kept (normal path) ∨ ∃ q, d.Kept q ∧ normal path ∈ parents q := by
  rw [holds, Bool.or_eq_true, isFile_iff, isDir_iff, Kept, or_left_comm, or_assoc]

theorem toOption_read : (d.read path).toOption = (d.textsAt (normal path)).head? := by
  rw [textsAt, head?_valuesAt, read]
  cases get? d.files (normal path) with
  | some text => rfl
  | none =>
    dsimp only
    split <;> rfl

theorem read_eq_ok_iff {text : String} :
    d.read path = .ok text ↔ (d.textsAt (normal path)).head? = some text := by
  rw [← toOption_read]
  cases d.read path <;> simp [Except.toOption]

theorem read_congr {d' : Disk}
    (texts : (d'.textsAt (normal path)).head? = (d.textsAt (normal path)).head?)
    (folder : d'.isDir path = d.isDir path) : d'.read path = d.read path := by
  rw [textsAt, textsAt, head?_valuesAt, head?_valuesAt] at texts
  rw [read, read, texts, folder]

theorem exists_readText_iff :
    (∃ text, d.readText path = .ok text) ↔ d.textsAt (normal path) ≠ [] := by
  rw [readText]
  constructor
  · rintro ⟨text, unixed⟩ free
    have unread : (d.read path).toOption = none := by rw [toOption_read, free, head?_nil]
    cases file : d.read path with
    | error fault =>
      rw [file] at unixed
      cases unixed
    | ok content =>
      rw [file] at unread
      cases unread
  · intro there
    obtain ⟨content, rest, texts⟩ := exists_cons_of_ne_nil there
    rw [read_eq_ok_iff.mpr (by rw [texts, head?_cons])]
    exact ⟨_, rfl⟩

end Reading

/-- Two disks that agree on all names but those of a set. -/
def SameOutside (names : String → Prop) (d d' : Disk) : Prop :=
  ∀ name, ¬ names name → d'.textsAt name = d.textsAt name ∧ (name ∈ d'.made ↔ name ∈ d.made)

namespace SameOutside

variable {names more : String → Prop} {d m d' : Disk}

theorem refl (d : Disk) : SameOutside names d d := fun _ _ => ⟨rfl, .rfl⟩

theorem trans (first : SameOutside names d m) (second : SameOutside names m d') :
    SameOutside names d d' :=
  fun name outside =>
    ⟨(second name outside).1.trans (first name outside).1,
      (second name outside).2.trans (first name outside).2⟩

theorem mono (h : SameOutside names d d') (sub : ∀ name, names name → more name) :
    SameOutside more d d' :=
  fun name outside => h name fun inside => outside (sub name inside)

theorem kept_iff (h : SameOutside names d d') {name : String} (outside : ¬ names name) :
    d'.Kept name ↔ d.Kept name := by
  rw [Kept, Kept, (h name outside).1, (h name outside).2]

variable {path : String}

theorem holds_eq (h : SameOutside names d d') (outside : ¬ names (normal path))
    (above : ∀ name, names name → normal path ∉ parents name) : d'.holds path = d.holds path := by
  have below (q : String) (inside : normal path ∈ parents q) : d'.Kept q ↔ d.Kept q :=
    h.kept_iff fun changed => above q changed inside
  rw [Bool.eq_iff_iff, holds_iff, holds_iff, h.kept_iff outside]
  refine or_congr_right (or_congr_right (exists_congr fun q => ?_))
  exact and_congr_left (below q)

/-- A directory stays one, and nothing becomes one, if nothing at it or below it changes. -/
theorem isDir_eq (h : SameOutside names d d') (made : normal path ∈ d'.made ↔ normal path ∈ d.made)
    (above : ∀ name, names name → normal path ∉ parents name) : d'.isDir path = d.isDir path := by
  rw [Bool.eq_iff_iff, isDir_iff, isDir_iff, made]
  refine or_congr_right (or_congr_right (exists_congr fun q => and_congr_left fun inside => ?_))
  exact h.kept_iff fun changed => above q changed inside

/-- What was not there is not there afterwards if it is not kept and nothing changed below it. -/
theorem not_holds (h : SameOutside names d d') (free : d.holds path = false)
    (gone : ¬ d'.Kept (normal path)) (above : ∀ name, names name → normal path ∉ parents name) :
    d'.holds path = false := by
  rw [Bool.eq_false_iff, Ne, holds_iff] at free ⊢
  rintro (empty | kept | ⟨q, kept, inside⟩)
  · exact free (.inl empty)
  · exact gone kept
  · have outside : ¬ names q := fun changed => above q changed inside
    exact free (.inr (.inr ⟨q, (h.kept_iff outside).mp kept, inside⟩))

end SameOutside

section Changes

variable (d : Disk) (path text : String)

theorem textsAt_put_self : (d.put path text).textsAt (normal path) = text ::
    (d.textsAt (normal path)).tail :=
  valuesAt_set_self _ _

variable {name target : String}

theorem textsAt_put_of_ne (other : normal path ≠ name) :
    (d.put path text).textsAt name = d.textsAt name :=
  valuesAt_set_of_ne _ _ other

theorem textsAt_remove_self :
    (d.remove path).textsAt (normal path) = (d.textsAt (normal path)).tail :=
  valuesAt_erase_self _

theorem textsAt_remove_of_ne (other : normal path ≠ name) :
    (d.remove path).textsAt name = d.textsAt name :=
  valuesAt_erase_of_ne _ other

theorem mem_made_remove : name ∈ (d.remove path).made ↔
    name ∈ d.made ∨ name ∈ parents (normal path) := by
  simp only [remove, mem_append, mem_filter, Bool.not_eq_true', contains_eq_mem,
    decide_eq_false_iff_not]
  by_cases there : name ∈ d.made <;> simp [there]

theorem sameOutside_put : SameOutside (· = normal path) d (d.put path text) := fun _ other =>
  ⟨textsAt_put_of_ne d path text fun same => other same.symm, .rfl⟩

theorem sameOutside_remove :
    SameOutside (fun name => name = normal path ∨ name ∈ parents (normal path)) d
      (d.remove path) := by
  intro name other
  rw [not_or] at other
  refine ⟨textsAt_remove_of_ne d path fun same => other.1 same.symm, ?_⟩
  rw [mem_made_remove]
  exact or_iff_left other.2

theorem sameOutside_puts (files : Assoc String) :
    SameOutside (fun name => ∃ file ∈ files, normal file.1 = name) d (d.puts files) := by
  induction files generalizing d with
  | nil => exact .refl d
  | cons file files ih =>
    have first : SameOutside (fun name => ∃ f ∈ file :: files, normal f.1 = name) d
        (d.put file.1 file.2) :=
      (sameOutside_put d file.1 file.2).mono fun name same => ⟨file, mem_cons_self, same.symm⟩
    refine first.trans ((ih _).mono ?_)
    rintro name ⟨f, mem, same⟩
    exact ⟨f, mem_cons_of_mem _ mem, same⟩

theorem head?_textsAt_puts {files : Assoc String}
    (distinct : (files.map fun file => normal file.1).Nodup)
    {file : String × String} (mem : file ∈ files) :
    ((d.puts files).textsAt (normal file.1)).head? = some file.2 := by
  induction files generalizing d with
  | nil => cases mem
  | cons first files ih =>
    rw [map_cons, nodup_cons] at distinct
    rcases mem_cons.mp mem with rfl | later
    · have untouched : ¬ ∃ f ∈ files, normal f.1 = normal file.1 := fun ⟨f, there, same⟩ =>
        distinct.1 (mem_map.mpr ⟨f, there, same⟩)
      have kept := (sameOutside_puts (d.put file.1 file.2) files (normal file.1) untouched).1
      rw [puts, foldl_cons, ← puts, kept, textsAt_put_self, head?_cons]
    · exact ih _ distinct.2 later

theorem textsAt_put_ne_nil (there : d.textsAt name ≠ []) : (d.put path text).textsAt name ≠ [] := by
  by_cases same : normal path = name
  · rw [← same, textsAt_put_self]
    exact cons_ne_nil _ _
  · rwa [textsAt_put_of_ne d path text same]

theorem textsAt_puts_ne_nil (files : Assoc String) (there : d.textsAt name ≠ []) :
    (d.puts files).textsAt name ≠ [] := by
  induction files generalizing d with
  | nil => exact there
  | cons file files ih => exact ih _ (textsAt_put_ne_nil d file.1 file.2 there)

variable {d path text} {d' : Disk}

theorem put_normal : d.put (normal path) text = d.put path text := by
  rw [put, put, normal_normal]

theorem write_eq_ok (h : d.write path text = .ok d') : d' = d.put path text := by
  unfold write at h
  dsimp only at h
  split at h
  · cases h
  · split at h
    · split at h
      · cases h
        exact put_normal
      · cases h
    · cases h
      exact put_normal

/-- In a directory that is there a file is written unless a directory has its name. -/
theorem write_in {parent : String} (last : (parents (normal path)).getLast? = some parent)
    (there : d.isDir parent = true) :
    d.write path text = if d.isDir path then .error (.isDirectory path)
      else .ok (d.put path text) := by
  have place : d.isDir (normal path) = d.isDir path := by rw [isDir, isDir, normal_normal]
  rw [write, place, last]
  simp only [there, if_true, put_normal]

theorem makeDir_eq : d.makeDir path = if d.isFile path then .error (.fileExists path)
    else .ok (if d.isDir path then d else { d with made := d.made ++ [normal path] }) := by
  rw [makeDir, isFile, isDir, normal_normal]
  rfl

theorem makeDir_eq_ok (h : d.makeDir path = .ok d') :
    d.isFile path = false ∧ d' = if d.isDir path then d
      else { d with made := d.made ++ [normal path] } := by
  rw [makeDir_eq] at h
  split at h
  · cases h
  · next free =>
      cases h
      exact ⟨Bool.eq_false_iff.mpr free, rfl⟩

/-- A directory, and not a file as well. -/
def IsFolder (d : Disk) (path : String) : Prop := d.isFile path = false ∧ d.isDir path = true

theorem makeDir_of_isFolder (h : d.IsFolder path) : d.makeDir path = .ok d := by
  rw [makeDir_eq, h.1, h.2]
  rfl

theorem isFolder_of_makeDir (h : d.makeDir path = .ok d') : d'.IsFolder path := by
  obtain ⟨free, rfl⟩ := makeDir_eq_ok h
  split
  · next there => exact ⟨free, there⟩
  · exact ⟨free, isDir_iff.mpr (.inr (.inl (mem_append_right _ (mem_singleton_self _))))⟩

theorem isDir_put (h : d.isDir path = true) : (d.put target text).isDir path = true := by
  rw [isDir_iff] at h ⊢
  refine h.imp_right (Or.imp_right ?_)
  rintro ⟨q, kept, above⟩
  exact ⟨q, kept.imp_left (textsAt_put_ne_nil d target text), above⟩

theorem IsFolder.put (h : d.IsFolder path) (other : normal target ≠ normal path) :
    (d.put target text).IsFolder path := by
  refine ⟨?_, isDir_put h.2⟩
  have free := h.1
  rw [Bool.eq_false_iff, Ne, isFile_iff, not_not] at free ⊢
  rw [textsAt_put_of_ne d target text other, free]

theorem sameOutside_makeDir (h : d.makeDir path = .ok d') : SameOutside (· = normal path) d d' := by
  obtain ⟨-, rfl⟩ := makeDir_eq_ok h
  split
  · exact .refl d
  · intro name other
    refine ⟨rfl, ?_⟩
    simp [other]

def moved (d : Disk) (path target text : String) : Disk := (d.remove path).put target text

theorem rename_of_head (h : (d.textsAt (normal path)).head? = some text) :
    d.rename path target = .ok (d.moved path target text) := by
  rw [rename, read_eq_ok_iff.mpr h]
  rfl

section Moved

variable {target name : String} (apart : normal path ≠ normal target)

theorem textsAt_moved_of_ne (source : normal path ≠ name) (goal : normal target ≠ name) :
    (d.moved path target text).textsAt name = d.textsAt name := by
  rw [moved, textsAt_put_of_ne _ _ _ goal, textsAt_remove_of_ne _ _ source]

include apart

theorem textsAt_moved_source :
    (d.moved path target text).textsAt (normal path) = (d.textsAt (normal path)).tail := by
  rw [moved, textsAt_put_of_ne _ _ _ apart.symm, textsAt_remove_self]

theorem textsAt_moved_target :
    (d.moved path target text).textsAt
    (normal target) = text :: (d.textsAt (normal target)).tail := by
  rw [moved, textsAt_put_self, textsAt_remove_of_ne _ _ apart]

end Moved

theorem mem_made_moved :
    name ∈ (d.moved path target text).made ↔ name ∈ d.made ∨ name ∈ parents (normal path) :=
      mem_made_remove d path

theorem sameOutside_moved (d : Disk) (path target text : String) :
    SameOutside (fun name => name = normal path ∨ name = normal target ∨
      name ∈ parents (normal path)) d
      (d.moved path target text) := by
  refine .trans ((sameOutside_remove d path).mono ?_) ((sameOutside_put _ target text).mono ?_)
  · rintro name (same | above)
    · exact .inl same
    · exact .inr (.inr above)
  · exact fun name same => .inr (.inl same)

end Changes

end Stratus.Disk
