import Stratus.Command.Project
import Stratus.Proofs.World.Job

/-!
Conversions that fail half-way. The files are written one after the other, so what a failed
conversion has written is known from the tree and the disk before it.
-/
namespace Stratus.Project

open Disk Effect

/-- The files that a conversion writes, in the order of the writing. -/
def outputs : List String :=
  ["inventory.yml", "main.tf.json", "playbook.yml", "resources.yml", "mappings.json"].map output

def draftsFrom {α : Type} (x : Outcome α) (files : α → Assoc String) : Assoc String :=
  match x with
  | .ok a => files a
  | .error _ => []

/-- What comes of a tree, in the order of the writing, as far as it can be converted. -/
def drafts (format : DocumentFormat) (tree : Data) : Assoc String :=
  draftsFrom (Landscape.ofTree tree) fun l =>
  draftsFrom l.terraform.1 fun terraform =>
  draftsFrom (Ansible.Plays.generate l.services) fun plays =>
  (output "inventory.yml", format.write { sorted := false } [plays.2]) ::
  draftsFrom (Kubernetes.generate [] l.services) fun resources =>
  (output "main.tf.json", terraform) ::
  (output "playbook.yml", format.write { sorted := false } [plays.1]) ::
  (output "resources.yml", format.write { marked := true } resources) ::
  (l.mappingsText?.map fun text => (output "mappings.json", text)).toList

/-- The files before the first one in whose place there is a directory. -/
def unblocked (d : Disk) (files : Assoc String) : Assoc String :=
  files.takeWhile fun file => !d.isDir file.1

/-- What is written of the tree: its drafts, up to the first one that fails or has no place on the
disk. -/
def written (s : Session) : Assoc String := unblocked s.disk (drafts s.format s.tree)

theorem nodup_outputs : (outputs.map normal).Nodup := by decide +kernel

theorem parents_output {path : String} (mem : path ∈ outputs) :
    parents (normal path) = [outputDirectory] := by
  have all : ∀ path ∈ outputs, parents (normal path) = [outputDirectory] := by decide +kernel
  exact all path mem

theorem output_ne_directory {path : String} (mem : path ∈ outputs) :
    normal path ≠ normal outputDirectory := by
  have all : ∀ path ∈ outputs, normal path ≠ normal outputDirectory := by decide +kernel
  exact all path mem

theorem output_notMem_parents {path name : String} (mem : path ∈ outputs)
    (place : name = normal outputDirectory ∨ ∃ target ∈ outputs, name = normal target) :
    normal path ∉ parents name := by
  have top : parents (normal outputDirectory) = [] := by decide +kernel
  have apart : normal path ≠ outputDirectory := output_ne_directory mem
  rcases place with rfl | ⟨target, there, rfl⟩
  · rw [top]
    exact List.not_mem_nil
  · rwa [parents_output there, List.mem_singleton]

theorem draftsFrom_sublist {α : Type} {x : Outcome α} {files : α → Assoc String} {paths : List String}
    (h : ∀ a, (Assoc.keys (files a)).Sublist paths) :
    (Assoc.keys (draftsFrom x files)).Sublist paths := by
  cases x with
  | ok a => exact h a
  | error fault => exact List.nil_sublist _

theorem keys_drafts_sublist (format : DocumentFormat) (tree : Data) :
    (Assoc.keys (drafts format tree)).Sublist outputs := by
  refine draftsFrom_sublist fun l => draftsFrom_sublist fun terraform =>
    draftsFrom_sublist fun plays => ?_
  refine .cons_cons _ (draftsFrom_sublist fun resources =>
    .cons_cons _ (.cons_cons _ (.cons_cons _ ?_)))
  cases l.mappingsText? with
  | none => exact List.nil_sublist _
  | some text => exact List.Sublist.refl _

theorem keys_written_sublist (s : Session) : (Assoc.keys (written s)).Sublist outputs :=
  ((List.takeWhile_sublist _).map Prod.fst).trans (keys_drafts_sublist s.format s.tree)

theorem mem_outputs_of_written {s : Session} (file : String × String) (mem : file ∈ written s) :
    file.1 ∈ outputs := (keys_written_sublist s).subset (List.mem_map_of_mem mem)

theorem nodup_written (s : Session) : ((written s).map fun file => normal file.1).Nodup := by
  have names := nodup_outputs.sublist ((keys_written_sublist s).map normal)
  rwa [Assoc.keys, List.map_map] at names

/-- A disk on which there is a directory for the files and the same directories in their places as
before. -/
structure Ready (before d : Disk) : Prop where
  folder : d.isDir outputDirectory = true
  places : ∀ path ∈ outputs, d.isDir path = before.isDir path

namespace Ready

variable {before d : Disk} {path text : String}

theorem of_makeDir (made : before.makeDir outputDirectory = .ok d) : Ready before d where
  folder := (isFolder_of_makeDir made).2
  places path mem := by
    have same := sameOutside_makeDir made
    refine same.isDir_eq (same _ (output_ne_directory mem)).2 fun name place => ?_
    exact output_notMem_parents mem (.inl place)

theorem put (h : Ready before d) (mem : path ∈ outputs) : Ready before (d.put path text) where
  folder := isDir_put h.folder
  places other there := by
    rw [← h.places other there]
    refine (sameOutside_put d path text).isDir_eq .rfl fun name place => ?_
    exact output_notMem_parents there (.inr ⟨path, mem, place⟩)

theorem write (h : Ready before d) (mem : path ∈ outputs) :
    d.write path text = if before.isDir path then .error (.isDirectory path)
      else .ok (d.put path text) := by
  rw [← h.places path mem]
  apply write_in _ h.folder
  rw [parents_output mem]
  rfl

theorem puts (h : Ready before d) {files : Assoc String} (all : ∀ file ∈ files, file.1 ∈ outputs) :
    Ready before (d.puts files) := by
  induction files generalizing d with
  | nil => exact h
  | cons file files ih =>
    rw [List.forall_mem_cons] at all
    exact ih (h.put all.1) all.2

end Ready

/-- However it ends, the job has written the files up to the first one that is blocked, and nothing
else. -/
def Leaves (before : Disk) (job : Job Unit) (s : Session) (files : Assoc String) : Prop :=
  (job.perform s).2 = { s with disk := s.disk.puts (unblocked before files) }

section Leaves

variable {α : Type} {before : Disk} {s : Session} {files : Assoc String}

theorem leaves_pure : Leaves before (pure ()) s [] := rfl

theorem leaves_get {f : Session → Job Unit} (rest : Leaves before (f s) s files) :
    Leaves before (get >>= f) s files := rest

theorem leaves_lift {x : Outcome α} {f : α → Job Unit} {g : α → Assoc String}
    (rest : ∀ a, Leaves before (f a) s (g a)) : Leaves before (liftM x >>= f) s (draftsFrom x g) := by
  cases x with
  | ok a => exact rest a
  | error fault => rfl

theorem leaves_write {path text : String} {rest : Unit → Job Unit} (ready : Ready before s.disk)
    (mem : path ∈ outputs) (later : Ready before (s.disk.put path text) →
      Leaves before (rest ()) { s with disk := s.disk.put path text } files) :
    Leaves before (Job.write path text >>= rest) s ((path, text) :: files) := by
  have step : s.disk.write path text = if before.isDir path then .error (.isDirectory path)
      else .ok (s.disk.put path text) := ready.write mem
  unfold Leaves unblocked
  rw [List.takeWhile_cons]
  cases blocked : before.isDir path with
  | true =>
    rw [blocked] at step
    have failed : Fails (Job.write path text) s (.isDirectory path) s :=
      Job.fails_changeDisk_iff.mpr ⟨step, rfl⟩
    have run : (Job.write path text >>= rest).perform s = (.error (.isDirectory path), s) :=
      fails_bind_iff.mpr (.inl failed)
    rw [run]
    rfl
  | false =>
    rw [blocked] at step
    have written : Returns (Job.write path text) s () { s with disk := s.disk.put path text } :=
      Job.returns_changeDisk_iff.mpr ⟨_, step, rfl⟩
    have run : (Job.write path text >>= rest).perform s =
        (rest ()).perform { s with disk := s.disk.put path text } :=
      bind_run_of_returns written
    rw [run]
    exact later (ready.put mem)

theorem leaves_writeDocuments {path : String} {layout : Layout} {docs : List Data}
    {rest : Unit → Job Unit} (ready : Ready before s.disk) (mem : path ∈ outputs)
    (later : Ready before (s.disk.put path (s.format.write layout docs)) →
      Leaves before (rest ()) { s with disk := s.disk.put path (s.format.write layout docs) } files) :
    Leaves before (Job.writeDocuments path layout docs >>= rest) s
      ((path, s.format.write layout docs) :: files) := by
  rw [Job.writeDocuments, bind_assoc]
  exact leaves_get (leaves_write ready mem later)

theorem leaves_write_any {path : String} {text? : Option String} (ready : Ready before s.disk)
    (mem : path ∈ outputs) : Leaves before (text?.forM (Job.write path)) s
    (text?.map fun text => (path, text)).toList := by
  cases text? with
  | none => exact leaves_pure
  | some text =>
    have last : Leaves before (Job.write path text >>= pure) s [(path, text)] :=
      leaves_write ready mem fun _ => leaves_pure
    rwa [bind_pure] at last

/-- The directory is made first, and then the drafts of the tree are written. -/
theorem perform_writeOutputs {d : Disk} (made : s.disk.makeDir outputDirectory = .ok d) :
    (writeOutputs.perform s).2 = { s with disk := d.puts (written s) } := by
  have begun : Returns (Job.changeDisk (·.makeDir outputDirectory)) s () { s with disk := d } :=
    Job.returns_changeDisk_iff.mpr ⟨d, made, rfl⟩
  have run : writeOutputs.perform s = _ := bind_run_of_returns begun
  rw [run]
  -- The drafts are built along the steps of the job, so each step of one is matched by a step of
  -- the other.
  change Leaves s.disk _ { s with disk := d } (drafts s.format s.tree)
  refine leaves_get (leaves_lift fun l => leaves_lift fun terraform => leaves_lift fun plays => ?_)
  have ready : Ready s.disk d := .of_makeDir made
  refine leaves_writeDocuments ready (by decide) fun ready => leaves_lift fun resources => ?_
  refine leaves_write ready (by decide) fun ready =>
    leaves_writeDocuments ready (by decide) fun ready => ?_
  exact leaves_writeDocuments ready (by decide) fun ready => leaves_write_any ready (by decide)

theorem perform_writeOutputs_of_file (file : s.disk.isFile outputDirectory = true) :
    (writeOutputs.perform s).2 = s := by
  have refused : s.disk.makeDir outputDirectory = .error (.fileExists outputDirectory) := by
    rw [makeDir_eq, if_pos file]
  have failed : Fails (Job.changeDisk (·.makeDir outputDirectory)) s
      (.fileExists outputDirectory) s :=
    Job.fails_changeDisk_iff.mpr ⟨refused, rfl⟩
  have run : writeOutputs.perform s = (.error (.fileExists outputDirectory), s) :=
    fails_bind_iff.mpr (.inl failed)
  rw [run]

end Leaves

section Reading

variable {before d : Disk} {files : Assoc String}

theorem read_puts_of_mem (distinct : (files.map fun file => normal file.1).Nodup)
    {file : String × String} (mem : file ∈ files) : (d.puts files).read file.1 = .ok file.2 :=
  read_eq_ok_iff.mpr (head?_textsAt_puts d distinct mem)

theorem read_puts_of_notMem (made : before.makeDir outputDirectory = .ok d)
    (all : ∀ file ∈ files, file.1 ∈ outputs)
    {path : String} (mem : path ∈ outputs) (other : ¬ ∃ file ∈ files, normal file.1 = normal path) :
    (d.puts files).read path = before.read path := by
  have texts : (d.puts files).textsAt (normal path) = before.textsAt (normal path) :=
    (sameOutside_puts d files _ other).1.trans
      (sameOutside_makeDir made _ (output_ne_directory mem)).1
  exact read_congr (congrArg List.head? texts) (((Ready.of_makeDir made).puts all).places path mem)

end Reading

namespace Sample

def portless : Data :=
  .map [("service", .list [.map [("web", .map [("containers", .list [.map [("apps", .list [
    .map [("shop", .map [("image", .str "shop"), ("ports", .list [.map []])])]])]])])]])]

/-- The text of an inventory without hosts. -/
def nobody : String := "all:\n  hosts: \x7b\x7d\n  children: \x7b\x7d\n"

def session (inventory : String) : Session where
  disk := { files := [("IaC/inventory.yml", inventory), ("IaC/main.tf.json", "\x7b\x7d")] }
  locator := .ofTable "" []
  tree := portless
  format := { write := fun _ _ => nobody }

def outline (run : Outcome Unit × Session) : Option Unit × Option String :=
  (run.1.toOption, (run.2.disk.textsAt (normal (output "inventory.yml"))).head?)

theorem fails_of_outline {s : Session} {inventory : String}
    (h : outline (writeOutputs.perform s) = (none, some inventory)) :
    ∃ fault s', Fails writeOutputs s fault s' ∧
      s'.disk.read (output "inventory.yml") = .ok inventory := by
  rcases run : writeOutputs.perform s with ⟨fault | u, s'⟩
  · rw [run] at h
    exact ⟨fault, s', run, read_eq_ok_iff.mpr (congrArg Prod.snd h)⟩
  · rw [run] at h
    cases h

end Sample

/-- A failed conversion leaves all files as they were just if a file is in the place of their
directory, or every draft written before the failure was in its file already. -/
theorem writeOutputs_all_or_nothing_iff {s s' : Session} {fault : Fault}
    (run : Fails writeOutputs s fault s') :
    (∀ path ∈ outputs, s'.disk.read path = s.disk.read path) ↔
      s.disk.isFile outputDirectory = true ∨
        ∀ file ∈ written s, s.disk.read file.1 = .ok file.2 := by
  have after : (writeOutputs.perform s).2 = s' := congrArg Prod.snd run
  cases made : s.disk.makeDir outputDirectory with
  | error fault =>
    have file : s.disk.isFile outputDirectory = true := by
      by_contra free
      rw [makeDir_eq, if_neg free] at made
      cases made
    rw [← after, perform_writeOutputs_of_file file]
    exact ⟨fun _ => .inl file, fun _ _ _ => rfl⟩
  | ok d =>
    have free : s.disk.isFile outputDirectory = false := (makeDir_eq_ok made).1
    rw [perform_writeOutputs made] at after
    simp only [← after, free, Bool.false_eq_true, false_or]
    constructor
    · intro same file mem
      rw [← same file.1 (mem_outputs_of_written file mem)]
      exact read_puts_of_mem (nodup_written _) mem
    · intro there path mem
      by_cases drafted : ∃ file ∈ written s, normal file.1 = normal path
      · obtain ⟨file, inside, named⟩ := drafted
        -- Two outputs with one name are one output, so this file is the one that was written.
        obtain rfl : file.1 = path :=
          List.inj_on_of_nodup_map nodup_outputs (mem_outputs_of_written file inside) mem named
        rw [read_puts_of_mem (nodup_written _) inside, there file inside]
      · exact read_puts_of_notMem made mem_outputs_of_written mem drafted

/-- An inventory that was there already, for a container without the number of its port. -/
theorem writeOutputs_all_or_nothing_of_same :
    let s := Sample.session Sample.nobody
    ∃ fault s', Fails writeOutputs s fault s' ∧
      (∀ file ∈ written s, s.disk.read file.1 = .ok file.2) ∧
      ∀ path ∈ outputs, s'.disk.read path = s.disk.read path := by
  intro s
  have ended : Sample.outline (writeOutputs.perform s) = (none, some Sample.nobody) := by
    decide +kernel
  obtain ⟨fault, s', run, -⟩ := Sample.fails_of_outline ended
  have drafted : ∀ file ∈ written s, (s.disk.textsAt (normal file.1)).head? = some file.2 := by
    decide +kernel
  have there (file : String × String) (mem : file ∈ written s) : s.disk.read file.1 = .ok file.2 :=
    read_eq_ok_iff.mpr (drafted file mem)
  exact ⟨fault, s', run, there, (writeOutputs_all_or_nothing_iff run).mpr (.inr there)⟩

/-- Another inventory is lost, although the conversion fails. -/
theorem writeOutputs_loses_inventory :
    let s := Sample.session "\x7b\x7d"
    ∃ fault s', Fails writeOutputs s fault s' ∧
      s.disk.read (output "inventory.yml") = .ok "\x7b\x7d" ∧
      s'.disk.read (output "inventory.yml") = .ok Sample.nobody := by
  intro s
  have ended : Sample.outline (writeOutputs.perform s) = (none, some Sample.nobody) := by
    decide +kernel
  obtain ⟨fault, s', run, after⟩ := Sample.fails_of_outline ended
  exact ⟨fault, s', run, read_eq_ok_iff.mpr (by decide +kernel), after⟩

end Stratus.Project
