import Stratus.Proofs.Deploy.Footprint
import Stratus.Proofs.Deploy.Keys

/-!
Applying an infrastructure configuration leaves its directory as it was: the old one is moved aside
for the time of the run, and however the run ends it comes back.
-/
namespace Stratus

namespace Infrastructure

open Disk hiding readText
open Effect Playbook Session

variable {path : String}

def draft (dir : String) : String := Path.join dir "main.tf.json.tmp"

def backup (dir : String) : String := Path.join dir "main.tf.backup"

/-- The names of the configuration, of the one prepared and of the one put aside. -/
def moves : List String := ["main.tf.json", "main.tf.json.tmp", "main.tf.backup"]

theorem name_of_mem_moves {name : String} (h : name ∈ moves) : Name name := by
  have all : ∀ name ∈ moves, name ≠ "" ∧ name ≠ "." ∧ '/' ∉ name.toList ∧ name ≠ ".." ∧
    name ≠ "work" := by decide
  obtain ⟨nonempty, dot, slash, up, work⟩ := all name h
  exact ⟨⟨nonempty, dot, slash⟩, up, work⟩

theorem config_mem : "main.tf.json" ∈ moves := by decide

theorem draft_mem : "main.tf.json.tmp" ∈ moves := by decide

theorem backup_mem : "main.tf.backup" ∈ moves := by decide

section Names

variable {dir : String}

theorem withSuffix_configFile : Path.withSuffix (configFile dir) ".backup" = backup dir := by
  have stem : Path.stem "main.tf.json" = "main.tf" := rfl
  have named : Path.Plain (Path.stem "main.tf.json" ++ ".backup") :=
    (name_of_mem_moves backup_mem).toPlain
  rw [configFile, Path.withSuffix_join (name_of_mem_moves config_mem).toPlain dir named, stem]
  rfl

theorem normal_join_ne {name other : String} (h : name ∈ moves) (h' : other ∈ moves)
    (apart : name ≠ other) :
    normal (Path.join dir name) ≠ normal (Path.join dir other) := by
  rwa [normal_join (name_of_mem_moves h), normal_join (name_of_mem_moves h'), Ne,
    String.append_right_inj]

theorem config_ne_draft : normal (configFile dir) ≠ normal (draft dir) :=
  normal_join_ne config_mem draft_mem (by decide)

theorem config_ne_backup : normal (configFile dir) ≠ normal (backup dir) :=
  normal_join_ne config_mem backup_mem (by decide)

theorem draft_ne_backup : normal (draft dir) ≠ normal (backup dir) :=
  normal_join_ne draft_mem backup_mem (by decide)

end Names

/-! ### Moving the files -/

/-- The disk with the prepared text in the place of the configuration. -/
def swap (d : Disk) (dir text content : String) : Disk :=
  ((d.put (draft dir) text).moved (configFile dir) (backup dir) content).moved (draft dir)
    (configFile dir) text

/-- Names whose change leaves the moved files alone. -/
def Spares (names : String → Prop) (dir : String) : Prop :=
  ∀ file ∈ moves, ∀ name, names name → ¬ Under (normal (Path.join dir file)) name

/-- Outside some names the texts are those from before, and nothing is left of the run. -/
structure Restored (names : String → Prop) (dir : String) (d d' : Disk) : Prop where
  texts : ∀ name, ¬ names name → (d'.textsAt name).head? = (d.textsAt name).head?
  no_draft : d'.holds (draft dir) = false
  no_backup : d'.holds (backup dir) = false

section Moving

variable {names : String → Prop} {dir text content : String} {d d' : Disk}

theorem textsAt_eq_nil (free : d.holds path = false) : d.textsAt (normal path) = [] := by
  by_contra there
  rw [Bool.eq_false_iff] at free
  exact free (holds_iff.mpr (.inr (.inl (.inl there))))

theorem textsAt_swap_backup (text content : String) (free : d.holds (backup dir) = false) :
    (swap d dir text content).textsAt (normal (backup dir)) = [content] := by
  rw [swap, textsAt_moved_of_ne draft_ne_backup config_ne_backup,
    textsAt_moved_target config_ne_backup,
    textsAt_put_of_ne _ _ _ draft_ne_backup, textsAt_eq_nil free, List.tail_nil]

theorem textsAt_swap_draft (text content : String) (free : d.holds (draft dir) = false) :
    (swap d dir text content).textsAt (normal (draft dir)) = [] := by
  rw [swap, textsAt_moved_source config_ne_draft.symm,
    textsAt_moved_of_ne config_ne_draft draft_ne_backup.symm,
    textsAt_put_self, textsAt_eq_nil free, List.tail_nil, List.tail_cons]

namespace Spares

variable (h : Spares names dir) {file : String} (mem : file ∈ moves)

include h mem

theorem outside : ¬ names (normal (Path.join dir file)) :=
  fun inside => h file mem _ inside (.inl rfl)

theorem above (name : String) (inside : names name) : normal (Path.join dir file) ∉ parents name :=
  fun above =>
  h file mem name inside (under_of_mem_parents above)

theorem holds_eq (same : SameOutside names d d') :
    d'.holds (Path.join dir file) = d.holds (Path.join dir file) :=
  same.holds_eq (h.outside mem) (h.above mem)

end Spares

theorem restored_of_sameOutside (spares : Spares names dir) (noDraft : d.holds (draft dir) = false)
    (noBackup : d.holds (backup dir) = false)
    (same : SameOutside names d d') : Restored names dir d d' where
  texts name outside := by rw [(same name outside).1]
  no_draft := (spares.holds_eq draft_mem same).trans noDraft
  no_backup := (spares.holds_eq backup_mem same).trans noBackup

theorem Restored.after {m : Disk} (same : SameOutside names d m) (h : Restored names dir m d') :
    Restored names dir d d' where
  texts name outside := by rw [h.texts name outside, (same name outside).1]
  no_draft := h.no_draft
  no_backup := h.no_backup

def OnTheWay (dir name : String) : Prop := ∃ file ∈ moves, Under name (normal (Path.join dir file))

theorem sameOutside_put_onTheWay {file : String} (d : Disk) (text : String) (mem : file ∈ moves) :
    SameOutside (OnTheWay dir) d (d.put (Path.join dir file) text) :=
  (sameOutside_put d _ text).mono fun _ same => ⟨file, mem, .inl same.symm⟩

theorem sameOutside_moved_onTheWay {file target : String} (d : Disk) (text : String)
    (mem : file ∈ moves)
    (member' : target ∈ moves) :
    SameOutside (OnTheWay dir) d (d.moved (Path.join dir file) (Path.join dir target) text) := by
  refine (sameOutside_moved d _ _ text).mono ?_
  rintro name (source | goal | above)
  · exact ⟨file, mem, .inl source.symm⟩
  · exact ⟨target, member', .inl goal.symm⟩
  · exact ⟨file, mem, under_of_mem_parents above⟩

theorem sameOutside_swap (d : Disk) (dir text content : String) :
    SameOutside (OnTheWay dir) d (swap d dir text content) :=
  .trans (sameOutside_put_onTheWay d text draft_mem)
    (.trans (sameOutside_moved_onTheWay _ content config_mem backup_mem)
      (sameOutside_moved_onTheWay _ text draft_mem config_mem))

section Back

variable (spares : Spares names dir) (same : SameOutside names (swap d dir text content) d')

include spares same

/-- A moved file that has no text left is gone: neither the moves nor the run have made a directory
of it. -/
theorem not_holds_back {file : String} (mem : file ∈ moves)
    (free : d.holds (Path.join dir file) = false)
    (gone : (d'.moved (backup dir) (configFile dir) content).textsAt
      (normal (Path.join dir file)) = []) :
    (d'.moved (backup dir) (configFile dir) content).holds (Path.join dir file) = false := by
  have named := name_of_mem_moves mem
  have beside {other : String} (h : other ∈ moves) :
      normal (Path.join dir file) ∉ parents (normal (Path.join dir other)) :=
    normal_join_notMem_parents named (name_of_mem_moves h)
  have changes : SameOutside (fun name => names name ∨ OnTheWay dir name) d
      (d'.moved (backup dir) (configFile dir) content) :=
    .trans ((sameOutside_swap d dir text content).mono fun _ => .inr)
      (.trans (same.mono fun _ => .inl)
        ((sameOutside_moved_onTheWay d' content backup_mem config_mem).mono fun _ => .inr))
  refine changes.not_holds free ?_ ?_
  · rintro (kept | made)
    · exact kept gone
    · rw [mem_made_moved, (same _ (spares.outside mem)).2, swap, mem_made_moved,
        mem_made_moved] at made
      rcases made with ((before | above) | above) | above
      · rw [Bool.eq_false_iff] at free
        exact free (holds_iff.mpr (.inr (.inl (.inr before))))
      · exact beside config_mem above
      · exact beside draft_mem above
      · exact beside backup_mem above
  · rintro name (inside | ⟨other, h, under⟩) above
    · exact spares.above mem name inside above
    · exact not_under_of_mem_parents named (name_of_mem_moves h) above under

theorem restored_back (there : (d.textsAt (normal (configFile dir))).head? = some content)
    (noDraft : d.holds (draft dir) = false) (noBackup : d.holds (backup dir) = false) :
    Restored names dir d (d'.moved (backup dir) (configFile dir) content) := by
  have draftGone : (d'.moved (backup dir) (configFile dir) content).textsAt
      (normal (draft dir)) = [] := by
    have kept := (same (normal (draft dir)) (spares.outside draft_mem)).1
    rw [textsAt_moved_of_ne draft_ne_backup.symm config_ne_draft, kept,
      textsAt_swap_draft text content noDraft]
  have backupGone : (d'.moved (backup dir) (configFile dir) content).textsAt
      (normal (backup dir)) = [] := by
    have kept := (same (normal (backup dir)) (spares.outside backup_mem)).1
    rw [textsAt_moved_source config_ne_backup.symm, kept,
      textsAt_swap_backup text content noBackup, List.tail_cons]
  refine ⟨fun name outside => ?_, not_holds_back spares same draft_mem noDraft draftGone,
    not_holds_back spares same backup_mem noBackup backupGone⟩
  by_cases config : normal (configFile dir) = name
  · subst config
    rw [textsAt_moved_target config_ne_backup.symm, there, List.head?_cons]
  by_cases drafted : normal (draft dir) = name
  · rw [← drafted, draftGone, textsAt_eq_nil noDraft]
  by_cases aside : normal (backup dir) = name
  · rw [← aside, backupGone, textsAt_eq_nil noBackup]
  rw [textsAt_moved_of_ne aside config, (same name outside).1, swap,
    textsAt_moved_of_ne drafted config,
    textsAt_moved_of_ne config aside, textsAt_put_of_ne _ _ _ drafted]

end Back

end Moving

section Run

variable {names : String → Prop} {dir : String} {m : Session} {content : String} {config : Data}
  {body : Job Unit}

/-- A run with a prepared configuration either does not begin, or moves the old one back. -/
theorem end_swapped (there : (m.disk.textsAt (normal (configFile dir))).head? = some content)
    (noBackup : m.disk.holds (backup dir) = false) (kept : ∀ s : Session, s.script = m.script →
      (body.perform s).2.disk.textsAt (normal (backup dir)) = s.disk.textsAt
      (normal (backup dir))) :
    ((swapped dir config body).perform m).2.disk = m.disk ∨
      ∃ text, ((swapped dir config body).perform m).2.disk =
        (body.perform { m with disk := swap m.disk dir text content }).2.disk.moved (backup dir)
        (configFile dir)
          content := by
  rcases written : m.disk.write (draft dir) (Json.write .indented config) with fault | d
  · left
    have failed : Fails (Job.write (draft dir) (Json.write .indented config)) m fault m :=
      Job.fails_changeDisk_iff.mpr ⟨written, rfl⟩
    rw [show (swapped dir config body).perform m = _ from fails_bind_iff.mpr (.inl failed)]
  · right
    obtain rfl := write_eq_ok written
    set text := Json.write .indented config
    refine ⟨text, ?_⟩
    have drafted : Returns (Job.write (draft dir) text) m
        () { m with disk := m.disk.put (draft dir) text } :=
      Job.returns_changeDisk_iff.mpr ⟨_, written, rfl⟩
    have aside : Returns (Job.changeDisk (·.rename (configFile dir) (backup dir)))
        { m with disk := m.disk.put (draft dir) text } ()
        { m with disk :=
            (m.disk.put (draft dir) text).moved (configFile dir) (backup dir) content } := by
      apply Job.returns_rename
      rw [textsAt_put_of_ne _ _ _ config_ne_draft.symm, there]
    have placed : Returns (Job.changeDisk (·.rename (draft dir) (configFile dir)))
        { m with disk :=
            (m.disk.put (draft dir) text).moved (configFile dir) (backup dir) content } ()
        { m with disk := swap m.disk dir text content } := by
      apply Job.returns_rename
      rw [textsAt_moved_of_ne config_ne_draft draft_ne_backup.symm, textsAt_put_self,
        List.head?_cons]
    rcases ran : body.perform { m with disk := swap m.disk dir text content } with ⟨r, m'⟩
    have left : m'.disk.textsAt (normal (backup dir)) = [content] := by
      rw [← textsAt_swap_backup text content noBackup,
        ← kept { m with disk := swap m.disk dir text content } rfl, ran]
    have held : m'.disk.holds (backup dir) = true := by
      refine holds_iff.mpr (.inr (.inl (.inl ?_)))
      rw [left]
      exact List.cons_ne_nil _ _
    have back : Returns (Job.changeDisk fun d =>
          if d.holds (backup dir) then d.rename (backup dir) (configFile dir) else .ok d) m' ()
        { m' with disk := m'.disk.moved (backup dir) (configFile dir) content } := by
      refine Job.returns_changeDisk_iff.mpr ⟨_, ?_, rfl⟩
      rw [if_pos held]
      exact rename_of_head (by rw [left, List.head?_cons])
    have inside : (do Job.changeDisk (·.rename (draft dir) (configFile dir)); body).perform
        { m with disk :=
            (m.disk.put (draft dir) text).moved (configFile dir) (backup dir) content } = (r, m') :=
      (bind_run_of_returns placed).trans ran
    have run : (swapped dir config body).perform m =
        (r, { m' with disk := m'.disk.moved (backup dir) (configFile dir) content }) := by
      unfold swapped
      dsimp only
      rw [withSuffix_configFile]
      calc
        _ = _ := bind_run_of_returns drafted
        _ = _ := bind_run_of_returns aside
        _ = _ := tryFinally_run_of_returns inside back
    rw [run]

theorem head?_of_readJson {s : Session} (run : Returns (Job.readJson path) s config m) :
    ∃ content, (s.disk.textsAt (normal path)).head? = some content := by
  obtain ⟨text, m', readText, -⟩ := returns_bind_iff.mp run
  obtain ⟨d, m'', looked, unixed⟩ := returns_bind_iff.mp readText
  cases looked
  rw [← toOption_read]
  rcases file : s.disk.read path with fault | content
  · rw [Disk.readText, file] at unixed
    cases unixed
  · exact ⟨content, rfl⟩

theorem restored_swapped (spares : Spares names dir)
    (there : (m.disk.textsAt (normal (configFile dir))).head? = some content)
    (noDraft : m.disk.holds (draft dir) = false) (noBackup : m.disk.holds (backup dir) = false)
    (kept : ∀ s : Session, s.script = m.script → SameOutside names s.disk (body.perform s).2.disk) :
    Restored names dir m.disk ((swapped dir config body).perform m).2.disk := by
  have aside (s : Session) (h : s.script = m.script) := (kept s h _ (spares.outside backup_mem)).1
  rcases end_swapped there noBackup aside with same | ⟨text, moved⟩
  · rw [same]
    exact restored_of_sameOutside spares noDraft noBackup (.refl _)
  · rw [moved]
    exact restored_back spares (kept _ rfl) there noDraft noBackup

section Apply

variable {p : Preparation} {own created : String → Prop} {s : Session}
  (keyed : ∀ config provider region,
    Keeps (Footprint (fun _ => True) own) (p.enterKey config provider region))

include keyed

variable (script : ∀ reply ∈ s.script, ∀ name, reply.Creates name → created name)
  (spares : Spares (fun name => own name ∨ created name) dir)
  (noDraft : s.disk.holds (draft dir) = false) (noBackup : s.disk.holds (backup dir) = false)

include script spares noDraft noBackup

theorem restored_body : Restored (fun name => own name ∨ created name) dir s.disk
    ((do swapped dir (← prepared p dir) deploy : Job Unit).perform s).2.disk := by
  rcases returns_or_fails (prepared p dir) s with ⟨config, m, run⟩ | ⟨fault, m, run⟩
  · have before := (keeps_prepared keyed).returns run
    have same := before.sameOutside script
    obtain ⟨_, _, read, -⟩ := returns_bind_iff.mp run
    obtain ⟨content, there⟩ := head?_of_readJson read
    rw [← (same (normal (configFile dir)) (spares.outside config_mem)).1] at there
    have stillNoDraft : m.disk.holds (draft dir) = false :=
      (spares.holds_eq draft_mem same).trans noDraft
    have stillNoBackup : m.disk.holds (backup dir) = false :=
      (spares.holds_eq backup_mem same).trans noBackup
    have begun : (do swapped dir (← prepared p dir) deploy : Job Unit).perform s =
        (swapped dir config deploy).perform m :=
      bind_run_of_returns run
    rw [begun]
    refine .after same (restored_swapped spares there stillNoDraft stillNoBackup fun t unread => ?_)
    refine Footprint.sameOutside (keeps_deploy (fun _ => trivial) t) fun reply mem => ?_
    exact script reply (before.script_subset (unread ▸ mem))
  · rw [show Job.perform _ s = _ from fails_bind_iff.mpr (.inl run)]
    exact restored_of_sameOutside spares noDraft noBackup
      (((keeps_prepared keyed).fails run).sameOutside script)

theorem restored_apply (h : p.tfvars = none) : ∃ s', (apply p dir).perform s = (.ok (), s') ∧
    Restored (fun name => own name ∨ created name) dir s.disk s'.disk := by
  have restored := restored_body keyed script spares noDraft noBackup
  rw [apply_eq h]
  rcases run : (do swapped dir (← prepared p dir) deploy : Job Unit).perform s with ⟨fault | u, m⟩
  · rw [run] at restored
    exact ⟨_, tryCatch_run_of_fails run, restored⟩
  · rw [run] at restored
    exact ⟨m, tryCatch_run_of_returns run, restored⟩

end Apply

end Run

end Infrastructure

/-- A path at the directory of keys or below it. -/
def Keys.Inside (dir path : String) : Prop :=
  Disk.Under (Disk.normal (directory dir)) (Disk.normal path)

namespace Infrastructure

open Disk

theorem not_under_of_under_keys {dir file name : String} (mem : file ∈ moves)
    (inside : Under (normal (Keys.directory dir)) name) :
    ¬ Under (normal (Path.join dir file)) name := by
  intro under
  obtain ⟨rest, keys⟩ := inside.eq_append
  obtain ⟨more, moved⟩ := under.eq_append
  rw [keys, Keys.normal_directory, normal_join (name_of_mem_moves mem), String.append_assoc,
    String.append_assoc, String.append_right_inj] at moved
  have first := congrArg (fun text => text.toList.head?) moved
  have letters : ∀ name ∈ moves, name.toList.head? = some 'm' := by decide
  simp [letters file mem] at first

theorem spares_keys {dir : String} {script : List Reply}
    (commands : ∀ reply ∈ script, ∀ created ∈ reply.creates, Below dir created.1 →
      Keys.Inside dir created.1) :
    Spares (fun name => Under (normal (Keys.directory dir)) name ∨ ∃ reply ∈ script,
      reply.Creates name) dir := by
  rintro file mem name (inside | ⟨reply, listed, created, creates, rfl⟩) under
  · exact not_under_of_under_keys mem inside under
  · have below := below_of_under (name_of_mem_moves mem) under
    exact not_under_of_under_keys mem (commands reply listed created creates below) under

end Infrastructure

namespace Apply

/-- Outside the directory of keys each file has its text from before, and neither the prepared
configuration nor the one put aside is left. -/
theorem infrastructure_restores (dir : String) (s : Session)
    (noDraft : s.disk.holds (Infrastructure.draft dir) = false)
    (noBackup : s.disk.holds (Infrastructure.backup dir) = false)
    (commands : ∀ reply ∈ s.script, ∀ created ∈ reply.creates, Disk.Below dir created.1 →
      Keys.Inside dir created.1) :
    ∃ s', (infrastructure dir).perform s = (.ok (), s') ∧
      (∀ path, Disk.Below dir path → ¬ Keys.Inside dir path →
        (s'.disk.read path).toOption = (s.disk.read path).toOption) ∧
      s'.disk.holds (Infrastructure.draft dir) = false ∧
        s'.disk.holds (Infrastructure.backup dir) = false := by
  have made : Disk.Under (Disk.normal (Keys.directory dir)) (Disk.normal (Keys.directory dir)) :=
    .inl rfl
  have written : Disk.Under (Disk.normal (Keys.directory dir)) (Disk.normal (Keys.created dir)) :=
    .inr ⟨_, by
      rw [Keys.normal_created, Keys.normal_privateKey, String.append_assoc, String.append_assoc,
        String.append_assoc]⟩
  have keyed (config : Data) (provider : String) (region : Data) :
      Effect.Keeps (Session.Footprint (fun _ => True)
        (Disk.Under (Disk.normal (Keys.directory dir))))
        (enterKey dir config provider region) :=
    (keeps_enterKey made written).mono fun _ _ kept => kept.mono (fun _ _ => trivial) fun _ => id
  have listed (reply : Reply) (mem : reply ∈ s.script) (name : String)
    (creates : reply.Creates name) :
      ∃ reply ∈ s.script, reply.Creates name := ⟨reply, mem, creates⟩
  obtain ⟨s', run, restored⟩ :=
    Infrastructure.restored_apply
      (p := { needsKey, enterKey := enterKey dir, addAddresses, tfvars := none }) keyed listed
      (Infrastructure.spares_keys commands) noDraft noBackup rfl
  refine ⟨s', run, fun path below outside => ?_, restored.no_draft, restored.no_backup⟩
  rw [Disk.toOption_read, Disk.toOption_read]
  apply restored.texts
  rintro (inside | ⟨reply, mem, created, creates, same⟩)
  · exact outside inside
  · unfold Disk.Below at below
    unfold Keys.Inside at outside
    rw [← same] at below outside
    exact outside (commands reply mem created creates below)

/-- A machine without a key, and a tool that refuses the configuration and writes about it
elsewhere. -/
def denied : Session where
  disk :=
    { files := [("IaC/main.tf.json",
    "\x7b\"resource\": \x7b\"aws_instance\": \x7b\"web\": \x7b\x7d\x7d\x7d\x7d")] }
  locator := .ofTable "" []
  answers := [("create_key_pair", [Keys.Sample.material "k1"]),
    ("describe_key_pairs", [Keys.Sample.pairs []])]
  script := [{}, { code := 1, err := "Error: denied", creates := [("denied.log", "main.tf.json")] }]

/-- After a key was set up and the deployment failed, the directory is as it was. -/
theorem infrastructure_restores_denied :
    ∃ s', (infrastructure "IaC").perform denied = (.ok (), s') ∧
    s'.commands = [["terraform", "init"], ["terraform", "apply", "-auto-approve", "-no-color"]] ∧
    (∀ path, Disk.Below "IaC" path → ¬ Keys.Inside "IaC" path →
      (s'.disk.read path).toOption = (denied.disk.read path).toOption) ∧
    s'.disk.holds "IaC/main.tf.json.tmp" = false ∧ s'.disk.holds "IaC/main.tf.backup" = false := by
  have elsewhere : ¬ Disk.Below "IaC" "denied.log" := by
    rintro ⟨rest, same, -⟩
    have first := congrArg (fun text => text.toList.head?) same
    rw [show Disk.normal "denied.log" = "denied.log" from rfl,
      show Disk.within "IaC" = "IaC/" from rfl] at first
    simp at first
  have commands : ∀ reply ∈ denied.script, ∀ created ∈ reply.creates,
      Disk.Below "IaC" created.1 → Keys.Inside "IaC" created.1 := by
    simp [denied, elsewhere]
  obtain ⟨s', run, texts, noDraft, noBackup⟩ :=
    infrastructure_restores "IaC" denied rfl rfl commands
  have asked : ((infrastructure "IaC").perform denied).2.commands =
      [["terraform", "init"], ["terraform", "apply", "-auto-approve", "-no-color"]] := by
        decide +kernel
  rw [run] at asked
  exact ⟨s', run, asked, texts, noDraft, noBackup⟩

end Apply

end Stratus
