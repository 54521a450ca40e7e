import Stratus.Proofs.World.Session

/-!
The footprints of the steps that jobs are made of. A step that looks or speaks leaves none; one that
asks a command leaves that command, and one that writes leaves the name it wrote.
-/
namespace Stratus

variable {entry : List Data}

namespace Session

variable {may : List String → Prop} {names : String → Prop}

theorem commands_noted (s : Session) (entry : List Data) :
    (s.noted entry).commands = s.commands ++ (commandOf? (.list entry)).toList := by
  have watched (text : Option String) :
      commandOf? (.list [.str "main.tf.json", Data.ofText? text]) = none := by
    cases text <;> rfl
  have last : [Data.list entry].filterMap commandOf? = (commandOf? (.list entry)).toList := by
    cases h : commandOf? (.list entry) <;> simp [h]
  simp only [noted, commands, List.filterMap_append, last]
  split
  · rfl
  · simp [watched]

variable {manner : String}

theorem commands_asked (known : manner ∈ ["Popen", "run", "check_output"]) (s : Session)
    (argv : List Data) :
    (s.asked manner argv).commands = s.commands ++ [argv.map Data.text] := by
  have command : commandOf? (.list [.str manner, .texts (argv.map Data.text)]) =
      some (argv.map Data.text) := by
    rw [Data.texts, commandOf?, if_pos (List.contains_iff_mem.mpr known), List.map_map]
    simp [Data.text]
  have noted := commands_noted s [.str manner, .texts (argv.map Data.text)]
  rw [command] at noted
  exact noted

theorem calls_asked (known : manner ∈ ["Popen", "run", "check_output"]) (s : Session)
    (argv : List Data) :
    Calls s (s.asked manner argv) [(argv.map Data.text, s.nextReply)] :=
  ⟨commands_asked known s argv, rfl, rfl⟩

theorem footprint_noted
    (other : commandOf? (.list entry) = none)
    (s : Session) : Footprint may names s (s.noted entry) := by
  refine .of_same ?_ rfl rfl List.prefix_rfl ⟨refl _, rfl⟩
  rw [commands_noted, other]
  exact List.append_nil _

theorem footprint_asked {argv : List Data}
    (known : manner ∈ ["Popen", "run", "check_output"]) (allowed : may (argv.map Data.text))
    (s : Session) :
    Footprint may names s (s.asked manner argv) where
  calls := by
    refine ⟨_, calls_asked known s argv, by simpa using allowed,
      (Disk.sameOutside_puts s.disk _).mono ?_⟩
    exact fun name created => .inr ⟨_, List.mem_singleton_self _, created⟩
  files _ _ there := Disk.textsAt_puts_ne_nil s.disk _ there
  errors := List.prefix_rfl
  agrees := ⟨refl s.locator, rfl⟩

end Session

/-- A console that prints the news, which it may refuse for the tags in it. -/
def Console.Shows (console : Console) (text : String) : Prop :=
  console.refusal? ("[blue]CLOUD:[/blue] " ++ text) = none

namespace Job

open Effect Session

variable {f : Disk → Outcome Disk} {manner : String} {body : Job Unit}

section Runs

variable {s s' : Session} {fault : Fault}

theorem perform_step {α : Type} (f : Session → Outcome α × Session) (s : Session) :
    (step f).perform s = f s := rfl

theorem returns_aws_iff {operation : String} {arguments : Assoc Data} {answer : Data} :
    Returns (aws operation arguments) s answer s' ↔
      s.answerTo operation = .ok answer ∧ s' = s.consulted operation arguments := by
  change (aws operation arguments).perform s = _ ↔ _
  rw [aws, perform_step, Prod.mk.injEq, eq_comm (a := s')]

theorem returns_ask_iff {argv : List Data} {reply : Reply} : Returns (ask manner argv) s reply s' ↔
    s.nextReply.missing = false ∧ reply = s.nextReply ∧ s' = s.asked manner argv := by
  change (ask manner argv).perform s = _ ↔ _
  rw [ask, perform_step]
  cases s.nextReply.missing <;> simp [eq_comm]

theorem fails_ask_iff {argv : List Data} : Fails (ask manner argv) s fault s' ↔
    s.nextReply.missing = true ∧ fault = .noFile (argv.headD .null).text ∧
      s' = s.asked manner argv := by
  change (ask manner argv).perform s = _ ↔ _
  rw [ask, perform_step]
  cases s.nextReply.missing <;> simp [eq_comm]

theorem returns_changeDisk_iff {u : Unit} :
    Returns (changeDisk f) s u s' ↔ ∃ d, f s.disk = .ok d ∧ s' = { s with disk := d } := by
  change (changeDisk f).perform s = _ ↔ _
  rw [changeDisk, perform_step]
  cases f s.disk <;> simp [eq_comm]

theorem fails_changeDisk_iff :
    Fails (changeDisk f) s fault s' ↔ f s.disk = .error fault ∧ s' = s := by
  change (changeDisk f).perform s = _ ↔ _
  rw [changeDisk, perform_step]
  cases f s.disk <;> simp [eq_comm]

theorem returns_tell_iff {text : String} {u : Unit} :
    Returns (tell text) s u s' ↔ s.console.Shows text ∧ s' = s := by
  rw [tell, say, returns_bind_iff]
  simp only [returns_get_iff, and_assoc, exists_and_left, exists_eq_left, Console.Shows]
  cases s.console.refusal? ("[blue]CLOUD:[/blue] " ++ text) <;> simp

theorem fails_tell {text : String} (run : Fails (tell text) s fault s') : s' = s := by
  rcases fails_bind_iff.mp run with looked | ⟨_, _, looked, refused⟩
  · cases looked
  · cases looked
    split at refused
    · cases refused
      rfl
    · cases refused

theorem returns_rename {path target text : String}
    (there : (s.disk.textsAt (Disk.normal path)).head? = some text) :
    Returns (changeDisk (·.rename path target)) s
      () { s with disk := s.disk.moved path target text } :=
  returns_changeDisk_iff.mpr ⟨_, Disk.rename_of_head there, rfl⟩

variable {α : Type}

theorem perform_trace_iff {t : Tracing α} {r : Outcome α} : (trace t).perform s = (r, s') ↔
    ∃ l, ((t.run s.disk).run.run s.locator).run = (r, l) ∧ s' = { s with locator := l } := by
  rcases inner : ((t.run s.disk).run.run s.locator).run with ⟨r', l⟩
  have whole : (trace t).perform s = (r', { s with locator := l }) := by
    rw [trace, perform_step, show (t.run s.disk).run.run s.locator = (r', l) from inner]
  rw [whole, Prod.mk.injEq]
  constructor
  · rintro ⟨rfl, rfl⟩
    exact ⟨l, rfl, rfl⟩
  · rintro ⟨_, same, rfl⟩
    cases same
    exact ⟨rfl, rfl⟩

theorem returns_trace_iff {t : Tracing α} {a : α} : Returns (trace t) s a s' ↔
    ∃ l, Returns (t.run s.disk) s.locator a l ∧ s' = { s with locator := l } := perform_trace_iff

theorem fails_trace_iff {t : Tracing α} : Fails (trace t) s fault s' ↔
    ∃ l, Fails (t.run s.disk) s.locator fault l ∧ s' = { s with locator := l } := perform_trace_iff

theorem perform_separately {r : Outcome Unit} {m : Session}
    (run : body.perform { s with changes := [], errors := [] } = (r, m)) :
    (separately body).perform s =
      ((fun _ => (m.changes, m.errors)) <$> r,
        { m with changes := s.changes, errors := s.errors }) := by
  let restore : Job (List String × List Diagnosis) := modifyGet fun m =>
    ((m.changes, m.errors), { m with changes := s.changes, errors := s.errors })
  have guarded : (separately body).perform s =
    (tryCatch (body >>= fun _ => restore) fun fault => restore >>= fun _ =>
      throw fault).perform { s with changes := [], errors := [] } := rfl
  rw [guarded]
  cases r with
  | ok u =>
    apply tryCatch_run_of_returns
    exact returns_bind_iff.mpr ⟨u, m, run, rfl⟩
  | error fault =>
    have failed : Fails (body >>= fun _ => restore) { s with changes := [], errors := [] } fault m :=
      fails_bind_iff.mpr (.inl run)
    exact (tryCatch_run_of_fails failed).trans rfl

end Runs

section Keeps

variable {may : List String → Prop} {names : String → Prop} {onOut onErr : String → Job Unit}
  {change text line path operation : String} {settings arguments : Assoc Data} {argv : List Data}

/-- A job that leaves such a footprint, however it ends. -/
abbrev Leaves (may : List String → Prop) (names : String → Prop) {α : Type} (job : Job α) : Prop :=
  Keeps (Footprint may names) job

theorem keeps_modify {g : Session → Session} (h : ∀ s, Footprint may names s (g s)) :
    Leaves may names (modify g : Job PUnit) := fun s => h s

@[grind .] theorem keeps_emit : Leaves may names (emit change) :=
  keeps_modify fun _ => .of_same rfl rfl rfl List.prefix_rfl ⟨refl _, rfl⟩

@[grind .] theorem keeps_report {d : Diagnosis} : Leaves may names (report d) :=
  keeps_modify fun _ => .of_same rfl rfl rfl (List.prefix_append _ _) ⟨refl _, rfl⟩

@[grind .] theorem keeps_echo : Leaves may names (echo text) :=
  keeps_modify fun _ => .of_same rfl rfl rfl List.prefix_rfl ⟨refl _, rfl⟩

@[grind .] theorem keeps_take {part : List String × List Diagnosis} : Leaves may names (take part) :=
  keeps_modify fun _ => .of_same rfl rfl rfl (List.prefix_append _ _) ⟨refl _, rfl⟩

@[grind .] theorem keeps_reportAny {d : Option Diagnosis} : Leaves may names (reportAny d) :=
  keeps_option_forM fun _ => keeps_report

@[grind .] theorem keeps_say : Leaves may names (say line) := by
  unfold say
  grind

@[grind .] theorem keeps_tell : Leaves may names (tell text) := keeps_say

@[grind .] theorem keeps_warn : Leaves may names (warn text) := keeps_say

@[grind .] theorem keeps_alarm : Leaves may names (alarm text) := keeps_say

@[grind .] theorem keeps_announce : Leaves may names (announce change) := by
  unfold announce
  grind

@[grind .] theorem keeps_enter : Leaves may names (enter change) := by
  unfold enter
  grind

@[grind .] theorem keeps_disk : Leaves may names disk := by
  unfold disk
  grind

@[grind .] theorem keeps_readText : Leaves may names (readText path) := by
  unfold readText
  grind

@[grind .] theorem keeps_readJson : Leaves may names (readJson path) := by
  unfold readJson
  grind

@[grind .] theorem keeps_readDocument : Leaves may names (readDocument path) := by
  unfold readDocument
  grind

@[grind .] theorem keeps_requireFile : Leaves may names (requireFile path) := by
  unfold requireFile
  grind

@[grind .] theorem keeps_trace {α : Type} {t : Tracing α} (h : Traces t) :
    Leaves may names (trace t) :=
  fun s => .of_same rfl rfl rfl List.prefix_rfl ⟨h s.disk s.locator, rfl⟩

@[grind .] theorem keeps_inTurn (out : ∀ line, Leaves may names (onOut line))
    (err : ∀ line, Leaves may names (onErr line)) (outs errs : List String) :
    Leaves may names (inTurn onOut onErr outs errs) := by
  fun_induction inTurn onOut onErr outs errs <;> grind

@[grind .] theorem keeps_follow (out : ∀ line, Leaves may names (onOut line))
    (err : ∀ line, Leaves may names (onErr line)) (reply : Reply) :
    Leaves may names (follow onOut onErr reply) := by
  apply keeps_inTurn <;> grind

@[grind .] theorem keeps_watch (out : ∀ line, Leaves may names (onOut line))
    (err : ∀ line, Leaves may names (onErr line)) (looks : List (Nat × Nat))
    (outs errs : List String) :
    Leaves may names (watch onOut onErr looks outs errs) := by
  fun_induction watch onOut onErr looks outs errs <;> grind

theorem keeps_note (other : commandOf? (.list entry) = none) :
    Leaves may names (note entry) := keeps_modify fun s => footprint_noted other s

@[grind .] theorem keeps_sleep {seconds : Int} : Leaves may names (sleep seconds) := keeps_note rfl

@[grind .] theorem keeps_awsSession : Leaves may names (awsSession settings) :=
  keeps_note rfl

@[grind .] theorem keeps_awsClient {name : String} : Leaves may names (awsClient name settings) :=
  keeps_note rfl

@[grind .] theorem keeps_aws : Leaves may names (aws operation arguments) := by
  refine fun s => .of_same ?_ rfl rfl List.prefix_rfl ⟨refl _, rfl⟩
  exact (commands_noted s _).trans (List.append_nil _)

theorem keeps_ask (known : manner ∈ ["Popen", "run", "check_output"])
    (allowed : may (argv.map Data.text)) : Leaves may names (ask manner argv) :=
  fun s => footprint_asked known allowed s

theorem map_text_words (argv : List String) : (words argv).map Data.text = argv := by
  rw [words, List.map_map]
  exact List.map_id _

@[grind .] theorem keeps_start {argv : List String} (allowed : may argv) :
    Leaves may names (start argv) :=
  keeps_ask (by simp) (by rwa [map_text_words])

@[grind .] theorem keeps_run (allowed : may (argv.map Data.text)) : Leaves may names (run argv) :=
  keeps_ask (by simp) allowed

@[grind .] theorem keeps_refuseFailure {reply : Reply} :
    Leaves may names (refuseFailure argv reply) := by
  unfold refuseFailure
  grind

@[grind .] theorem keeps_runChecked (allowed : may (argv.map Data.text)) :
    Leaves may names (runChecked argv) := by
  unfold runChecked
  grind

theorem keeps_changeDisk (h : ∀ d d', f d = .ok d' → Disk.SameOutside names d d') :
    Leaves may names (changeDisk f) := by
  apply keeps_of_runs
  · intro s u s' run
    obtain ⟨d, changed, rfl⟩ := returns_changeDisk_iff.mp run
    exact .of_change rfl rfl (h _ _ changed) List.prefix_rfl ⟨refl _, rfl⟩
  · intro s fault s' run
    obtain ⟨-, rfl⟩ := fails_changeDisk_iff.mp run
    exact refl _

@[grind .] theorem keeps_write (inside : names (Disk.normal path)) :
    Leaves may names (write path text) := by
  refine keeps_changeDisk fun d d' written => ?_
  rw [Disk.write_eq_ok written]
  exact (Disk.sameOutside_put d path text).mono fun name same => same ▸ inside

@[grind .] theorem keeps_writeDocuments {layout : Layout} {docs : List Data}
    (inside : names (Disk.normal path)) :
    Leaves may names (writeDocuments path layout docs) := by
  unfold writeDocuments
  grind

@[grind .] theorem keeps_removeIfThere (inside : names (Disk.normal path))
    (above : ∀ name ∈ Disk.parents (Disk.normal path), names name) :
    Leaves may names (removeIfThere path) := by
  refine keeps_changeDisk fun d d' removed => ?_
  cases removed
  split
  · refine (Disk.sameOutside_remove d path).mono ?_
    rintro name (rfl | mem)
    · exact inside
    · exact above name mem
  · exact .refl d

@[grind .] theorem keeps_separately (h : Leaves may names body) :
    Leaves may names (separately body) := by
  intro s
  change Footprint may names s ((separately body).perform s).2
  rcases run : body.perform { s with changes := [], errors := [] } with ⟨r, m⟩
  have inner : Footprint may names { s with changes := [], errors := [] } m := by
    have kept : Footprint may names _ (body.perform _).2 := h { s with changes := [], errors := [] }
    rwa [run] at kept
  obtain ⟨calls, asked, allowed, same⟩ := inner.calls
  rw [perform_separately run]
  exact ⟨⟨calls, ⟨asked.commands, asked.replies, asked.script⟩, allowed, same⟩, inner.files,
    List.prefix_rfl, ⟨inner.agrees.locator, inner.agrees.console⟩⟩

end Keeps

end Job

end Stratus
