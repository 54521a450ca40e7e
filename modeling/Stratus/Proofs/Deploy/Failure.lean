import Stratus.Proofs.Deploy.Footprint
import Stratus.Proofs.Diagnosis.Terraform

/-!
Failures of the infrastructure tool that come to be known. A loud job reports a trouble for each
failed command that is heard, or fails.
-/
namespace Stratus

open Assoc hiding set
open Job

variable {may : List String → Prop} {names : String → Prop} {context : Assoc Data} {body : Job Unit}
  {s s' : Session}
  {argv : List String} {message : String} {label : String} {text : String} {reply : Reply}

namespace Tool

open Diagnosis.Terraform Effect Session

variable {call : List String × Reply}

/-- Whether a message is explained or, being about the provider, ends the run. -/
def noticed (l : Locator) (message : String) : Bool := explains l message || aboutProvider message

/-- A reply that is told in full and explained, in view of a session. -/
structure Told (t : Session) (label : String) (reply : Reply) : Prop where
  out : t.console.Shows (label ++ " stdout: " ++ reply.out)
  err : t.console.Shows (label ++ " stderr: " ++ reply.err)
  explained : explains t.locator reply.err = true
  ordinary : Text.contains reply.err extraneous = false

def isError (line : String) : Bool :=
  !Infrastructure.noisy line && Text.contains (Infrastructure.withoutTool line) "Error:"

theorem filled_append (xs ys : List String) : filled (xs ++ ys) = filled xs ++ filled ys := by
  rw [filled, List.map_append, List.filter_append]
  rfl

/-- The lines of the second output that are there by the last look at the command. -/
def seenErrors (reply : Reply) : List String :=
  filled ((Text.feedLines reply.err).take (reply.looks.map (·.2)).sum)

/-- A reply of the tool that is read where the command is asked. In a run that plans first, what is
not told is lost. -/
structure Heard (planned : Bool) (t : Session) (argv : List String) (reply : Reply) : Prop where
  init : argv = ["terraform", "init"] →
    noticed t.locator reply.err = true ∧ (planned = true → Told t "Terraform init" reply)
  plan : argv = ["terraform", "plan", "-no-color"] → Told t "Terraform plan" reply
  apply : argv = ["terraform", "apply", "-auto-approve", "-no-color"] →
    (reply.err ≠ "" ∧ noticed t.locator reply.err = true) ∨
      ∃ line ∈ linesOf reply.out, isError line = true ∧
        noticed t.locator (Infrastructure.withoutTool line) = true
  destroy : argv = ["terraform", "destroy", "-auto-approve"] →
    ∃ line ∈ seenErrors reply, noticed t.locator line = true

/-- A command of the tool that ran, failed and is heard. -/
structure Failure (planned : Bool) (t : Session) (call : List String × Reply) : Prop where
  tool : call.1.head? = some "terraform"
  failed : call.2.code ≠ 0
  ran : call.2.missing = false
  heard : Heard planned t call.1 call.2

section Agrees

theorem noticed_of_agrees {l l' : Locator} (agrees : l.Agrees l') (message : String) :
    noticed l' message = noticed l message := by
  rw [noticed, noticed, explains_of_agrees agrees]

variable {t t' : Session} (agrees : t.Agrees t')

include agrees

theorem Told.of_agrees (h : Told t' label reply) : Told t label reply where
  out := agrees.console ▸ h.out
  err := agrees.console ▸ h.err
  explained := by rw [← explains_of_agrees agrees.locator, h.explained]
  ordinary := h.ordinary

theorem Failure.of_agrees {planned : Bool} (h : Failure planned t' call) :
    Failure planned t call where
  tool := h.tool
  failed := h.failed
  ran := h.ran
  heard := by
    have heard := h.heard
    constructor
    · intro same
      rw [← noticed_of_agrees agrees.locator]
      exact (heard.init same).imp_right fun told planned => (told planned).of_agrees agrees
    · exact fun same => (heard.plan same).of_agrees agrees
    · simpa only [noticed_of_agrees agrees.locator] using heard.apply
    · simpa only [noticed_of_agrees agrees.locator] using heard.destroy

end Agrees

/-! ### Jobs that report -/

/-- Any commands and any changes on the disk. -/
abbrev Onward : Session → Session → Prop := Footprint (fun _ => True) (fun _ => True)

theorem onward_of_footprint (h : Footprint may names s s') :
    Onward s s' := h.mono (fun _ _ => trivial) fun _ _ => trivial

section Reports

variable {α β : Type} {t : Session} {p : Job α} {f : α → Job β}

/-- Where the job returns, it has reported a trouble. -/
structure Reports (t : Session) (job : Job α) : Prop where
  onward : Keeps Onward job
  reports : ∀ s a s', t.Agrees s → Returns job s a s' → s.errors.length < s'.errors.length

theorem reports_report (d : Diagnosis) : Reports t (report d) where
  onward := keeps_report
  reports s a s' _ run := by
    cases run
    simp

theorem reports_throw (fault : Fault) : Reports t (throw fault : Job α) where
  onward := keeps_throw fault
  reports s a s' _ run := by cases run

theorem reports_bind_left (first : Reports t p) (rest : ∀ a, Keeps Onward (f a)) :
    Reports t (p >>= f) where
  onward := keeps_bind first.onward rest
  reports s b s' agrees run := by
    obtain ⟨a, m, begun, ended⟩ := returns_bind_iff.mp run
    exact (first.reports s a m agrees begun).trans_le ((rest a).returns ended).length_errors

theorem reports_bind_right (first : Keeps Onward p) (rest : ∀ a, Reports t (f a)) :
    Reports t (p >>= f) where
  onward := keeps_bind first fun a => (rest a).onward
  reports s b s' agrees run := by
    obtain ⟨a, m, begun, ended⟩ := returns_bind_iff.mp run
    have before := first.returns begun
    exact before.length_errors.trans_lt ((rest a).reports m b s' (agrees.trans before.agrees) ended)

theorem reports_forM {g : α → Job PUnit} {xs : List α} {x : α} (mem : x ∈ xs)
    (reports : Reports t (g x)) (onward : ∀ y, Keeps Onward (g y)) : Reports t (xs.forM g) := by
  induction xs with
  | nil => cases mem
  | cons y ys ih =>
    rcases List.mem_cons.mp mem with rfl | later
    · exact reports_bind_left reports fun _ => keeps_forM onward
    · exact reports_bind_right (onward y) fun _ => ih later

theorem reports_watch {onOut onErr : String → Job Unit} {looks : List (Nat × Nat)}
    {out err : List String} {line : String}
    (mem : line ∈ filled (err.take (looks.map (·.2)).sum)) (reports : Reports t (onErr line))
    (onwardOut : ∀ line, Keeps Onward (onOut line)) (onwardErr : ∀ line, Keeps Onward (onErr line)) :
    Reports t (watch onOut onErr looks out err) := by
  induction looks generalizing out err with
  | nil => cases mem
  | cons look looks ih =>
    rw [List.map_cons, List.sum_cons, List.take_add, filled_append, List.mem_append] at mem
    refine reports_bind_right (keeps_forM onwardOut) fun _ => ?_
    rcases mem with now | later
    · exact reports_bind_left (reports_forM now reports onwardErr) fun _ =>
        keeps_watch onwardOut onwardErr _ _ _
    · exact reports_bind_right (keeps_forM onwardErr) fun _ => ih later

theorem reports_diagnose (unnamed : get? context "resource_name" = none)
    (heard : noticed t.locator message = true) :
    Reports t (Infrastructure.diagnose context message) where
  onward := Infrastructure.keeps_diagnose
  reports s a s' agrees run := by
    obtain ⟨⟨found, context'⟩, m, traced, reported⟩ := returns_bind_iff.mp run
    obtain ⟨l', explained, rfl⟩ := returns_trace_iff.mp traced
    rw [← noticed_of_agrees agrees.locator, noticed, Bool.or_eq_true] at heard
    obtain ⟨d, rfl⟩ := Option.isSome_iff_exists.mp (isSome_ofMessage unnamed heard explained)
    cases reported
    simp

theorem reports_alarmed (text : String) (d : Diagnosis) : Reports t (do alarm text; report d) :=
  reports_bind_right keeps_alarm fun _ => reports_report d

theorem reports_alarmed_bind (text : String) (d : Diagnosis) {f : Unit → Job α}
    (rest : ∀ u, Keeps Onward (f u)) :
    Reports t (do alarm text; let u ← report d; f u) :=
  reports_bind_right keeps_alarm fun _ => reports_bind_left (reports_report d) rest

theorem reports_entered (text change : String) (h : Reports t p) :
    Reports t (do alarm text; emit change; p) :=
  reports_bind_right keeps_alarm fun _ => reports_bind_right keeps_emit fun _ => h

end Reports

section Loud

variable {α β : Type} {planned : Bool} {t : Session} {p : Job α} {f : α → Job β}

/-- In a run that returns, each failure that is heard has been reported. -/
def Voices (planned : Bool) (t : Session) (job : Job α) (s : Session) : Prop :=
  ∀ a s', Returns job s a s' → ∀ call ∈ s.answered s', Failure planned t call →
    s.errors.length < s'.errors.length

structure Loud (planned : Bool) (t : Session) (job : Job α) : Prop where
  onward : Keeps Onward job
  voices : ∀ s, t.Agrees s → Voices planned t job s

theorem loud_of_elsewhere (h : Spares (fun _ => True) p) : Loud planned t p where
  onward := h.mono fun _ _ => onward_of_footprint
  voices _ _ _ _ run _ mem failure := ((h.returns run).may_of_mem_answered mem failure.tool).elim

theorem loud_pure {a : α} : Loud planned t (pure a) := loud_of_elsewhere (keeps_pure a)

/-- A failure falls into one of two parts of a run; what was reported stays. -/
theorem grows_of_parts {s m s' : Session} (before : Onward s m) (after : Onward m s')
    (early : call ∈ s.answered m → s.errors.length < m.errors.length)
    (late : call ∈ m.answered s' → m.errors.length < s'.errors.length) (mem : call ∈ s.answered s') :
    s.errors.length < s'.errors.length := by
  rw [before.answered_append after, List.mem_append] at mem
  rcases mem with first | second
  · exact (early first).trans_le after.length_errors
  · exact before.length_errors.trans_lt (late second)

theorem loud_bind (first : Loud planned t p) (rest : ∀ a, Loud planned t (f a)) :
    Loud planned t (p >>= f) where
  onward := keeps_bind first.onward fun a => (rest a).onward
  voices s agrees b s' run call mem failure := by
    obtain ⟨a, m, begun, ended⟩ := returns_bind_iff.mp run
    have before := first.onward.returns begun
    have agrees' : t.Agrees m := agrees.trans before.agrees
    exact grows_of_parts before ((rest a).onward.returns ended)
      (fun early => first.voices s agrees a m begun call early failure)
      (fun late => (rest a).voices m agrees' b s' ended call late failure) mem

theorem loud_after (first : Spares (fun _ => True) p) (rest : ∀ a, Loud planned t (f a)) :
    Loud planned t (p >>= f) :=
  loud_bind (loud_of_elsewhere first) rest

theorem loud_tryCatch {h : Fault → Job α} (body : Loud planned t p)
    (handler : ∀ fault, Reports t (h fault)) :
    Loud planned t (tryCatch p h) where
  onward := keeps_tryCatch body.onward fun fault => (handler fault).onward
  voices s agrees a s' run call mem failure := by
    rcases returns_tryCatch_iff.mp run with returned | ⟨fault, m, failed, handled⟩
    · exact body.voices s agrees a s' returned call mem failure
    · have before := body.onward.fails failed
      have agrees' : t.Agrees m := agrees.trans before.agrees
      exact before.length_errors.trans_lt ((handler fault).reports m a s' agrees' handled)

/-- The same for a block that can return early. -/
theorem loud_tryCatch_runK {p : Job (Except β β)} {h : Fault → Job (Except β β)}
    (body : Loud planned t p) (handler : ∀ fault, Reports t (h fault)) :
    Loud planned t (tryCatch p h >>= fun e => EarlyReturn.runK e (fun r => pure r) fun r => pure r) :=
  loud_bind (loud_tryCatch body handler) fun _ =>
    loud_of_elsewhere (keeps_runK (fun _ => keeps_pure _) fun _ => keeps_pure _)

theorem loud_tryFinally {q : Job β} (body : Loud planned t p) (final : Spares (fun _ => True) q) :
    Loud planned t (tryFinally p q) where
  onward := keeps_tryFinally body.onward (loud_of_elsewhere final : Loud planned t q).onward
  voices s agrees a s' run call mem failure := by
    obtain ⟨m, b, begun, ended⟩ := returns_of_tryFinally run
    have last : Loud planned t q := loud_of_elsewhere final
    have before := body.onward.returns begun
    have agrees' : t.Agrees m := agrees.trans before.agrees
    exact grows_of_parts before (last.onward.returns ended)
      (fun early => body.voices s agrees a m begun call early failure)
      (fun late => last.voices m agrees' b s' ended call late failure) mem

theorem loud_ask {manner : String} {argv : List Data} {f : Reply → Job β}
    (known : manner ∈ ["Popen", "run", "check_output"]) (rest : ∀ reply, Loud planned t (f reply))
    (failed : ∀ reply, reply.code ≠ 0 → Heard planned t (argv.map Data.text) reply →
      Reports t (f reply)) :
    Loud planned t (ask manner argv >>= f) where
  onward := keeps_bind (keeps_ask known trivial) fun reply => (rest reply).onward
  voices s agrees a s' run call mem failure := by
    obtain ⟨reply, m, asked, ended⟩ := returns_bind_iff.mp run
    obtain ⟨-, rfl, rfl⟩ := returns_ask_iff.mp asked
    have before : Onward s (s.asked manner argv) := footprint_asked known trivial s
    have agrees' := agrees.trans before.agrees
    have after := (rest s.nextReply).onward.returns ended
    rw [before.answered_append after, (calls_asked known s argv).answered, List.mem_append,
      List.mem_singleton] at mem
    rcases mem with rfl | late
    · exact (failed s.nextReply failure.failed failure.heard).reports
        (s.asked manner argv) a s' agrees' ended
    · exact (rest s.nextReply).voices (s.asked manner argv) agrees' a s' ended call late failure

theorem loud_start {f : Reply → Job β} (rest : ∀ reply, Loud planned t (f reply))
    (failed : ∀ reply, reply.code ≠ 0 → Heard planned t argv reply → Reports t (f reply)) :
    Loud planned t (start argv >>= f) := by
  refine loud_ask (by simp) rest ?_
  rwa [map_text_words]

theorem loud_forIn {g : α → β → Job (ForInStep β)} {xs : List α} (b : β)
    (body : ∀ x b, Loud planned t (g x b)) :
    Loud planned t (forIn xs b g) := by
  induction xs generalizing b with
  | nil => exact loud_pure
  | cons x xs ih =>
    rw [List.forIn_cons]
    refine loud_bind (body x b) fun step => ?_
    cases step with
    | done b => exact loud_pure
    | yield b => exact ih b

theorem part_ne_nil {s m : Session} {part : List String × List Diagnosis}
    (voices : Voices planned t body { s with changes := [], errors := [] })
    (run : Returns (separately body) s part m)
    (mem : call ∈ s.answered m) (failure : Failure planned t call) : part.2 ≠ [] := by
  rcases inner : body.perform { s with changes := [], errors := [] } with ⟨fault | u, m'⟩
  · cases (perform_separately inner).symm.trans run
  · cases (perform_separately inner).symm.trans run
    exact List.length_pos_iff.mp (voices u m' inner call mem failure)

theorem loud_part {f : List String × List Diagnosis → Job β} (part : Loud planned t body)
    (rest : ∀ part, Loud planned t (f part)) :
    Loud planned t (separately body >>= fun part => take part >>= fun _ => f part) where
  onward := keeps_bind (keeps_separately part.onward) fun part => keeps_bind keeps_take fun _ =>
    (rest part).onward
  voices s agrees b s' run call mem failure := by
    obtain ⟨taken, m, begun, ended⟩ := returns_bind_iff.mp run
    have later : Loud planned t (take taken >>= fun _ => f taken) :=
      loud_after keeps_take fun _ => rest taken
    have before := (keeps_separately part.onward).returns begun
    rw [before.answered_append (later.onward.returns ended), List.mem_append] at mem
    rcases mem with early | late
    · have troubles : taken.2 ≠ [] :=
        part_ne_nil (part.voices _ ⟨agrees.locator, agrees.console⟩) begun early failure
      obtain ⟨_, m', taking, last⟩ := returns_bind_iff.mp ended
      cases taking
      calc s.errors.length
        _ ≤ m.errors.length := before.length_errors
        _ < (m.errors ++ taken.2).length := by simpa using List.length_pos_iff.mpr troubles
        _ ≤ s'.errors.length := ((rest taken).onward.returns last).length_errors
    · have agrees' : t.Agrees m := agrees.trans before.agrees
      exact before.length_errors.trans_lt (later.voices m agrees' b s' ended call late failure)

end Loud

end Tool

open Effect Session Tool

variable {planned : Bool} {t : Session}

namespace Infrastructure

theorem reports_followLine {line : String} (error : isError line = true)
    (heard : noticed t.locator (withoutTool line) = true) :
    Reports t (followLine line) := by
  rw [isError, Bool.and_eq_true, Bool.not_eq_true'] at error
  unfold followLine
  rw [if_neg (by simp [error.1]), if_pos error.2]
  exact reports_entered _ _ (reports_bind_left (reports_diagnose rfl heard) fun _ => keeps_announce)

theorem loud_deploy : Loud planned t deploy := by
  unfold deploy
  refine loud_after keeps_enter fun _ => loud_start (fun reply => ?_) fun reply failed heard => ?_
  · split
    · exact loud_of_elsewhere (keeps_bind keeps_diagnose fun _ => keeps_pure ())
    · refine loud_after keeps_enter fun _ => loud_start (fun reply => ?_) fun reply failed heard => ?_
      · refine loud_of_elsewhere (keeps_bind (keeps_forM keeps_followLine) fun _ => ?_)
        grind
      · rcases heard.apply rfl with ⟨said, heard⟩ | ⟨line, mem, error, heard⟩
        · refine reports_bind_right (keeps_forM keeps_followLine) fun _ => ?_
          rw [if_pos (by simpa using said)]
          refine reports_entered _ _ (reports_bind_left (reports_diagnose rfl heard) fun _ => ?_)
          grind
        · refine reports_bind_left (reports_forM mem
            (reports_followLine error heard) keeps_followLine) fun _ => ?_
          grind
  · rw [if_pos (by simpa using failed)]
    exact reports_bind_left (reports_diagnose rfl (heard.init rfl).1) fun _ => keeps_pure ()

theorem keeps_anyChange (g : Disk → Outcome Disk) :
    Keeps (Footprint may fun _ => True) (changeDisk g) :=
  keeps_changeDisk fun _ _ _ _ outside => (outside trivial).elim

theorem loud_swapped (dir : String) (config : Data) (h : Loud planned t body) :
    Loud planned t (swapped dir config body) := by
  unfold swapped
  refine loud_after (keeps_write trivial) fun _ => ?_
  refine loud_after (keeps_anyChange _) fun _ => ?_
  refine loud_tryFinally (loud_after (keeps_anyChange _) fun _ => h) (keeps_anyChange _)

theorem loud_apply {p : Preparation} (h : p.tfvars = none)
    (keyed : ∀ config provider region, Spares (fun _ => True) (p.enterKey config provider region))
    (dir : String) : Loud planned t (apply p dir) := by
  rw [apply_eq h]
  refine loud_tryCatch (loud_after (keeps_prepared keyed) fun config => ?_) fun fault =>
    reports_report _
  exact loud_swapped dir config loud_deploy

end Infrastructure

namespace Destroy

theorem keeps_followLine (line : String) : Leaves may names (followLine line) := by
  unfold followLine
  grind

theorem keeps_followError (line : String) : Leaves may names (followError line) := by
  unfold followError
  grind

theorem loud_infrastructure (dir : String) : Loud planned t (infrastructure dir) := by
  unfold infrastructure
  refine loud_tryCatch ?_ fun fault => reports_alarmed _ _
  refine loud_after keeps_readJson fun config => ?_
  refine loud_after (keeps_liftM _) fun _ => ?_
  refine loud_after keeps_announce fun _ => ?_
  refine loud_start (fun reply => ?_) fun reply failed heard => ?_
  · refine loud_of_elsewhere (keeps_bind (keeps_watch keeps_followLine keeps_followError _ _ _)
      fun _ => ?_)
    grind
  · obtain ⟨line, mem, heard⟩ := heard.destroy rfl
    have explained : Reports t (followError line) := reports_entered _ _ (reports_diagnose rfl heard)
    refine reports_bind_left (reports_watch mem explained keeps_followLine keeps_followError)
      fun _ => ?_
    grind

end Destroy

namespace Playbook

theorem loud_outputs : Loud planned t outputs := by
  refine loud_bind ?_ fun text => loud_of_elsewhere (keeps_liftM _)
  refine loud_ask (by simp) (fun reply => ?_) fun reply failed _ => ?_
  · exact loud_of_elsewhere (keeps_bind keeps_refuseFailure fun _ => keeps_pure _)
  · refine reports_bind_left ?_ fun _ => keeps_pure _
    rw [refuseFailure, if_neg (by simpa using failed)]
    exact reports_throw _

theorem loud_applyNetwork : Loud planned t applyNetwork := by
  have followed (reply : Reply) : Spares (fun _ => True) (follow announce (fun line => do
      alarm ("ERROR: " ++ line)
      emit ("ERROR: " ++ line)) reply) := by grind
  unfold applyNetwork
  refine loud_after keeps_announce fun _ => loud_start (fun reply => ?_) fun reply failed _ => ?_
  · refine loud_of_elsewhere (keeps_bind (followed reply) fun _ => ?_)
    grind
  · rw [if_pos (by simpa using failed)]
    exact reports_bind_right (loud_of_elsewhere (followed reply) : Loud planned t _).onward fun _ =>
      reports_report _

theorem loud_tryOpened (dir : String) (id address : Data) (key : String) :
    Loud planned t (tryOpened dir id address key) := by
  unfold tryOpened
  refine loud_tryCatch_runK ?_ fun fault => reports_alarmed_bind _ _ fun _ => keeps_run_pure _
  refine loud_after keeps_openNetwork fun placement => ?_
  extract_lets message trying
  have tried : Spares (fun _ => True) (trying ()) := by
    refine keeps_bind keeps_reachable fun reached => ?_
    split
    · refine keeps_bind (keeps_separately (keeps_deploy (fun _ => trivial))) fun part => ?_
      exact keeps_bind keeps_take fun _ => keeps_run_pure _
    · exact keeps_bind keeps_alarm fun _ => keeps_bind keeps_report fun _ => keeps_run_pure _
  split
  · refine loud_after (keeps_write trivial) fun _ => loud_part loud_applyNetwork fun part => ?_
    refine loud_of_elsewhere ?_
    split
    · exact keeps_earlyReturn ()
    · exact keeps_bind keeps_verifyNetwork fun _ => keeps_bind keeps_sleep fun _ => tried
  · exact loud_of_elsewhere tried

theorem loud_configure (dir : String) (google : Bool) (outputs : Data) (resource : String)
    (target : Data) :
    Loud planned t (configure dir google outputs resource target) := by
  unfold configure
  refine loud_after keeps_tell fun _ => ?_
  split
  · refine loud_after keeps_publicAddress? fun address => ?_
    split
    · exact loud_of_elsewhere (keeps_bind keeps_alarm fun _ => keeps_pure ())
    · refine loud_after keeps_key fun key => ?_
      refine loud_after (keeps_tryDirectly (fun _ => trivial)) fun reached => ?_
      split
      · exact loud_pure
      · split
        · exact loud_pure
        · refine loud_after (keeps_liftM _) fun id => ?_
          split
          · exact loud_of_elsewhere (keeps_bind keeps_alarm fun _ => keeps_pure ())
          · exact loud_tryOpened dir id address key
  · exact loud_pure

theorem loud_applyMappings (dir : String) (mappings : Data) :
    Loud planned t (applyMappings dir mappings) := by
  unfold applyMappings
  refine loud_tryCatch_runK ?_ fun fault => reports_alarmed_bind _ _ fun _ => keeps_run_pure _
  refine loud_bind (loud_tryCatch ?_ fun fault => ?_) fun outputs => ?_
  · exact loud_bind loud_outputs fun _ => loud_pure
  · exact reports_alarmed_bind _ _ fun _ => keeps_pure _
  · split
    · refine loud_after keeps_isGoogle fun google => ?_
      refine loud_after (keeps_liftM _) fun entries => ?_
      refine loud_bind (loud_forIn _ fun entry _ => ?_) fun _ => loud_pure
      exact loud_bind (loud_configure dir google _ entry.1 entry.2) fun _ => loud_pure
    · exact loud_pure

end Playbook

namespace Apply

theorem loud_infrastructure (dir : String) : Loud planned t (infrastructure dir) :=
  Infrastructure.loud_apply rfl (fun _ _ _ => keeps_enterKey trivial trivial) dir

theorem loud_kubernetes (dir : String) : Loud planned t (kubernetes dir) := by
  refine loud_tryCatch ?_ fun fault => reports_alarmed _ _
  refine loud_bind Playbook.loud_outputs fun outputs => ?_
  refine loud_after keeps_readJson fun config => ?_
  refine loud_after (keeps_liftM _) fun site => loud_of_elsewhere ?_
  grind

theorem loud_configuration (dir : String) : Loud planned t (configuration dir) := by
  unfold configuration
  refine loud_tryCatch_runK ?_ fun fault => reports_bind_left (reports_report _) fun _ =>
    keeps_run_pure _
  refine loud_after keeps_disk fun disk => ?_
  split
  · exact loud_of_elsewhere (keeps_bind keeps_report fun _ => keeps_pure ())
  · refine loud_after keeps_readJson fun mappings => ?_
    exact loud_part (Playbook.loud_applyMappings dir mappings) fun _ => loud_pure

theorem loud_all (dir : String) : Loud planned t (all dir) :=
  loud_bind (loud_infrastructure dir) fun _ => loud_bind (loud_kubernetes dir) fun _ =>
    loud_configuration dir

end Apply

namespace Plan

open Diagnosis.Terraform
open Disk (normal)

/-- A plan passes over its own failures, so a failure of the tool has to be reported however the
plan goes on. -/
structure Voiced (t : Session) (s s' : Session) : Prop where
  steps : Footprint (fun _ => True) (fun _ => False) s s'
  voiced : t.Agrees s → s.disk.textsAt (normal t.locator.path) ≠ [] →
    ∀ call ∈ s.answered s', Failure true t call → s.errors.length < s'.errors.length

theorem Voiced.of_elsewhere (h : Footprint Elsewhere (fun _ => False) s s') : Voiced t s s' where
  steps := h.mono (fun _ _ => trivial) fun _ => id
  voiced _ _ _ mem failure := (h.may_of_mem_answered mem failure.tool).elim

theorem Voiced.trans {s m s' : Session} (first : Voiced t s m) (second : Voiced t m s') :
    Voiced t s s' where
  steps := first.steps.trans second.steps
  voiced agrees readable call mem failure := by
    have agrees' : t.Agrees m := agrees.trans first.steps.agrees
    have readable' := first.steps.files _ id readable
    exact grows_of_parts (onward_of_footprint first.steps) (onward_of_footprint second.steps)
      (fun early => first.voiced agrees readable call early failure)
      (fun late => second.voiced agrees' readable' call late failure) mem

instance : IsPreorder Session (Voiced t) where
  refl _ := .of_elsewhere (refl _)
  trans _ _ _ := Voiced.trans

section Voiced

variable {α : Type}

theorem voiced_of_elsewhere {job : Job α} (h : Spares (fun _ => False) job) : Keeps (Voiced t) job :=
  h.mono fun _ _ => .of_elsewhere

theorem voiced_start {f : Reply → Job α} (rest : ∀ reply, Keeps (Voiced t) (f reply))
    (failed : ∀ reply, reply.code ≠ 0 → Heard true t argv reply → ∀ s : Session, t.Agrees s →
      s.disk.textsAt (normal t.locator.path) ≠ [] →
        s.errors.length < ((f reply).perform s).2.errors.length) :
    Keeps (Voiced t) (start argv >>= f) := by
  intro s
  change Voiced t s ((start argv >>= f).perform s).2
  have known : "Popen" ∈ ["Popen", "run", "check_output"] := by simp
  have calls := (calls_asked known s (words argv)).answered
  rw [map_text_words] at calls
  set m := s.asked "Popen" (words argv)
  have asked : Footprint (fun _ => True) (fun _ => False) s m := footprint_asked known trivial s
  by_cases missing : s.nextReply.missing = true
  · have stopped : Fails (start argv) s (.noFile ((words argv).headD .null).text) m :=
      fails_ask_iff.mpr ⟨missing, rfl, rfl⟩
    rw [show (start argv >>= f).perform s = _ from fails_bind_iff.mpr (.inl stopped)]
    refine ⟨asked, fun _ _ call mem failure => ?_⟩
    rw [calls, List.mem_singleton] at mem
    subst mem
    rw [failure.ran] at missing
    cases missing
  · have started : Returns (start argv) s s.nextReply m :=
      returns_ask_iff.mpr ⟨by simpa using missing, rfl, rfl⟩
    have later : Voiced t m ((f s.nextReply).perform m).2 := rest s.nextReply m
    rw [show (start argv >>= f).perform s = (f s.nextReply).perform m
      from bind_run_of_returns started]
    refine ⟨asked.trans later.steps, fun agrees readable call mem failure => ?_⟩
    have readable' := asked.files _ id readable
    have agrees' := agrees.trans asked.agrees
    rw [asked.answered_append later.steps, calls, List.mem_append, List.mem_singleton] at mem
    rcases mem with rfl | late
    · exact failed s.nextReply failure.failed failure.heard m agrees' readable'
    · exact later.voiced agrees' readable' call late failure

theorem grows_diagnose {s : Session}
    (unnamed : get? context "resource_name" = none) (explained : explains t.locator message = true)
    (ordinary : Text.contains message extraneous = false) (agrees : t.Agrees s)
    (readable : s.disk.textsAt (normal t.locator.path) ≠ []) :
    s.errors.length < ((diagnose context message).perform s).2.errors.length := by
  rcases run : (diagnose context message).perform s with ⟨fault | u, s'⟩
  · rw [← agrees.locator.path] at readable
    obtain ⟨text, readable⟩ := Disk.exists_readText_iff.mpr readable
    rcases fails_bind_iff.mp run with failed | ⟨⟨found, context'⟩, m, -, failed⟩
    · obtain ⟨l', failed, -⟩ := fails_trace_iff.mp failed
      rw [← explains_of_agrees agrees.locator] at explained
      exact (not_fails_ofMessage unnamed readable explained ordinary failed).elim
    · cases found <;> cases failed
  · exact (reports_diagnose unnamed (by rw [noticed, explained, Bool.true_or])).reports s u
      s' agrees run

theorem keeps_diagnose : Leaves may names (diagnose context message) := Infrastructure.keeps_diagnose

theorem returns_tellOutputs {s : Session} (told : Told t label reply) (agrees : t.Agrees s) :
    Returns (tellOutputs label reply) s () s := by
  have out := told.out
  have err := told.err
  rw [← agrees.console] at out err
  exact returns_bind_iff.mpr ⟨(), s, returns_tell_iff.mpr ⟨out, rfl⟩, returns_tell_iff.mpr ⟨err, rfl⟩⟩

theorem tellOutputs_bind_perform {s : Session} {f : Unit → Job α} (told : Told t label reply)
    (agrees : t.Agrees s) :
    (tellOutputs label reply >>= f).perform s = (f ()).perform s :=
  bind_run_of_returns (returns_tellOutputs told agrees)

theorem unnamed_update (unnamed : get? context "resource_name" = none) (message : String) :
    get? (update context (resourceContext message)) "resource_name" = none := by
  have other : "resource_name" ∉ keys (resourceContext message) := by
    unfold resourceContext
    split <;> simp [keys]
  rw [get?_update_of_notMem context other, unnamed]

theorem voiced_infrastructureSteps (dir : String) : Keeps (Voiced t) (infrastructureSteps dir) := by
  unfold infrastructureSteps
  extract_lets path steps
  have stepped (context : Assoc Data) (unnamed : get? context "resource_name" = none) :
      Keeps (Voiced t) (steps context) := by
    refine voiced_start (fun reply => ?_) fun reply failed heard s agrees readable => ?_
    · refine keeps_bind (voiced_of_elsewhere keeps_tellOutputs) fun _ => ?_
      split
      · exact voiced_of_elsewhere (keeps_bind keeps_diagnose fun _ => keeps_pure ())
      · refine voiced_start (fun reply => ?_) fun reply failed heard s agrees readable => ?_
        · refine voiced_of_elsewhere (keeps_bind keeps_tellOutputs fun _ => ?_)
          split
          · exact keeps_diagnose
          · exact keeps_planned
        · have told := heard.plan rfl
          rw [tellOutputs_bind_perform told agrees, if_pos (by simpa using failed)]
          exact grows_diagnose (unnamed_update unnamed reply.err) told.explained told.ordinary
            agrees readable
    · have told := (heard.init rfl).2 rfl
      rw [tellOutputs_bind_perform told agrees, if_pos (by simpa using failed), bind_pure_unit]
      exact grows_diagnose rfl told.explained told.ordinary agrees readable
  refine keeps_bind (voiced_of_elsewhere keeps_disk) fun disk => ?_
  split
  · refine keeps_bind (voiced_of_elsewhere keeps_readJson) fun config => ?_
    refine keeps_bind (keeps_liftM _) fun described => ?_
    split
    · refine keeps_bind (keeps_liftM _) fun resources => ?_
      rw [pure_bind]
      exact stepped _ rfl
    · exact stepped [] rfl
  · exact stepped [] rfl

theorem voiced_infrastructure (dir : String) : Keeps (Voiced t) (infrastructure dir) :=
  keeps_tryCatch (voiced_infrastructureSteps dir) fun _ => voiced_of_elsewhere keeps_tell

theorem loud_trials (dir : String) : Loud true t (do
    let _ ← separately (kubernetes dir)
    let _ ← separately (configuration dir) : Job Unit) :=
  loud_after (keeps_separately keeps_kubernetes) fun _ =>
    loud_after (keeps_separately (keeps_configuration (fun _ => trivial))) fun _ =>
      loud_pure

theorem onward_all (dir : String) : Keeps Onward (all dir) := by
  have planning : Keeps (Voiced { locator := .ofTable "" [] }) (infrastructure dir) :=
    voiced_infrastructure dir
  have trials : Loud true { locator := .ofTable "" [] } _ := loud_trials dir
  exact keeps_bind (planning.mono fun _ _ h => onward_of_footprint h.steps) fun _ => trials.onward

theorem voices_all {dir : String} {s : Session} (agrees : t.Agrees s)
    (readable : s.disk.textsAt (normal t.locator.path) ≠ []) :
    Voices true t (all dir) s := by
  intro _ s' run call mem failure
  obtain ⟨_, m, planned, rest⟩ := returns_bind_iff.mp run
  have first : Voiced t s m := (voiced_infrastructure dir).returns planned
  have agrees' : t.Agrees m := agrees.trans first.steps.agrees
  have trials : Loud true t _ := loud_trials dir
  exact grows_of_parts (onward_of_footprint first.steps) (trials.onward.returns rest)
    (fun early => first.voiced agrees readable call early failure)
    (fun late => trials.voices m agrees' _ s' rest call late failure) mem

end Voiced

end Plan

end Stratus
