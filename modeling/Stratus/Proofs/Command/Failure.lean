import Stratus.Command.Run
import Stratus.Proofs.Deploy.Failure

/-!
Commands that plan, apply or destroy do not end well when a command of the infrastructure tool has
failed and its failure is heard.
-/
namespace Stratus

namespace Project

open Disk (normal)
open Job
open Effect Session Tool

variable {f : List String × List Diagnosis → Job Status} {body : Job Unit}

/-- No command was asked. -/
structure Quiet (s s' : Session) : Prop where
  commands : s'.commands = s.commands
  script : s'.script = s.script

instance : IsPreorder Session Quiet where
  refl _ := ⟨rfl, rfl⟩
  trans _ _ _ first second := ⟨second.commands.trans first.commands, second.script.trans first.script⟩

theorem Quiet.answered {s m s' : Session} (h : Quiet s m) : s.answered s' = m.answered s' := by
  rw [Session.answered, Session.answered, h.commands, h.script]

theorem quiet_changeDisk (f : Disk → Outcome Disk) : Keeps Quiet (changeDisk f) := by
  apply keeps_of_runs
  · intro s u s' run
    obtain ⟨d, -, rfl⟩ := returns_changeDisk_iff.mp run
    exact ⟨rfl, rfl⟩
  · intro s fault s' run
    obtain ⟨-, rfl⟩ := fails_changeDisk_iff.mp run
    exact refl _

theorem quiet_resolveReferences (dir file : String) : Keeps Quiet (resolveReferences dir file) :=
  keeps_get_bind fun s => quiet_changeDisk _ s

theorem quiet_echo (text : String) : Keeps Quiet (echo text) := fun _ => ⟨rfl, rfl⟩

theorem quiet_destructionConfirmed : Keeps Quiet destructionConfirmed := by
  unfold destructionConfirmed
  refine keeps_bind (quiet_echo _) fun _ => keeps_bind (quiet_echo _) fun _ =>
    keeps_bind (quiet_echo _) fun _ => ?_
  refine keeps_get_bind fun s => ?_
  split
  · exact ⟨rfl, rfl⟩
  · exact ⟨rfl, rfl⟩

theorem returns_locate {file : String} {s s' : Session} {u : Unit}
    (run : Returns (locate file) s u s') :
    Quiet s s' ∧ s'.disk.textsAt (normal s'.locator.path) ≠ [] := by
  obtain ⟨d, m, looked, run⟩ := returns_bind_iff.mp run
  obtain ⟨rfl, rfl⟩ : d = s.disk ∧ m = s := by
    cases looked
    exact ⟨rfl, rfl⟩
  obtain ⟨locator, m, lifted, changed⟩ := returns_bind_iff.mp run
  obtain ⟨read, rfl⟩ := returns_lift_iff.mp lifted
  obtain rfl := returns_modify_iff.mp changed
  refine ⟨⟨rfl, rfl⟩, ?_⟩
  rw [Locator.ofFile] at read
  cases text : m.disk.readText file with
  | error fault =>
    rw [text] at read
    cases read
  | ok content =>
    rw [text] at read
    cases read
    exact Disk.exists_readText_iff.mp ⟨content, text⟩

section Ending

variable {α : Type} {planned : Bool} {t : Session} {job : Job Status} {s : Session}

/-- The job does not end well after a failure that is heard. -/
def Condemns (planned : Bool) (t : Session) (job : Job Status) (s : Session) : Prop :=
  ∀ s', Returns job s .done s' → ∀ call ∈ s.answered s', ¬ Failure planned t call

structure Judges (planned : Bool) (t : Session) (job : Job Status) : Prop where
  onward : Keeps Onward job
  condemns : ∀ s, t.Agrees s → Condemns planned t job s

theorem judges_of_elsewhere (h : Spares (fun _ => True) job) : Judges planned t job where
  onward := h.mono fun _ _ => onward_of_footprint
  condemns _ _ _ run _ mem failure := (h.returns run).may_of_mem_answered mem failure.tool

theorem judges_bind {p : Job α} {f : α → Job Status} (first : Spares (fun _ => True) p)
    (rest : ∀ a, Judges planned t (f a)) : Judges planned t (p >>= f) where
  onward := keeps_bind (first.mono fun _ _ => onward_of_footprint) fun a => (rest a).onward
  condemns s agrees s' run call mem failure := by
    obtain ⟨a, m, begun, ended⟩ := returns_bind_iff.mp run
    have before := first.returns begun
    rw [(onward_of_footprint before).answered_append ((rest a).onward.returns ended),
      List.mem_append] at mem
    rcases mem with early | late
    · exact before.may_of_mem_answered early failure.tool
    · exact (rest a).condemns m (agrees.trans before.agrees) s' ended call late failure

theorem condemns_part (agrees : t.Agrees s)
    (onward : Keeps Onward body)
    (voices : Voices planned t body { s with changes := [], errors := [] })
    (rest : ∀ part, Judges planned t (f part))
    (troubled : ∀ part m s', part.2 ≠ [] → ¬ Returns (f part) m .done s') :
    Condemns planned t (separately body >>= f) s := by
  intro s' run call mem failure
  obtain ⟨part, m, begun, ended⟩ := returns_bind_iff.mp run
  have before := (keeps_separately onward).returns begun
  rw [before.answered_append ((rest part).onward.returns ended), List.mem_append] at mem
  rcases mem with early | late
  · exact troubled part m s' (part_ne_nil voices begun early failure) ended
  · exact (rest part).condemns m (agrees.trans before.agrees) s' ended call late failure

theorem judges_part (part : Loud planned t body)
    (rest : ∀ part, Judges planned t (f part))
    (troubled : ∀ part m s', part.2 ≠ [] → ¬ Returns (f part) m .done s') :
    Judges planned t (separately body >>= f) where
  onward := keeps_bind (keeps_separately part.onward) fun part => (rest part).onward
  condemns _ agrees :=
    condemns_part agrees part.onward (part.voices _ ⟨agrees.locator, agrees.console⟩) rest troubled

end Ending

section Commands

variable {planned : Bool} {t : Session} {s s' : Session} {path dir : String} {approve : Bool}
  {tail : Job Status} {m : Session}

theorem returns_withDescription {body : String → Job Status}
    (run : Returns (withDescription path body) s .done s') :
    ∃ file, Returns (body file) s .done s' := by
  obtain ⟨d, _, looked, run⟩ := returns_bind_iff.mp run
  cases looked
  split at run
  · next file _ => exact ⟨file, run⟩
  · cases run

theorem returns_located (run : Returns (withDescription path fun file => do
      resolveReferences dir file
      locate file
      tail) s .done s') :
    ∃ m, Quiet s m ∧ m.disk.textsAt (normal m.locator.path) ≠ [] ∧ Returns tail m .done s' := by
  obtain ⟨file, run⟩ := returns_withDescription run
  obtain ⟨_, s₁, resolved, run⟩ := returns_bind_iff.mp run
  obtain ⟨_, m, located, run⟩ := returns_bind_iff.mp run
  obtain ⟨quiet, readable⟩ := returns_locate located
  exact ⟨m, IsTrans.trans _ _ _ ((quiet_resolveReferences _ _).returns resolved) quiet, readable, run⟩

theorem keeps_confirm {may : List String → Prop} {names : String → Prop} :
    Job.Leaves may names confirm := by
  refine keeps_get_bind fun s => ?_
  split
  · exact .of_same rfl rfl rfl List.prefix_rfl ⟨refl _, rfl⟩
  · exact .of_same rfl rfl rfl List.prefix_rfl ⟨refl _, rfl⟩

theorem ofErrors_eq_done_iff {α : Type} {errors : List α} :
    Status.ofErrors errors = .done ↔ errors = [] := by
  unfold Status.ofErrors
  cases errors <;> simp

variable {call : List String × Reply}

theorem not_failure_of_judged (quiet : Quiet s m) (judges : Judges planned m tail)
    (run : Returns tail m .done s') (mem : call ∈ s.answered s') : ¬ Failure planned s' call := by
  intro failure
  rw [quiet.answered] at mem
  exact judges.condemns m (refl _) s' run call mem
    (failure.of_agrees (judges.onward.returns run).agrees)

theorem not_failure_of_part (quiet : Quiet s m) (onward : Keeps Onward body)
    (voices : Voices planned m body { m with changes := [], errors := [] })
    (rest : ∀ part, Judges planned m (f part))
    (troubled : ∀ part m s', part.2 ≠ [] → ¬ Returns (f part) m .done s')
    (run : Returns (separately body >>= f) m .done s') (mem : call ∈ s.answered s') :
    ¬ Failure planned s' call := by
  intro failure
  have steps : Keeps Onward (separately body >>= f) :=
    keeps_bind (keeps_separately onward) fun part => (rest part).onward
  rw [quiet.answered] at mem
  exact condemns_part (refl _) onward voices rest troubled s' run call mem
    (failure.of_agrees (steps.returns run).agrees)

theorem not_failure_of_plan (run : Returns (plan path dir) s .done s')
    (mem : call ∈ s.answered s') : ¬ Failure true s' call := by
  obtain ⟨m, early, readable, run⟩ := returns_located run
  refine not_failure_of_part early (Plan.onward_all dir)
    (Plan.voices_all ⟨refl _, rfl⟩ readable) ?_ ?_ run mem
  · rintro ⟨changes, errors⟩
    refine judges_of_elsewhere ?_
    grind
  · rintro ⟨changes, errors⟩ m s' troubled ended
    dsimp only at troubled ended
    rw [if_pos (by simpa using troubled)] at ended
    cases ended

theorem judges_applyAll (dir : String) : Judges planned t (do
    let part ← separately (Apply.all dir)
    return Status.ofErrors part.2) := by
  refine judges_part (Apply.loud_all dir) (fun part => judges_of_elsewhere (keeps_pure _))
    fun part m s' troubled ended => ?_
  exact troubled (ofErrors_eq_done_iff.mp (returns_pure_iff.mp ended).1.symm)

def ending (dir : String) : Option Status → Job Status
  | some status => return status
  | none => do
    let part ← separately (Apply.all dir)
    return .ofErrors part.2

theorem judges_ending (dir : String) (ended : Option Status) :
    Judges planned t (ending dir ended) := by
  cases ended with
  | some status => exact judges_of_elsewhere (keeps_pure _)
  | none => exact judges_applyAll dir

theorem not_failure_of_apply (run : Returns (apply path dir approve) s .done s')
    (mem : call ∈ s.answered s') : ¬ Failure (!approve) s' call := by
  obtain ⟨m, early, readable, run⟩ := returns_located run
  cases approve with
  | true => exact not_failure_of_judged early (judges_applyAll dir) run mem
  | false =>
    change Returns (approval dir >>= fun ended => ending dir ended) m .done s' at run
    rw [approval, bind_assoc] at run
    refine not_failure_of_part early (Plan.onward_all dir)
      (Plan.voices_all ⟨refl _, rfl⟩ readable) ?_ ?_ run mem
    · rintro ⟨changes, errors⟩
      refine judges_bind ?_ (judges_ending dir)
      grind [keeps_confirm]
    · rintro ⟨changes, errors⟩ m s' troubled ended
      obtain ⟨answer, _, asked, last⟩ := returns_bind_iff.mp ended
      dsimp only at troubled asked
      rw [if_pos (by simpa using troubled)] at asked
      cases asked
      cases last

theorem not_failure_of_destroy (run : Returns (destroy path dir approve) s .done s')
    (mem : call ∈ s.answered s') : ¬ Failure planned s' call := by
  obtain ⟨file, run⟩ := returns_withDescription run
  obtain ⟨_, s₁, resolved, run⟩ := returns_bind_iff.mp run
  obtain ⟨_, s₂, echoed, run⟩ := returns_bind_iff.mp run
  extract_lets destroying at run
  have begun : ∃ wanted m, Quiet s₂ m ∧ Returns (destroying wanted) m .done s' := by
    split at run
    · exact ⟨true, s₂, refl _, run⟩
    · obtain ⟨wanted, m, confirmed, run⟩ := returns_bind_iff.mp run
      exact ⟨wanted, m, quiet_destructionConfirmed.returns confirmed, run⟩
  obtain ⟨wanted, m, quiet, run⟩ := begun
  have early : Quiet s m := IsTrans.trans _ _ _ ((quiet_resolveReferences _ _).returns resolved)
    (IsTrans.trans _ _ _ ((quiet_echo _).returns echoed) quiet)
  unfold destroying at run
  split at run
  · exact not_failure_of_judged early (judges_of_elsewhere (by grind)) run mem
  · obtain ⟨_, m', located, run⟩ := returns_bind_iff.mp run
    have early' : Quiet s m' := IsTrans.trans _ _ _ early (returns_locate located).1
    refine not_failure_of_judged early' (judges_part (Destroy.loud_infrastructure dir) ?_ ?_) run mem
    · rintro ⟨changes, errors⟩
      refine judges_of_elsewhere ?_
      grind
    · rintro ⟨changes, errors⟩ m s' troubled ended
      dsimp only at troubled ended
      rw [if_neg (by simpa using troubled)] at ended
      obtain ⟨_, _, -, last⟩ := returns_bind_iff.mp ended
      exact troubled (ofErrors_eq_done_iff.mp (returns_pure_iff.mp last).1.symm)

end Commands

end Project

namespace Command

open Tool

/-- A plan, an apply or a destruction in which a command of the tool has failed does not end well,
if the failure is heard. -/
theorem failed_of_heard_failure {c : Name} {path dir : String} {approve : Bool} {s s' : Session}
    {r : Outcome Project.Status}
    {argv : List String} {reply : Reply} (known : c ∈ [Name.plan, .apply, .destroy])
    (run : (c.runOn path dir approve).perform s = (r, s')) (asked : (argv, reply) ∈ s.answered s')
    (tool : argv.head? = some "terraform") (ran : reply.missing = false) (failed : reply.code ≠ 0)
    (heard : Heard (c == .plan || !approve) s' argv reply) :
    r = .ok .failed ∨ ∃ fault, r = .error fault := by
  have failure : Failure (c == .plan || !approve) s' (argv, reply) := ⟨tool, failed, ran, heard⟩
  rcases r with fault | (_ | _)
  · exact .inr ⟨fault, rfl⟩
  · simp only [List.mem_cons, List.not_mem_nil, or_false] at known
    rcases known with rfl | rfl | rfl
    · exact (Project.not_failure_of_plan run asked failure).elim
    · exact (Project.not_failure_of_apply run asked failure).elim
    · exact (Project.not_failure_of_destroy run asked failure).elim
  · exact .inl rfl

namespace Sample

def refusal : Reply := { code := 1, err := "Error: denied", looks := [(0, 1)] }

/-- The tool refuses to destroy what a description stands for. -/
def denied (description : String) : Session where
  disk := { files := [("main.cloud", description), ("IaC/main.tf.json", "\x7b\x7d")] }
  locator := .ofTable "" []
  script := [refusal]

def network : String := "infrastructure \x7b\nnetwork \x7b\ncidr_block = \"\"\n"

def outline (run : Outcome Project.Status × Session) :
    Option Project.Status × List (List String) × Bool :=
  (run.1.toOption, run.2.commands, noticed run.2.locator "Error: denied")

theorem outline_of_network : outline
    ((Name.destroy.runOn "main.cloud" "IaC" true).perform (denied network)) =
    (some .failed, [["terraform", "destroy", "-auto-approve"]], true) := by decide +kernel

theorem outline_of_blank : outline
    ((Name.destroy.runOn "main.cloud" "IaC" true).perform (denied "")) =
    (some .done, [["terraform", "destroy", "-auto-approve"]], false) := by decide +kernel

theorem refusal_mem {description : String} {s' : Session}
    (asked : s'.commands = [["terraform", "destroy", "-auto-approve"]]) :
    (["terraform", "destroy", "-auto-approve"], refusal) ∈ (denied description).answered s' := by
  rw [Session.answered, asked]
  exact List.mem_singleton_self _

theorem heard_of_noticed {t : Session} (placed : noticed t.locator "Error: denied" = true) :
    Heard false t ["terraform", "destroy", "-auto-approve"] refusal where
  init := by simp
  plan := by simp
  apply := by simp
  destroy _ := ⟨"Error: denied", by decide, placed⟩

theorem ok_of_toOption {α : Type} {r : Outcome α} {a : α} (h : r.toOption = some a) : r = .ok a := by
  cases r <;> cases h
  rfl

end Sample

/-- The destruction of a network is refused, and the command fails. -/
theorem failed_of_heard_refusal :
    ∃ s', (Name.destroy.runOn "main.cloud" "IaC" true).perform (Sample.denied Sample.network) =
      (.ok .failed, s') ∧
    (["terraform", "destroy", "-auto-approve"], Sample.refusal) ∈
    (Sample.denied Sample.network).answered s' ∧
    Sample.refusal.missing = false ∧ Sample.refusal.code ≠ 0 ∧
    Heard false s' ["terraform", "destroy", "-auto-approve"] Sample.refusal := by
  rcases run : (Name.destroy.runOn "main.cloud" "IaC" true).perform
    (Sample.denied Sample.network) with ⟨r, s'⟩
  have outline := Sample.outline_of_network
  rw [run] at outline
  obtain ⟨ended, asked, placed⟩ : r.toOption = some .failed ∧
      s'.commands = [["terraform", "destroy", "-auto-approve"]] ∧
        noticed s'.locator "Error: denied" = true := by
    simpa [Sample.outline] using outline
  have heard := Sample.heard_of_noticed placed
  have refused : (["terraform", "destroy", "-auto-approve"], Sample.refusal) ∈
      (Sample.denied Sample.network).answered s' :=
    Sample.refusal_mem asked
  rcases failed_of_heard_failure (by simp) run refused rfl rfl
    (by decide) heard with rfl | ⟨fault, rfl⟩
  · exact ⟨s', rfl, refused, rfl, by decide, heard⟩
  · cases ended

/-- Without a place for it in the description, the same refusal passes for success. -/
theorem done_of_unheard_refusal :
    ∃ s', (Name.destroy.runOn "main.cloud" "IaC" true).perform (Sample.denied "") =
      (.ok .done, s') ∧
    (["terraform", "destroy", "-auto-approve"], Sample.refusal) ∈ (Sample.denied "").answered s' ∧
    Sample.refusal.missing = false ∧ Sample.refusal.code ≠ 0 := by
  rcases run : (Name.destroy.runOn "main.cloud" "IaC" true).perform (Sample.denied "") with ⟨r, s'⟩
  have outline := Sample.outline_of_blank
  rw [run] at outline
  obtain ⟨ended, asked, -⟩ : r.toOption = some .done ∧
      s'.commands = [["terraform", "destroy", "-auto-approve"]] ∧
        noticed s'.locator "Error: denied" = false := by
    simpa [Sample.outline] using outline
  exact ⟨s', by rw [Sample.ok_of_toOption ended], Sample.refusal_mem asked, rfl, by decide⟩

end Command

end Stratus
