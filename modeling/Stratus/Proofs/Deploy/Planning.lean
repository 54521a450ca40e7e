import Stratus.Proofs.Deploy.Failure

/-!
When planning comes to its end. Each part handles its faults by telling them, so it goes on just if
the console shows what it tells; the check of the playbook also needs a container to remove.
-/
namespace Stratus

open Effect Session

/-- The session that a run leaves, however it ends. -/
def Session.after {α : Type} (s : Session) (p : Job α) : Session := (p.perform s).2

/-- The session without the changes and troubles gathered so far. -/
def Session.fresh (s : Session) : Session := { s with changes := [], errors := [] }

namespace Job

variable {α β : Type} {p : Job α} {q : Job β} {job : Job Unit} {handler : Fault → Job Unit}
  {s : Session}

def Finishes (p : Job α) (s : Session) : Prop := ∃ a s', Returns p s a s'

theorem after_of_returns {a : α} {m : Session} (run : Returns p s a m) : s.after p = m := by
  rw [Session.after, show p.perform s = (.ok a, m) from run]

theorem after_of_fails {fault : Fault} {m : Session} (run : Fails p s fault m) : s.after p = m := by
  rw [Session.after, show p.perform s = (.error fault, m) from run]

theorem finishes_bind_iff : Finishes (p >>= fun _ => q) s ↔
    Finishes p s ∧ Finishes q (s.after p) := by
  unfold Finishes
  simp only [returns_bind_iff]
  constructor
  · rintro ⟨b, s', a, m, begun, ended⟩
    exact ⟨⟨a, m, begun⟩, b, s', after_of_returns begun ▸ ended⟩
  · rintro ⟨⟨a, m, begun⟩, b, s', ended⟩
    exact ⟨b, s', a, m, begun, after_of_returns begun ▸ ended⟩

theorem finishes_tryFinally_iff :
    Finishes (tryFinally p q) s ↔ Finishes p s ∧ Finishes q (s.after p) := by
  constructor
  · rintro ⟨a, s', run⟩
    obtain ⟨m, b, begun, ended⟩ := returns_of_tryFinally run
    exact ⟨⟨a, m, begun⟩, b, s', after_of_returns begun ▸ ended⟩
  · rintro ⟨⟨a, m, begun⟩, b, s', ended⟩
    exact ⟨a, s', tryFinally_run_of_returns begun (after_of_returns begun ▸ ended)⟩

/-- Whatever fault the job ends with, the line that tells it is shown. -/
def Excused (heading : String) (job : Job Unit) (s : Session) : Prop :=
  ∀ fault s', Fails job s fault s' → s'.console.Shows (heading ++ fault.message)

theorem finishes_tryCatch_iff {heading : String}
    (telling : ∀ fault m, Finishes (handler fault) m ↔ m.console.Shows (heading ++ fault.message)) :
    Finishes (tryCatch job handler) s ↔ Excused heading job s := by
  rcases returns_or_fails job s with ⟨u, m, run⟩ | ⟨fault, m, run⟩
  · exact iff_of_true ⟨u, m, tryCatch_run_of_returns run⟩ fun fault s' failed =>
      (run.not_fails failed).elim
  · have handled : Finishes (tryCatch job handler) s ↔ Finishes (handler fault) m := by
      simp only [Finishes, Returns, tryCatch_run_of_fails run]
    rw [handled, telling]
    refine ⟨fun shown fault' m' failed => ?_, fun excused => excused fault m run⟩
    cases run.symm.trans failed
    exact shown

theorem after_tryCatch {P : Session → Prop}
    (keeps : ∀ fault (m : Session), P (m.after (handler fault)) ↔ P m) :
    P (s.after (tryCatch job handler)) ↔ P (s.after job) := by
  rcases returns_or_fails job s with ⟨u, m, run⟩ | ⟨fault, m, run⟩
  · rw [after_of_returns run, after_of_returns (tryCatch_run_of_returns run)]
  · have handled : s.after (tryCatch job handler) = m.after (handler fault) :=
      congrArg (fun r => r.2) (tryCatch_run_of_fails run)
    rw [after_of_fails run, handled, keeps]

theorem finishes_separately_iff : Finishes (separately job) s ↔ Finishes job s.fresh := by
  rcases run : job.perform s.fresh with ⟨fault | u, m⟩
  · refine iff_of_false (fun ⟨part, s', other⟩ => ?_) fun ⟨u, s', other⟩ => ?_
    · cases (perform_separately run).symm.trans other
    · cases run.symm.trans other
  · exact iff_of_true ⟨_, _, perform_separately run⟩ ⟨u, m, run⟩

theorem finishes_tell_iff {text : String} : Finishes (tell text) s ↔ s.console.Shows text := by
  simp [Finishes, returns_tell_iff]

theorem returns_runChecked_iff {argv : List Data} {u : Unit} {s' : Session} :
    Returns (runChecked argv) s u s' ↔
    s.nextReply.missing = false ∧ s.nextReply.code = 0 ∧ s' = s.asked "run" argv := by
  unfold runChecked refuseFailure Job.run
  simp only [returns_bind_iff, returns_ask_iff]
  constructor
  · rintro ⟨_, _, ⟨found, rfl, rfl⟩, run⟩
    split at run
    · next zero =>
        cases run
        exact ⟨found, by simpa using zero, rfl⟩
    · cases run
  · rintro ⟨found, zero, rfl⟩
    refine ⟨_, _, ⟨found, rfl, rfl⟩, ?_⟩
    rw [if_pos (by simp [zero])]
    rfl

theorem finishes_modify (g : Session → Session) : Finishes (modify g : Job PUnit) s := ⟨(), g s, rfl⟩

end Job

namespace Plan

open Job

variable {dir : String} {s : Session}

theorem finishes_infrastructure_iff :
    Finishes (infrastructure dir) s ↔
      Excused "Exception in terraform plan: " (infrastructureSteps dir) s :=
  finishes_tryCatch_iff fun _ _ => finishes_tell_iff

theorem finishes_removeCluster : Finishes removeCluster s := by
  refine (finishes_tryCatch_iff fun _ _ => finishes_tell_iff).mpr fun fault s' failed => ?_
  have missing : fault = .noFile "minikube" := by
    rcases fails_bind_iff.mp failed with first | ⟨_, m, -, rest⟩
    · exact (fails_ask_iff.mp first).2.1
    · rcases fails_bind_iff.mp rest with second | ⟨_, _, -, done⟩
      · exact (fails_ask_iff.mp second).2.1
      · cases done
  rw [missing]
  exact s'.console.plain _ List.mem_cons_self _ (by decide +kernel)

theorem finishes_kubernetes_iff :
    Finishes (kubernetes dir) s ↔
      Excused "Exception in kubernetes plan: " (kubernetesSteps dir) s := by
  refine finishes_tryFinally_iff.trans ((and_iff_left finishes_removeCluster).trans ?_)
  refine finishes_tryCatch_iff fun fault m => ?_
  exact finishes_bind_iff.trans ((and_iff_left (finishes_modify _)).trans finishes_tell_iff)

/-- Docker answers, there is a playbook and room for the inventory beside it, and the console shows
where they are. -/
structure Ready (dir : String) (s : Session) : Prop where
  found : s.nextReply.missing = false
  succeeds : s.nextReply.code = 0
  resolved : s.console.Shows ("Resolved IaC path: " ++ Disk.absolute dir)
  playbook : (s.asked "run" (words ["docker", "--version"])).disk.holds
    (Path.join dir "playbook.yml") = true
  inventory : ∃ d, (s.asked "run" (words ["docker", "--version"])).disk.write
    (inventoryFile dir) localInventory = .ok d
  created : s.console.Shows ("Created temporary inventory at " ++ shownInventory dir)

theorem returns_prepare_iff : (∃ m, Returns (prepare dir) s true m) ↔ Ready dir s := by
  unfold prepare
  simp only [returns_bind_iff, returns_tryCatch_iff]
  constructor
  · rintro ⟨m, e, m', begun | ⟨fault, n, -, handled⟩, ended⟩
    · obtain ⟨_, n, checked, _, n', shown, disk, _, looked, rest⟩ := begun
      obtain ⟨found, succeeds, rfl⟩ := returns_runChecked_iff.mp checked
      obtain ⟨resolved, rfl⟩ := returns_tell_iff.mp shown
      cases looked
      split at rest
      · cases rest
        cases ended
      · next playbook =>
          obtain ⟨_, _, written, rest⟩ := returns_bind_iff.mp rest
          obtain ⟨d, room, rfl⟩ := returns_changeDisk_iff.mp written
          obtain ⟨_, _, shown, -⟩ := returns_bind_iff.mp rest
          exact ⟨found, succeeds, resolved, by simpa using playbook, ⟨d, room⟩,
            (returns_tell_iff.mp shown).1⟩
    · cases handled
      cases ended
  · rintro ⟨found, succeeds, resolved, playbook, ⟨d, room⟩, created⟩
    let m : Session := { s.asked "run" (words ["docker", "--version"]) with disk := d }
    refine ⟨m, .error true, m, .inl ⟨(), _, returns_runChecked_iff.mpr ⟨found, succeeds, rfl⟩, (), _,
      returns_tell_iff.mpr ⟨resolved, rfl⟩, _, _, rfl, ?_⟩, rfl⟩
    rw [if_neg (by simp [playbook])]
    refine returns_bind_iff.mpr ⟨(), m, returns_changeDisk_iff.mpr ⟨d, room, rfl⟩, ?_⟩
    exact returns_bind_iff.mpr ⟨(), m, returns_tell_iff.mpr ⟨created, rfl⟩, rfl⟩

/-- The container can be stopped, and if its inventory is still there the console shows that it is
removed. -/
def Removable (dir : String) (s : Session) : Prop :=
  s.nextReply.missing = false ∧
    ((s.asked "run" (words ["docker", "stop", container])).disk.isFile (inventoryFile dir) = true →
      s.console.Shows ("Deleted temporary inventory at " ++ shownInventory dir))

theorem finishes_removeContainer_iff : Finishes (removeContainer dir) s ↔ Removable dir s := by
  unfold Finishes removeContainer Job.run Removable
  simp only [returns_bind_iff, returns_ask_iff]
  constructor
  · rintro ⟨u, s', _, m, ⟨found, rfl, rfl⟩, _, _, looked, _, _, removed, rest⟩
    cases looked
    obtain ⟨_, -, rfl⟩ := returns_changeDisk_iff.mp removed
    refine ⟨found, fun there => ?_⟩
    rw [if_pos there] at rest
    exact (returns_tell_iff.mp rest).1
  · rintro ⟨found, told⟩
    let m := s.asked "run" (words ["docker", "stop", container])
    let d := if m.disk.isFile (inventoryFile dir) then m.disk.remove (inventoryFile dir) else m.disk
    refine ⟨(), { m with disk := d }, _, m, ⟨found, rfl, rfl⟩, m.disk, m, rfl, (), _,
      returns_changeDisk_iff.mpr ⟨d, rfl, rfl⟩, ?_⟩
    split
    · next there => exact returns_tell_iff.mpr ⟨told there, rfl⟩
    · rfl

theorem finishes_checked_iff {handler : Fault → Job Unit} (handling : ∀ fault, handler fault = do
      Job.report (.general "configuration"
        ("Unexpected error during Docker setup: " ++ fault.message))
      Job.tell ("Unexpected error during Docker setup: " ++ fault.message)) :
    Finishes (tryFinally (tryCatch (checkReported dir) handler) (removeContainer dir)) s ↔
      Excused "Unexpected error during Docker setup: " (checkReported dir) s ∧
        Removable dir (s.after (checkReported dir)) := by
  have telling (fault : Fault) (m : Session) : Finishes (handler fault) m ↔
      m.console.Shows ("Unexpected error during Docker setup: " ++ fault.message) := by
    rw [handling]
    exact finishes_bind_iff.trans ((and_iff_right (finishes_modify _)).trans finishes_tell_iff)
  -- what a container needs to be removed is not touched by a report, whether or not it can be told
  have keeps (fault : Fault) (m : Session) : Removable dir (m.after (handler fault)) ↔
      Removable dir m := by
    rcases returns_or_fails (handler fault) m with ⟨u, m', run⟩ | ⟨other, m', run⟩
    · rw [after_of_returns run]
      rw [handling] at run
      obtain ⟨_, _, reported, told⟩ := returns_bind_iff.mp run
      cases reported
      obtain ⟨-, rfl⟩ := returns_tell_iff.mp told
      rfl
    · rw [after_of_fails run]
      rw [handling] at run
      rcases fails_bind_iff.mp run with reported | ⟨_, _, reported, told⟩
      · cases reported
      · cases reported
        obtain rfl := fails_tell told
        rfl
  rw [finishes_tryFinally_iff, finishes_tryCatch_iff telling, finishes_removeContainer_iff,
    after_tryCatch keeps]

theorem finishes_configuration_iff : Finishes (configuration dir) s ↔ Ready dir s ∧
    Excused "Unexpected error during Docker setup: " (checkReported dir) (s.after (prepare dir)) ∧
      Removable dir ((s.after (prepare dir)).after (checkReported dir)) := by
  constructor
  · rintro ⟨u, s', run⟩
    obtain ⟨ready, m, prepared, rest⟩ := returns_bind_iff.mp run
    cases ready with
    | false => cases rest
    | true =>
      rw [after_of_returns prepared, ← finishes_checked_iff fun _ => rfl]
      exact ⟨returns_prepare_iff.mp ⟨m, prepared⟩, u, s', rest⟩
  · rintro ⟨ready, checked⟩
    obtain ⟨m, prepared⟩ := returns_prepare_iff.mpr ready
    rw [after_of_returns prepared, ← finishes_checked_iff fun _ => rfl] at checked
    obtain ⟨u, s', rest⟩ := checked
    exact ⟨u, s', returns_bind_iff.mpr ⟨true, m, prepared, rest⟩⟩

/-- Planning comes to its end just if the console shows what ends one of its parts early, Docker
answers, the playbook and the room for its inventory are there, the container can be stopped, and
the paths are shown. -/
theorem all_finishes_iff (dir : String) (s : Session) :
    let planned := s.after (infrastructure dir)
    let tried := fresh (planned.after (Job.separately (kubernetes dir)))
    Finishes (all dir) s ↔ Excused "Exception in terraform plan: " (infrastructureSteps dir) s ∧
      Excused "Exception in kubernetes plan: " (kubernetesSteps dir) (fresh planned) ∧
        Ready dir tried ∧
      Excused "Unexpected error during Docker setup: " (checkReported dir)
        (tried.after (prepare dir)) ∧
      Removable dir ((tried.after (prepare dir)).after (checkReported dir)) := by
  intro planned tried
  have last (m : Session) : Finishes (pure () : Job Unit) m := ⟨(), m, rfl⟩
  rw [all, finishes_bind_iff, finishes_infrastructure_iff, finishes_bind_iff, finishes_separately_iff,
    finishes_kubernetes_iff, finishes_bind_iff, and_iff_left (last _), finishes_separately_iff,
    finishes_configuration_iff]

/-- Where no tool is installed there is no container to remove, and the plan fails for that. -/
theorem all_fails_without_tools : ¬ Finishes (all "IaC")
    { locator := .ofTable "main.cloud" [], script := List.replicate 4 { missing := true } } := by
  let s : Session :=
    { locator := .ofTable "main.cloud" [], script := List.replicate 4 { missing := true } }
  have missing : (fresh ((s.after (infrastructure "IaC")).after
      (Job.separately (kubernetes "IaC")))).nextReply.missing = true := by decide +kernel
  intro finishes
  rw [all, finishes_bind_iff, finishes_bind_iff, finishes_bind_iff, finishes_separately_iff,
    finishes_separately_iff, finishes_configuration_iff] at finishes
  have found := finishes.2.2.1.1.found
  rw [missing] at found
  cases found

end Plan

end Stratus
