import Stratus.Deploy.Destroy
import Stratus.Deploy.Apply
import Stratus.Deploy.Plan
import Stratus.Proofs.World.Job

/-!
The parts of a deployment that leave the infrastructure tool alone: keys, instances, clusters and
playbooks are handled by commands of other tools.
-/
namespace Stratus

open Effect Job Session

/-- A command of another tool than that of the infrastructure. -/
def Elsewhere (argv : List String) : Prop := argv.head? ≠ some "terraform"

@[grind .] theorem elsewhere_cons {tool : String} (other : tool ≠ "terraform") (rest : List String) :
    Elsewhere (tool :: rest) := by
  simpa [Elsewhere] using other

@[grind .] theorem elsewhere_words {tool : String} (other : tool ≠ "terraform") (rest : List String) :
    Elsewhere ((words (tool :: rest)).map Data.text) := by
  rw [map_text_words]
  exact elsewhere_cons other rest

@[grind .] theorem elsewhere_words_append {tool : String} (other : tool ≠ "terraform")
    (rest : List String) (more : List Data) :
    Elsewhere ((words (tool :: rest) ++ more).map Data.text) := by
  rw [List.map_append, map_text_words]
  exact elsewhere_cons other _

/-- A job of other tools. -/
abbrev Spares (names : String → Prop) {α : Type} (job : Job α) : Prop :=
  Keeps (Footprint Elsewhere names) job

variable {names : String → Prop} {dir key label : String}
  {config outputs region address subnet : Data} {reply : Reply}

namespace RemoteUser

@[grind .] theorem keeps_ofInstances {machines : Data} :
    Spares names (ofInstances config machines) := by
  unfold ofInstances
  refine keeps_bind (keeps_liftM _) fun region => ?_
  refine keeps_bind keeps_awsSession fun _ => ?_
  refine keeps_bind keeps_awsClient fun _ => ?_
  refine keeps_bind (keeps_liftM _) fun machines => keeps_findSomeM? fun machine => ?_
  refine keeps_bind (keeps_liftM _) fun imaged => ?_
  split
  · exact keeps_pure none
  · refine keeps_bind (keeps_liftM _) fun image =>
      keeps_bind (keeps_tryCatch ?_ fun fault => ?_) fun _ => ?_ <;> grind

@[grind .] theorem keeps_ofConfiguration : Spares names (ofConfiguration config) := by
  unfold ofConfiguration
  grind

@[grind .] theorem keeps_ofPlaybookFile : Spares names (ofPlaybookFile dir) := by
  unfold ofPlaybookFile
  refine keeps_bind keeps_disk fun disk => ?_
  split
  · exact keeps_pure none
  · refine keeps_bind (keeps_tryCatch ?_ fun _ => ?_) fun _ => ?_ <;> grind

@[grind .] theorem keeps_find : Spares names (find dir) := by
  unfold find
  refine keeps_bind keeps_ofPlaybookFile fun user => ?_
  split
  · exact keeps_pure _
  · refine keeps_bind (keeps_tryCatch (keeps_map keeps_readJson) fun _ => keeps_pure none)
      fun config => ?_
    split
    · refine keeps_bind (keeps_tryCatch keeps_ofConfiguration fun _ => keeps_pure none) fun user => ?_
      grind
    · exact keeps_throw _

end RemoteUser

namespace Keys

@[grind .] theorem keeps_generate : Spares names (generate dir) := by
  unfold generate
  grind

@[grind .] theorem keeps_create (h : names (Disk.normal (Path.withSuffix (privateKey dir) ".pem"))) :
    Spares names (create dir) := by
  unfold create
  grind

@[grind .] theorem keeps_claim (h : names (Disk.normal (Path.withSuffix (privateKey dir) ".pem"))) :
    Spares names (claim dir) := by
  unfold claim
  grind

theorem keeps_setUp {provider : String} (made : names (Disk.normal (directory dir)))
    (written : names (Disk.normal (Path.withSuffix (privateKey dir) ".pem"))) :
    Spares names (setUp dir region provider) := by
  unfold setUp
  refine keeps_bind (keeps_changeDisk fun d d' h => ?_) fun _ => ?_
  · exact (Disk.sameOutside_makeDir h).mono fun name same => same ▸ made
  · extract_lets named
    split
    · refine keeps_bind keeps_awsClient fun _ => ?_
      exact keeps_bind (keeps_tryCatch (keeps_claim written) fun _ => keeps_throw _) fun _ =>
        keeps_pure _
    · grind
    · grind

end Keys

namespace Apply

theorem keeps_enterKey {provider : String} (made : names (Disk.normal (Keys.directory dir)))
    (written : names (Disk.normal (Path.withSuffix (Keys.privateKey dir) ".pem"))) :
    Spares names (enterKey dir config provider region) := by
  have set : Spares names (Keys.setUp dir region provider) := Keys.keeps_setUp made written
  unfold enterKey
  grind

@[grind .] theorem keeps_clusterOf {output : Data} : Spares names (clusterOf outputs output) := by
  unfold clusterOf
  grind

@[grind .] theorem keeps_clusterIn {ending : String} :
    Spares names (clusterIn outputs label ending) := by
  unfold clusterIn
  grind

@[grind .] theorem keeps_cluster? {find : Job Data} (h : Spares names find) :
    Spares names (cluster? label find) := by
  unfold cluster?
  grind

@[grind .] theorem keeps_followResources : Spares names (followResources reply) := by
  unfold followResources
  grind

@[grind .] theorem keeps_orReport {heading : String} {body : Job Unit} (h : Spares names body) :
    Spares names (orReport heading body) := by
  unfold orReport
  refine keeps_bind (keeps_tryCatch ?_ fun fault => ?_) fun _ => ?_ <;> grind

@[grind .] theorem keeps_checkCluster : Spares names checkCluster := by
  unfold checkCluster
  grind

@[grind .] theorem keeps_applyToCluster : Spares names (applyToCluster dir) := by
  unfold applyToCluster
  grind

@[grind .] theorem keeps_useGoogle : Spares names (useGoogle dir config outputs) := by
  unfold useGoogle
  refine keeps_bind keeps_enter fun _ => keeps_bind (keeps_tryCatch ?_ fun fault => ?_) fun _ => ?_
  · refine keeps_bind (keeps_liftM _) fun providers => ?_
    refine keeps_bind (keeps_liftM _) fun settings => ?_
    refine keeps_bind (keeps_liftM _) fun project => ?_
    refine keeps_bind (keeps_liftM _) fun zone => ?_
    refine keeps_bind (keeps_cluster? keeps_clusterIn) fun name => ?_
    split
    · refine keeps_bind keeps_tell fun _ => keeps_bind keeps_enter fun _ => ?_
      grind
    · exact keeps_earlyReturn false
  · grind
  · grind

@[grind .] theorem keeps_updateConfig {name : Data} : Spares names (updateConfig name region) := by
  unfold updateConfig
  refine keeps_bind (keeps_tryCatch ?_ fun fault => ?_) fun _ => ?_ <;> grind

@[grind .] theorem keeps_useAws : Spares names (useAws outputs region) := by
  unfold useAws
  grind

@[grind .] theorem keeps_applyResources : Spares names (applyResources dir) := by
  unfold applyResources
  grind

end Apply

namespace Infrastructure

variable {may : List String → Prop}

@[grind .] theorem keeps_diagnose {context : Assoc Data} {message : String} :
    Leaves may names (diagnose context message) := by
  unfold diagnose
  grind

@[grind .] theorem keeps_followLine (line : String) : Leaves may names (followLine line) := by
  unfold followLine
  grind

theorem keeps_deploy (all : ∀ argv, may argv) : Leaves may names deploy := by
  unfold deploy
  refine keeps_bind keeps_enter fun _ => keeps_bind (keeps_start (all _)) fun reply => ?_
  split
  · exact keeps_bind keeps_diagnose fun _ => keeps_pure ()
  · refine keeps_bind keeps_enter fun _ => keeps_bind (keeps_start (all _)) fun reply => ?_
    refine keeps_bind (keeps_forM keeps_followLine) fun _ => ?_
    grind

def prepared (p : Preparation) (dir : String) : Job Data := do
  let config ← readJson (Playbook.configFile dir)
  let needsKey ← p.needsKey config
  let (provider, region) ← Provider.of config
  let copy ← config.copied
  let keyed ← if needsKey then p.enterKey config provider region else pure copy
  p.addAddresses keyed

theorem apply_eq {p : Preparation} (h : p.tfvars = none) (dir : String) : apply p dir =
    tryCatch (do swapped dir (← prepared p dir) deploy) fun fault =>
      report (.general "infrastructure" fault.message) := by
  unfold apply prepared
  rw [h]
  simp only [bind_assoc]
  refine congrArg (fun body : Job Unit => tryCatch body fun fault =>
    report (.general "infrastructure" fault.message)) ?_
  refine bind_congr fun config => bind_congr fun needsKey => bind_congr fun site =>
    bind_congr fun copy => ?_
  split
  · rw [bind_assoc]
    rfl
  · rw [pure_bind]
    rfl

theorem keeps_prepared {p : Preparation}
    (keyed : ∀ config provider region, Leaves may names (p.enterKey config provider region)) :
    Leaves may names (prepared p dir) := by
  unfold prepared
  grind

end Infrastructure

namespace Plan

@[grind .] theorem keeps_advise {blockType message suggestion : String} :
    Spares names (advise blockType message suggestion) := by
  unfold advise
  grind

@[grind .] theorem keeps_tellOutputs : Spares names (tellOutputs label reply) := by
  unfold tellOutputs
  grind

@[grind .] theorem keeps_planned {out : String} : Spares names (planned out) := by
  unfold planned
  refine keeps_bind (keeps_forIn _ fun line _ => ?_) fun _ => keeps_pure ()
  split <;> grind

@[grind .] theorem keeps_dockerRuns : Spares names dockerRuns := by
  unfold dockerRuns
  grind

@[grind .] theorem keeps_readAlong {n : Nat} {out err : List String} :
    Spares names (readAlong label n out err) := by
  fun_induction readAlong label n out err <;> grind

@[grind .] theorem keeps_startCluster : Spares names startCluster := by
  unfold startCluster
  refine keeps_bind (by grind) fun stopped => keeps_bind keeps_tell fun _ => ?_
  refine keeps_bind (by grind) fun deleted => keeps_bind keeps_tell fun _ => ?_
  refine keeps_bind (by grind) fun reply => keeps_bind keeps_readAlong fun read => ?_
  grind

@[grind .] theorem keeps_clusterStarts : Spares names clusterStarts := by
  unfold clusterStarts
  grind

@[grind .] theorem keeps_nodesAnswer : Spares names nodesAnswer := by
  unfold nodesAnswer
  grind

@[grind .] theorem keeps_becomesReady {n : Nat} : Spares names (becomesReady n) := by
  fun_induction becomesReady n <;> grind

@[grind .] theorem keeps_tried {out : String} : Spares names (tried out) := by
  unfold tried
  refine keeps_bind (keeps_forIn _ fun line _ => ?_) fun _ => keeps_pure ()
  split
  · refine keeps_bind keeps_tell fun _ => ?_
    extract_lets found
    clear_value found
    split <;> grind
  · exact keeps_pure _

@[grind .] theorem keeps_kubernetesSteps : Spares names (kubernetesSteps dir) := by
  unfold kubernetesSteps
  grind

@[grind .] theorem keeps_removeCluster : Spares names removeCluster := by
  unfold removeCluster
  refine keeps_tryCatch (keeps_bind ?_ fun _ => ?_) fun fault => ?_ <;> grind

@[grind .] theorem keeps_kubernetes : Spares names (kubernetes dir) := by
  unfold kubernetes
  grind

@[grind .] theorem keeps_prepare (all : ∀ name, names name) : Spares names (prepare dir) := by
  unfold prepare
  refine keeps_bind (keeps_tryCatch ?_ fun fault => ?_) fun _ => ?_ <;> grind

@[grind .] theorem elsewhere_inContainer (command : List String) :
    Elsewhere ((words (inContainer command)).map Data.text) := elsewhere_words (by decide) _

@[grind .] theorem keeps_runPlaybook {options : List String} :
    Spares names (runPlaybook options) := by
  unfold runPlaybook
  grind

@[grind .] theorem keeps_followTasks {task : Option String} {lines : List String} :
    Spares names (followTasks task lines) := by
  fun_induction followTasks task lines <;> grind

@[grind .] theorem keeps_runAgain : Spares names runAgain := by
  unfold runAgain
  refine keeps_bind (keeps_run ?_) fun _ => ?_ <;> grind

@[grind .] theorem keeps_check : Spares names (check dir) := by
  unfold check
  refine keeps_bind (by grind) fun _ => keeps_bind (by grind) fun _ => ?_
  refine keeps_bind (keeps_runChecked (elsewhere_inContainer _)) fun _ => ?_
  refine keeps_bind keeps_runPlaybook fun reply => keeps_bind keeps_tellOutputs fun _ => ?_
  grind

@[grind .] theorem keeps_checkReported : Spares names (checkReported dir) := by
  unfold checkReported
  grind

@[grind .] theorem keeps_removeContainer (all : ∀ name, names name) :
    Spares names (removeContainer dir) := by
  unfold removeContainer
  grind

@[grind .] theorem keeps_configuration (all : ∀ name, names name) :
    Spares names (configuration dir) := by
  unfold configuration
  grind

end Plan

namespace Playbook

@[grind .] theorem keeps_specifiedKey? : Spares names (specifiedKey? dir) := by
  unfold specifiedKey?
  refine keeps_bind keeps_readJson fun config => keeps_bind keeps_disk fun disk => ?_
  refine keeps_bind (keeps_liftM _) fun provided => ?_
  extract_lets machines
  have sought : Spares names (machines ()) := by
    refine keeps_bind (keeps_liftM _) fun resourceful => ?_
    split
    · exact keeps_pure none
    · refine keeps_bind (keeps_liftM _) fun resources => keeps_bind (keeps_liftM _) fun entries => ?_
      split
      · refine keeps_bind (keeps_liftM _) fun found => keeps_findSomeM? fun machine => ?_
        grind
      · exact keeps_pure none
  grind

@[grind .] theorem keeps_key : Spares names (Playbook.key dir) := by
  unfold Playbook.key
  grind

@[grind .] theorem keeps_publicAddress? : Spares names (publicAddress? outputs) := by
  unfold publicAddress?
  refine keeps_bind (keeps_liftM _) fun entries => ?_
  refine keeps_bind (keeps_forIn _ fun entry _ => ?_) fun _ => ?_
  · grind
  · extract_lets named
    have sought : Spares names (named ()) := by
      refine keeps_bind (keeps_forIn _ fun entry _ => ?_) fun found => ?_ <;> grind
    grind

@[grind .] theorem keeps_isGoogle : Spares names (isGoogle dir) := by
  unfold isGoogle
  grind

@[grind .] theorem keeps_userFor : Spares names (userFor dir) := by
  unfold userFor
  grind

@[grind .] theorem keeps_reachable : Spares names (reachable dir address key) := by
  unfold reachable
  refine keeps_bind (keeps_tryCatch ?_ fun fault => ?_) fun _ => ?_ <;> grind

@[grind .] theorem keeps_followLines {last : Option String} {lines : List String} :
    Spares names (followLines last lines) := by
  fun_induction followLines last lines <;> grind

@[grind .] theorem keeps_deploy (all : ∀ name, names name) :
    Spares names (deploy dir address key) := by
  unfold deploy
  refine keeps_tryCatch ?_ fun fault => keeps_report
  refine keeps_bind keeps_userFor fun user => keeps_bind (keeps_writeDocuments (all _)) fun _ => ?_
  refine keeps_bind (keeps_start (elsewhere_cons (by decide) _)) fun reply => ?_
  grind

@[grind .] theorem keeps_openNetwork {id : Data} : Spares names (openNetwork dir id) := by
  unfold openNetwork
  refine keeps_bind (keeps_tryCatch ?_ fun fault => ?_) fun _ => ?_
  · refine keeps_bind keeps_readJson fun config => keeps_bind (keeps_liftM _) fun provided => ?_
    extract_lets opening
    have opened : Spares names (opening ()) := by
      refine keeps_bind (keeps_liftM _) fun providers => keeps_bind (keeps_liftM _) fun settings => ?_
      refine keeps_bind (keeps_liftM _) fun region => keeps_bind keeps_tell fun _ => ?_
      refine keeps_bind keeps_awsSession fun _ => keeps_bind keeps_awsClient fun _ => ?_
      refine keeps_bind keeps_tell fun _ => keeps_bind keeps_aws fun description => ?_
      grind
    grind
  · grind
  · grind

@[grind .] theorem keeps_tellSubnet : Spares names (tellSubnet subnet) := by
  unfold tellSubnet
  refine keeps_bind keeps_aws fun description => keeps_bind keeps_tell fun _ => ?_
  refine keeps_bind (keeps_forIn _ fun field _ => ?_) fun _ => keeps_pure ()
  grind

@[grind .] theorem keeps_tellRoutes : Spares names (tellRoutes subnet) := by
  unfold tellRoutes
  refine keeps_bind keeps_aws fun tables => keeps_bind (keeps_liftM _) fun listed => ?_
  refine keeps_bind (keeps_liftM _) fun elements =>
    keeps_bind (keeps_forIn _ fun table _ => ?_) fun _ => keeps_pure ()
  refine keeps_bind (keeps_liftM _) fun listed => keeps_bind (keeps_liftM _) fun routes => ?_
  refine keeps_bind (keeps_forIn _ fun route _ => ?_) fun _ => keeps_pure _
  grind

@[grind .] theorem keeps_verifyNetwork {vpc : Data} :
    Spares names (verifyNetwork dir vpc subnet) := by
  unfold verifyNetwork
  split
  · exact keeps_pure ()
  · refine keeps_bind keeps_readJson fun config => keeps_bind (keeps_liftM _) fun region => ?_
    refine keeps_bind keeps_tell fun _ => keeps_bind keeps_awsSession fun _ => ?_
    refine keeps_bind keeps_awsClient fun _ => keeps_bind keeps_tellSubnet fun _ => ?_
    refine keeps_bind keeps_tellRoutes fun _ => ?_
    grind

@[grind .] theorem keeps_tryDirectly (all : ∀ name, names name) :
    Spares names (tryDirectly dir address key) := by
  unfold tryDirectly
  refine keeps_bind (keeps_tryCatch ?_ fun fault => ?_) fun _ => ?_ <;> grind

end Playbook

end Stratus
