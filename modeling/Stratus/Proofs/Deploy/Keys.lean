import Stratus.Deploy.Keys
import Stratus.Proofs.World.Job

/-!
Setting up the key pair of the cloud service, once and again. A pair that the service has is used
only if the private half is in the directory of keys.
-/
namespace Stratus

open Job

namespace Session

structure Call where
  operation : String
  arguments : Assoc Data

def callOf? : Data → Option Call
  | .list [.str "aws", .str operation, .map arguments] => some ⟨operation, arguments⟩
  | _ => none

def calls (s : Session) : List Call := s.log.filterMap callOf?

def spend (answers : Assoc (List Data)) (call : Call) : Assoc (List Data) :=
  Assoc.set answers call.operation ((Assoc.getD answers call.operation []).drop 1)

def answering : Assoc (List Data) → List Call → List (Call × Data)
  | _, [] => []
  | answers, call :: rest =>
    (call, (Assoc.getD answers call.operation []).headD (.map [])) :: answering
    (spend answers call) rest

def consultations (s s' : Session) : List (Call × Data) :=
  answering s.answers (s'.calls.drop s.calls.length)

/-- Between two sessions, these calls were made. -/
structure Consults (s s' : Session) (made : List Call) : Prop where
  calls : s'.calls = s.calls ++ made
  answers : s'.answers = made.foldl spend s.answers

namespace Consults

variable {s m s' : Session} {made more : List Call}

theorem consultations (h : Consults s s' made) : s.consultations s' = answering s.answers made := by
  rw [Session.consultations, h.calls, List.drop_left]

theorem refl (s : Session) : Consults s s [] := ⟨(List.append_nil _).symm, rfl⟩

theorem trans (first : Consults s m made) (second : Consults m s' more) :
    Consults s s' (made ++ more) where
  calls := by rw [second.calls, first.calls, List.append_assoc]
  answers := by rw [second.answers, first.answers, List.foldl_append]

end Consults

def Later (s s' : Session) : Prop := ∃ made, Consults s s' made

instance : IsPreorder Session Later where
  refl s := ⟨[], .refl s⟩
  trans _ _ _ := fun ⟨made, first⟩ ⟨more, second⟩ => ⟨made ++ more, first.trans second⟩

theorem answering_append (answers : Assoc (List Data)) (made more : List Call) :
    answering answers (made ++ more) = answering answers made ++
      answering (made.foldl spend answers) more := by
  induction made generalizing answers with
  | nil => rfl
  | cons call made ih =>
    rw [List.cons_append, answering, ih, answering, List.cons_append, List.foldl_cons]

theorem calls_noted (s : Session) (entry : List Data) :
    (s.noted entry).calls = s.calls ++ (callOf? (.list entry)).toList := by
  have last : [Data.list entry].filterMap callOf? = (callOf? (.list entry)).toList := by
    cases h : callOf? (.list entry) <;> simp [h]
  have watched (now : Data) : callOf? (.list [.str "main.tf.json", now]) = none := rfl
  simp only [noted, calls, List.filterMap_append, last]
  split
  · rfl
  · simp [watched]

theorem consults_noted {entry : List Data} (other : callOf? (.list entry) = none) (s : Session) :
    Consults s (s.noted entry) [] :=
  ⟨by rw [calls_noted, other]; rfl, rfl⟩

theorem consults_consulted (s : Session) (operation : String) (arguments : Assoc Data) :
    Consults s (s.consulted operation arguments) [⟨operation, arguments⟩] :=
  ⟨calls_noted s _, rfl⟩

end Session

namespace Keys

open Effect Session

/-! ### The service -/

variable {name : String} {answer : Data}

/-- The pairs that a service has by name, each with its private half. -/
abbrev Store := String → Option String

def listing (name : String) : Call :=
  ⟨"describe_key_pairs", [("Filters",
    .list [.map [("Name", .str "key-name"), ("Values", .texts [name])]])]⟩

def deletion (name : String) : Call := ⟨"delete_key_pair", [("KeyName", .str name)]⟩

def creation (name : String) : Call := ⟨"create_key_pair", [("KeyName", .str name)]⟩

def Granted (answer : Data) : Prop := answer.field? "client_error" = none

/-- How a service answers a call that it grants, and which pairs it has then. -/
inductive Store.Answers : Store → Call → Data → Store → Prop where
  | lists {store : Store} {name : String} {answer : Data} {pairs : List Data}
      (granted : Granted answer)
      (listed : answer.item "KeyPairs" = .ok (.list pairs))
        (known : pairs ≠ [] ↔ store name ≠ none) :
      Answers store (listing name) answer store
  | deletes {store : Store} {name : String} {answer : Data} (granted : Granted answer) :
      Answers store (deletion name) answer (Function.update store name none)
  | creates {store : Store} {name text : String} {answer : Data} (granted : Granted answer)
      (free : store name = none)
      (given : answer.item "KeyMaterial" = .ok (.str text)) :
      Answers store (creation name) answer (Function.update store name (some text))

/-- How a service answers calls one after the other. -/
inductive Store.Serves : Store → List (Call × Data) → Store → Prop where
  | nil {store : Store} : Serves store [] store
  | cons {store next last : Store} {call : Call} {answer : Data} {rest : List (Call × Data)}
      (first : store.Answers call answer next) (later : next.Serves rest last) :
        Serves store ((call, answer) :: rest) last

theorem Store.serves_append {store last : Store} {before after : List (Call × Data)} :
    store.Serves (before ++ after) last ↔
      ∃ middle, store.Serves before middle ∧ middle.Serves after last := by
  induction before generalizing store with
  | nil =>
    constructor
    · intro h
      exact ⟨store, .nil, h⟩
    · rintro ⟨middle, ⟨⟩, h⟩
      exact h
  | cons c before ih =>
    constructor
    · rintro ⟨⟩
      next next first later =>
        obtain ⟨middle, left, right⟩ := ih.mp later
        exact ⟨middle, .cons first left, right⟩
    · rintro ⟨middle, ⟨⟩, right⟩
      next next first left => exact .cons first (ih.mpr ⟨middle, left, right⟩)

theorem Store.answers_listing {store store' : Store}
    (h : store.Answers (listing name) answer store') : store' = store ∧ Granted answer ∧
      ∃ pairs, answer.item "KeyPairs" = .ok (.list pairs) ∧ (pairs ≠ [] ↔ store name ≠ none) := by
  generalize made : listing name = call at h
  cases h with
  | lists granted listed known =>
    obtain rfl : name = _ := by simpa [listing, Data.texts] using made
    exact ⟨rfl, granted, _, listed, known⟩
  | deletes => simp [listing, deletion] at made
  | creates => simp [listing, creation] at made

theorem Store.answers_creation {store store' : Store}
    (h : store.Answers (creation name) answer store') : store' name ≠ none := by
  generalize made : creation name = call at h
  cases h with
  | lists => simp [listing, creation] at made
  | deletes => simp [deletion, creation] at made
  | creates granted free given =>
    obtain rfl : name = _ := by simpa [creation] using made
    rw [Function.update_self]
    exact Option.some_ne_none _

section Names

variable (dir : String)

def created : String := Path.withSuffix (privateKey dir) ".pem"

theorem name_directory : Disk.Name ".keys" :=
  ⟨⟨by decide, by decide, by decide⟩, by decide, by decide⟩

theorem name_privateKey : Disk.Name keyName :=
  ⟨⟨by decide, by decide, by decide⟩, by decide, by decide⟩

theorem name_created : Disk.Name (keyName ++ ".pem") :=
  ⟨⟨by decide, by decide, by decide⟩, by decide, by decide⟩

theorem normal_directory : Disk.normal (directory dir) = Disk.within dir ++ ".keys" :=
  Disk.normal_join name_directory dir

theorem normal_privateKey : Disk.normal (privateKey dir) = Disk.normal (directory dir) ++
    ("/" ++ keyName) := by
  rw [privateKey, Disk.normal_join name_privateKey, normal_directory, directory,
    Disk.within_join name_directory]
  simp only [String.append_assoc]

theorem normal_created : Disk.normal (created dir) = Disk.normal (privateKey dir) ++ ".pem" := by
  have stem : Path.stem keyName = keyName := rfl
  have named : created dir = Path.join (directory dir) (keyName ++ ".pem") := by
    rw [created, privateKey, Path.withSuffix_join name_privateKey.toPlain
      _ (by rw [stem]; exact name_created.toPlain), stem]
  rw [named, Disk.normal_join name_created, privateKey, Disk.normal_join name_privateKey,
    String.append_assoc]

end Names

/-! ### What setting up does on the disk -/

theorem append_ne_self {start rest : String} (more : rest ≠ "") : start ++ rest ≠ start := by
  intro same
  have chars := congrArg String.toList same
  rw [String.toList_append] at chars
  exact more (String.toList_eq_nil_iff.mp (by simpa using chars))

section Disk

variable {dir : String} {d d' : Disk}

theorem holds_privateKey_makeDir (h : d.makeDir (directory dir) = .ok d') :
    d'.holds (privateKey dir) = d.holds (privateKey dir) := by
  apply (Disk.sameOutside_makeDir h).holds_eq
  · rw [normal_privateKey]
    exact append_ne_self (by decide)
  · rintro name rfl above
    have shorter := Disk.length_lt_of_mem_parents above
    rw [normal_privateKey, String.length_append] at shorter
    omega

theorem holds_privateKey_put (text : String) :
    (d.put (created dir) text).holds (privateKey dir) = d.holds (privateKey dir) := by
  apply (Disk.sameOutside_put d (created dir) text).holds_eq
  · rw [normal_created]
    exact (append_ne_self (by decide)).symm
  · rintro name rfl above
    obtain ⟨rest, split⟩ := Disk.eq_append_of_mem_parents above
    rw [normal_created, String.append_assoc, String.append_right_inj] at split
    simpa using congrArg String.toList split

theorem isFolder_put (h : d.IsFolder (directory dir)) (text : String) :
    (d.put (created dir) text).IsFolder (directory dir) := by
  refine h.put ?_
  rw [normal_created, normal_privateKey, String.append_assoc]
  exact append_ne_self (by decide)

end Disk

section Runs

variable {dir : String} {s s' : Session} {operation : String}

theorem answerTo_eq_ok (h : s.answerTo operation = .ok answer) :
    (Assoc.getD s.answers operation []).headD (.map []) = answer := by
  unfold Session.answerTo at h
  dsimp only at h
  split at h
  · cases h
  · cases h
    rfl

theorem answerTo_of_granted
    (taken : (Assoc.getD s.answers operation []).headD (.map []) = answer)
    (granted : Granted answer) :
    s.answerTo operation = .ok answer := by
  unfold Session.answerTo
  rw [taken]
  dsimp only
  rw [granted]

theorem of_returns_create {u : Unit} (run : Returns (create dir) s u s') :
    Consults s s' [creation keyName] ∧ ∃ text, s'.disk = s.disk.put (created dir) text := by
  unfold create at run
  simp only [returns_bind_iff, returns_aws_iff, returns_lift_iff] at run
  obtain ⟨pair, m, ⟨answered, rfl⟩, material, m', ⟨given, rfl⟩, written⟩ := run
  split at written
  · obtain ⟨d, wrote, rfl⟩ := returns_changeDisk_iff.mp written
    have consults := consults_consulted s "create_key_pair" [("KeyName", .str keyName)]
    exact ⟨⟨consults.calls, consults.answers⟩, _, Disk.write_eq_ok wrote⟩
  · exact (returns_throw_iff.mp written).elim

/-- Uses the pairs that the service listed. -/
def use (dir : String) (pairs : Data) : Job Unit := do
  if pairs.holds then
    if (← disk).holds (privateKey dir) then return
    let _ ← aws (deletion keyName).operation (deletion keyName).arguments
  create dir

theorem claim_eq (dir : String) : claim dir = (do
    let found ← aws (listing keyName).operation (listing keyName).arguments
    use dir (← found.item "KeyPairs")) := rfl

theorem use_of_unlisted {pairs : Data} (none : pairs.holds = false) :
    use dir pairs = create dir := by
  rw [use, none]
  rfl

theorem use_of_missing {pairs : Data} (listed : pairs.holds = true)
    (missing : s.disk.holds (privateKey dir) = false) :
    (use dir pairs).perform s =
      (aws (deletion keyName).operation (deletion keyName).arguments >>= fun _ =>
        create dir).perform s := by
  have looking (f : Disk → Job Unit) : (disk >>= f).perform s = (f s.disk).perform s := rfl
  rw [use, if_pos listed, looking, missing]
  rfl

theorem returns_use_of_held {pairs : Data} (listed : pairs.holds = true)
    (held : s.disk.holds (privateKey dir) = true) :
    Returns (use dir pairs) s () s := by
  have looking (f : Disk → Job Unit) : (disk >>= f).perform s = (f s.disk).perform s := rfl
  change (use dir pairs).perform s = _
  rw [use, if_pos listed, looking, held]
  rfl

theorem of_returns_claim {u : Unit} (run : Returns (claim dir) s u s') :
    ∃ made, Consults s s' made ∧
    (∀ store store' : Store, store.Serves (answering s.answers made) store' →
      store' keyName ≠ none) ∧
    (s'.disk = s.disk ∨ ∃ text, s'.disk = s.disk.put (created dir) text) := by
  have creates {m : Session} {before : List Call} {v : Unit} (consults : Consults s m before)
    (same : m.disk = s.disk)
      (rest : Returns (create dir) m v s') : ∃ made, Consults s s' made ∧
        (∀ store store' : Store, store.Serves (answering s.answers made) store' →
          store' keyName ≠ none) ∧
        (s'.disk = s.disk ∨ ∃ text, s'.disk = s.disk.put (created dir) text) := by
    obtain ⟨consults', text, disk⟩ := of_returns_create rest
    refine ⟨_, consults.trans consults', ?_, .inr ⟨text, same ▸ disk⟩⟩
    intro store store' served
    rw [answering_append, Store.serves_append] at served
    obtain ⟨middle, -, last⟩ := served
    cases last with
    | cons first later =>
      cases later
      exact Store.answers_creation first
  have lists := consults_consulted s (listing keyName).operation (listing keyName).arguments
  rw [claim_eq] at run
  simp only [returns_bind_iff, returns_aws_iff, returns_lift_iff] at run
  obtain ⟨found, _, ⟨answered, rfl⟩, pairs, _, ⟨item, rfl⟩, rest⟩ := run
  cases listed : pairs.holds with
  | false => exact creates lists rfl (use_of_unlisted listed ▸ rest)
  | true =>
    cases held : s.disk.holds (privateKey dir) with
    | true =>
      obtain ⟨-, rfl⟩ := (returns_use_of_held (s := s.consulted _ _) listed held).unique rest
      refine ⟨_, lists, ?_, .inl rfl⟩
      intro store store' served
      cases served with
      | cons first later =>
        cases later
        obtain ⟨rfl, -, pairs', item', known⟩ := Store.answers_listing first
        rw [answerTo_eq_ok answered, item] at item'
        cases item'
        exact known.mp (by simpa [Data.holds] using listed)
    | false =>
      have missing := (use_of_missing (s := s.consulted _ _) listed held).symm.trans rest
      obtain ⟨_, _, deleted, rest⟩ := returns_bind_iff.mp missing
      obtain ⟨-, rfl⟩ := returns_aws_iff.mp deleted
      exact creates (lists.trans (consults_consulted _ _ _)) rfl rest

theorem keeps_later_aws (operation : String) (arguments : Assoc Data) :
    Keeps Later (aws operation arguments) :=
  fun s => ⟨_, consults_consulted s operation arguments⟩

theorem keeps_later_changeDisk (f : Disk → Outcome Disk) : Keeps Later (changeDisk f) := by
  apply keeps_of_runs
  · intro s u s' run
    obtain ⟨d, -, rfl⟩ := returns_changeDisk_iff.mp run
    exact ⟨[], (List.append_nil _).symm, rfl⟩
  · intro s fault s' run
    obtain ⟨-, rfl⟩ := fails_changeDisk_iff.mp run
    exact refl _

theorem keeps_later_create (dir : String) : Keeps Later (create dir) := by
  refine keeps_bind (keeps_later_aws _ _) fun pair => keeps_bind (keeps_liftM _) fun material => ?_
  split
  · exact keeps_later_changeDisk _
  · exact keeps_throw _

theorem keeps_later_use (dir : String) (pairs : Data) : Keeps Later (use dir pairs) := by
  unfold use
  have created := keeps_later_create dir
  have deleted := keeps_later_aws (deletion keyName).operation (deletion keyName).arguments
  have looked : Keeps Later disk := keeps_of_same fun _ => rfl
  grind

/-- However the rest of a run ends, the call that it began with is among its calls. -/
theorem consults_bind {α : Type} (call : Call) {rest : Data → Job α}
    (later : ∀ answer, Keeps Later (rest answer)) (s : Session) :
    ∃ made, Consults s ((aws call.operation call.arguments >>= rest).perform s).2
      (call :: made) := by
  have asked := consults_consulted s call.operation call.arguments
  have run : (aws call.operation call.arguments).perform s =
      (s.answerTo call.operation, s.consulted call.operation call.arguments) := rfl
  cases answered : s.answerTo call.operation with
  | error fault =>
    rw [answered] at run
    rw [show (aws call.operation call.arguments >>= rest).perform s = _ from
      fails_bind_iff.mpr (.inl run)]
    exact ⟨[], asked⟩
  | ok answer =>
    rw [answered] at run
    obtain ⟨made, after⟩ := later answer (s.consulted call.operation call.arguments)
    have ending : (aws call.operation call.arguments >>= rest).perform s =
        (rest answer).perform (s.consulted call.operation call.arguments) := bind_run_of_returns run
    rw [ending]
    exact ⟨made, asked.trans after⟩

def entered (s : Session) (d : Disk) (region : Data) : Session :=
  { s with disk := d }.noted [.str "aws client", .str "ec2", .map [("region_name", region)]]

theorem consults_entered (s : Session) (d : Disk) (region : Data) :
    Consults s (entered s d region) [] := by
  have noted : Consults { s with disk := d } (entered s d region) [] := consults_noted rfl _
  exact ⟨noted.calls, noted.answers⟩

theorem setUp_aws (dir : String) (region : Data) : setUp dir region "aws" = (do
    changeDisk (·.makeDir (directory dir))
    awsClient "ec2" [("region_name", region)]
    try claim dir catch fault => throw (.failure ("Failed to setup key pair: " ++ fault.message))
    return keyName) := rfl

theorem of_returns_setUp {region : Data} (run : Returns (setUp dir region "aws") s name s') :
    name = keyName ∧ ∃ d, s.disk.makeDir (directory dir) = .ok d ∧
      Returns (claim dir) (entered s d region) () s' := by
  rw [setUp_aws] at run
  simp only [returns_bind_iff, returns_changeDisk_iff, returns_tryCatch_iff, returns_throw_iff,
    returns_pure_iff] at run
  obtain ⟨_, _, ⟨d, made, rfl⟩, _, _, client, _, _, claimed | ⟨_, _, _, ⟨⟩⟩, rfl, rfl⟩ := run
  cases client
  exact ⟨rfl, d, made, claimed⟩

section IsFolder

variable {region : Data} (folder : s.disk.IsFolder (directory dir))

include folder

theorem setUp_of_isFolder : (setUp dir region "aws").perform s = (do
    try claim dir catch fault => throw (.failure ("Failed to setup key pair: " ++ fault.message))
    return keyName : Job String).perform (entered s s.disk region) := by
  have made : Returns (changeDisk (·.makeDir (directory dir))) s () s :=
    returns_changeDisk_iff.mpr ⟨s.disk, Disk.makeDir_of_isFolder folder, rfl⟩
  exact bind_run_of_returns made

theorem returns_setUp (claimed : Returns (claim dir) (entered s s.disk region) () s') :
    Returns (setUp dir region "aws") s keyName s' := by
  refine (setUp_of_isFolder folder).trans ?_
  exact returns_bind_iff.mpr ⟨(), s', returns_tryCatch_iff.mpr (.inl claimed), rfl⟩

/-- The claim is the last step that does something, however it ends. -/
theorem end_setUp : ((setUp dir region "aws").perform s).2 =
    ((claim dir).perform (entered s s.disk region)).2 := by
  rcases returns_or_fails (claim dir) (entered s s.disk region) with
    ⟨_, m, claimed⟩ | ⟨fault, m, refused⟩
  · rw [show (setUp dir region "aws").perform s = _ from returns_setUp folder claimed,
      show (claim dir).perform (entered s s.disk region) = _ from claimed]
  · have failed : Fails (setUp dir region "aws") s
        (.failure ("Failed to setup key pair: " ++ fault.message)) m := by
      refine (setUp_of_isFolder folder).trans ?_
      exact fails_bind_iff.mpr (.inl (fails_tryCatch_iff.mpr ⟨fault, m, refused, rfl⟩))
    rw [show (setUp dir region "aws").perform s = _ from failed,
      show (claim dir).perform (entered s s.disk region) = _ from refused]

end IsFolder

end Runs

section Again

variable {dir : String} {region : Data} {s s' : Session} {store store' : Store}

theorem owned_of_setUp (run : Returns (setUp dir region "aws") s name s')
    (served : store.Serves (s.consultations s') store') :
    store' keyName ≠ none ∧ s'.disk.IsFolder (directory dir) ∧
      s'.disk.holds (privateKey dir) = s.disk.holds (privateKey dir) := by
  obtain ⟨-, d, made, claimed⟩ := of_returns_setUp run
  obtain ⟨calls, consults, owned, written⟩ := of_returns_claim claimed
  rw [((consults_entered s d region).trans consults).consultations] at served
  have folder := Disk.isFolder_of_makeDir made
  have held := holds_privateKey_makeDir made
  refine ⟨owned _ _ served, ?_⟩
  rcases written with same | ⟨text, written⟩
  · rw [same]
    exact ⟨folder, held⟩
  · rw [written]
    exact ⟨isFolder_put folder text, (holds_privateKey_put text).trans held⟩

theorem listed_of_owned (owned : store keyName ≠ none)
    (served : store.Serves (s.consultations ((claim dir).perform s).2) store') :
    ∃ pairs, Data.holds pairs = true ∧
      (claim dir).perform s = (use dir pairs).perform
      (s.consulted (listing keyName).operation (listing keyName).arguments) := by
  have used (found : Data) : Keeps Later (liftM (found.item "KeyPairs") >>= use dir) :=
    keeps_bind (keeps_liftM _) fun pairs => keeps_later_use dir pairs
  obtain ⟨made, consults⟩ := consults_bind (listing keyName) used s
  rw [claim_eq] at served ⊢
  rw [consults.consultations] at served
  cases served with
  | cons first later =>
    obtain ⟨rfl, granted, pairs, item, known⟩ := Store.answers_listing first
    have lists : Returns (aws (listing keyName).operation (listing keyName).arguments) s _ _ :=
      returns_aws_iff.mpr ⟨answerTo_of_granted rfl granted, rfl⟩
    refine ⟨.list pairs, ?_, ?_⟩
    · simpa [Data.holds] using known.mpr owned
    · refine (bind_run_of_returns lists).trans ?_
      refine bind_run_of_returns (returns_lift_iff.mpr ⟨item, rfl⟩)

theorem claim_of_held (owned : store keyName ≠ none) (held : s.disk.holds (privateKey dir) = true)
    (served : store.Serves (s.consultations ((claim dir).perform s).2) store') :
    Returns (claim dir) s () (s.consulted (listing keyName).operation
      (listing keyName).arguments) := by
  obtain ⟨pairs, listed, run⟩ := listed_of_owned owned served
  exact run.trans (returns_use_of_held listed held)

theorem claim_of_missing (owned : store keyName ≠ none)
    (missing : s.disk.holds (privateKey dir) = false)
    (served : store.Serves (s.consultations ((claim dir).perform s).2) store') :
    ∃ answer, (deletion keyName, answer) ∈ s.consultations ((claim dir).perform s).2 := by
  obtain ⟨pairs, listed, run⟩ := listed_of_owned owned served
  have deletes := run.trans (use_of_missing (s := s.consulted _ _) listed missing)
  obtain ⟨made, after⟩ := consults_bind (deletion keyName) (fun _ => keeps_later_create dir)
    (s.consulted _ _)
  rw [← deletes] at after
  rw [((consults_consulted s _ _).trans after).consultations]
  exact ⟨_, List.mem_cons_of_mem _ List.mem_cons_self⟩

end Again

/-- A second set-up changes nothing, neither at the service nor on the disk, just if the private key
was held under the name of the pair before the first one. -/
theorem setUp_again_iff {dir : String} {region : Data} {s₀ s₁ s₂ : Session} {name : String}
    {result : Outcome String}
    {store₀ store₁ store₂ : Store} (first : (setUp dir region "aws").perform s₀ = (.ok name, s₁))
    (served : store₀.Serves (s₀.consultations s₁) store₁)
    (second : (setUp dir region "aws").perform s₁ = (result, s₂))
    (served' : store₁.Serves (s₁.consultations s₂) store₂) :
    (result = .ok name ∧
        (∀ c ∈ s₁.consultations s₂, c.1.operation ≠ "create_key_pair" ∧
          c.1.operation ≠ "delete_key_pair") ∧
        store₂ = store₁ ∧ s₂.disk = s₁.disk) ↔
      s₀.disk.holds (privateKey dir) = true := by
  obtain ⟨owned, folder, held⟩ := owned_of_setUp first served
  obtain ⟨rfl, -⟩ := of_returns_setUp first
  have entering := consults_entered s₁ s₁.disk region
  have same : s₁.consultations s₂ = (entered s₁ s₁.disk region).consultations s₂ := by
    rw [consultations, consultations, entering.calls, List.append_nil]
    rfl
  obtain rfl : s₂ = ((claim dir).perform (entered s₁ s₁.disk region)).2 := by
    rw [← end_setUp folder, second]
  rw [same] at served' ⊢
  replace held : (entered s₁ s₁.disk region).disk.holds (privateKey dir) = _ := held
  cases before : s₀.disk.holds (privateKey dir) with
  | true =>
    have claimed := claim_of_held owned (held.trans before) served'
    have ending : (claim dir).perform (entered s₁ s₁.disk region) = _ := claimed
    obtain rfl : result = .ok keyName :=
      congrArg Prod.fst (second.symm.trans (returns_setUp folder claimed))
    rw [ending, (consults_consulted _ _ _).consultations] at served' ⊢
    cases served' with
    | cons lists later =>
      cases later
      refine iff_of_true ⟨rfl, ?_, (Store.answers_listing lists).1, rfl⟩ rfl
      simp [answering, listing]
  | false =>
    obtain ⟨answer, deleted⟩ := claim_of_missing owned (held.trans before) served'
    refine iff_of_false ?_ Bool.false_ne_true
    rintro ⟨-, untouched, -⟩
    exact (untouched _ deleted).2 rfl

namespace Sample

def pairs (names : List String) : Data :=
  .map [("KeyPairs", .list (names.map fun name => .map [("KeyName", .str name)]))]

def material (text : String) : Data := .map [("KeyMaterial", .str text)]

def before (files : Assoc String) : Session where
  disk := { files }
  locator := .ofTable "" []
  answers := [("describe_key_pairs", [pairs [], pairs [keyName]]),
    ("create_key_pair", [material "k1", material "k2"])]

def after (files : Assoc String) (made : List String) : Session where
  disk := { files := files ++ [(".keys/cloud-cli-key.pem", "k1")], made }
  locator := .ofTable "" []
  answers := [("describe_key_pairs", [pairs [keyName]]), ("create_key_pair", [material "k2"])]
  log := [.list [.str "aws client", .str "ec2", .map [("region_name", .null)]],
    .list [.str "aws", .str (listing keyName).operation, .map (listing keyName).arguments],
    .list [.str "aws", .str (creation keyName).operation, .map (creation keyName).arguments]]

def again (files : Assoc String) (made : List String) : Session :=
  ((setUp "" .null "aws").perform (after files made)).2

def one (text : String) : Store := Function.update (fun _ => none) keyName (some text)

theorem serves_creation : Store.Serves (fun _ => none)
    [(listing keyName, pairs []), (creation keyName, material "k1")] (one "k1") :=
  .cons (.lists rfl rfl (by simp)) (.cons (.creates rfl rfl rfl) .nil)

theorem serves_listing : Store.Serves (one "k1") [(listing keyName, pairs [keyName])] (one "k1") :=
  .cons (.lists rfl rfl (by simp [one])) .nil

theorem serves_rotation : Store.Serves (one "k1")
    [(listing keyName, pairs [keyName]), (deletion keyName, .map []),
      (creation keyName, material "k2")] (one "k2") := by
  have replaced : Function.update (Function.update (one "k1") keyName none) keyName (some "k2") =
      one "k2" := by
    simp [one]
  rw [← replaced]
  exact .cons (.lists rfl rfl (by simp [one]))
    (.cons (.deletes rfl) (.cons (.creates rfl (by simp) rfl) .nil))

end Sample

/-- With the private key at hand, the pair that the first set-up created is left alone by the
second. -/
theorem setUp_again_held : ∃ s₁ s₂ : Session, ∃ store₁ store₂ : Store,
    (setUp "" .null "aws").perform
    (Sample.before [(".keys/cloud-cli-key", "k0")]) = (.ok keyName, s₁) ∧
    Store.Serves (fun _ => none)
      ((Sample.before [(".keys/cloud-cli-key", "k0")]).consultations s₁) store₁ ∧
    (setUp "" .null "aws").perform s₁ = (.ok keyName, s₂) ∧ store₁.Serves
    (s₁.consultations s₂) store₂ ∧
    store₂ = store₁ ∧ s₂.disk = s₁.disk := by
  have first : (setUp "" .null "aws").perform (Sample.before [(".keys/cloud-cli-key", "k0")]) =
      (.ok keyName, Sample.after [(".keys/cloud-cli-key", "k0")] []) := rfl
  have second : (setUp "" .null "aws").perform (Sample.after [(".keys/cloud-cli-key", "k0")] []) =
      (.ok keyName, Sample.again [(".keys/cloud-cli-key", "k0")] []) := rfl
  obtain ⟨-, -, stores, disks⟩ :=
    (setUp_again_iff first Sample.serves_creation second Sample.serves_listing).mpr rfl
  exact ⟨_, _, _, _, first, Sample.serves_creation, second, Sample.serves_listing, stores, disks⟩

/-- Without it, the second set-up deletes the pair of the first one and creates another. -/
theorem setUp_again_rotates : ∃ s₁ s₂ : Session, ∃ store₁ store₂ : Store,
    (setUp "" .null "aws").perform (Sample.before []) = (.ok keyName, s₁) ∧
    Store.Serves (fun _ => none) ((Sample.before []).consultations s₁) store₁ ∧
    (setUp "" .null "aws").perform s₁ = (.ok keyName, s₂) ∧ store₁.Serves
    (s₁.consultations s₂) store₂ ∧
    store₂ ≠ store₁ ∧ s₂.disk.read ".keys/cloud-cli-key.pem" ≠
      s₁.disk.read ".keys/cloud-cli-key.pem" := by
  refine ⟨Sample.after [] [".keys"], Sample.again [] [".keys"], _, _, rfl,
    Sample.serves_creation, rfl, Sample.serves_rotation, ?_, ?_⟩
  · intro same
    simpa [Sample.one] using congrFun same keyName
  · rw [show (Sample.again [] [".keys"]).disk.read ".keys/cloud-cli-key.pem" = .ok "k2" from rfl,
      show (Sample.after [] [".keys"]).disk.read ".keys/cloud-cli-key.pem" = .ok "k1" from rfl]
    simp

end Keys

end Stratus
