import Stratus.Proofs.Diagnosis.Locator

/-!
Which messages of the infrastructure tool are explained. What a message is about decides which
identifiers are looked up; it is explained if the locator knows one of them.
-/
namespace Stratus

open Effect

/-- From every locator that agrees with `l`, the trace returns something with a property, or fails
for a reason. -/
def Answers {α : Type} (t : Tracing α) (disk : Disk) (l : Locator) (P : α → Prop)
    (F : Prop) : Prop :=
  ∀ m, l.Agrees m → (∀ a m', Returns (t.run disk) m a m' → l.Agrees m' ∧ P a) ∧
    ∀ fault m', Fails (t.run disk) m fault m' → F

namespace Answers

variable {α β : Type} {disk : Disk} {l : Locator} {P : α → Prop} {Q : β → Prop} {F : Prop}

theorem pure {a : α} (h : P a) : Answers (Pure.pure a : Tracing α) disk l P F := by
  refine fun m agrees => ⟨fun a' m' run => ?_, fun fault m' run => ?_⟩
  · cases run
    exact ⟨agrees, h⟩
  · cases run

theorem throw {fault : Fault} (h : F) :
    Answers (MonadExcept.throw fault : Tracing α) disk l P F := by
  refine fun m agrees => ⟨fun a' m' run => ?_, fun _ _ _ => h⟩
  cases run

theorem bind {t : Tracing α} {f : α → Tracing β} (first : Answers t disk l P F)
    (rest : ∀ a, P a → Answers (f a) disk l Q F) : Answers (t >>= f) disk l Q F := by
  refine fun m agrees => ⟨fun b m' run => ?_, fun fault m' run => ?_⟩
  · obtain ⟨a, n, tried, later⟩ := returns_trace_bind_iff.mp run
    have reached := (first m agrees).1 a n tried
    exact (rest a reached.2 n reached.1).1 b m' later
  · rcases fails_trace_bind_iff.mp run with tried | ⟨a, n, tried, later⟩
    · exact (first m agrees).2 fault m' tried
    · have reached := (first m agrees).1 a n tried
      exact (rest a reached.2 n reached.1).2 fault m' later

theorem mono {t : Tracing α} {P' : α → Prop} {F' : Prop} (h : Answers t disk l P F)
    (returned : ∀ a, P a → P' a) (failed : F → F') : Answers t disk l P' F' := by
  refine fun m agrees => ⟨fun a m' run => ?_, fun fault m' run =>
    failed ((h m agrees).2 fault m' run)⟩
  exact ((h m agrees).1 a m' run).imp_right (returned a)

theorem paired {γ : Type} {t : Tracing α} {c : γ} (h : Answers t disk l P F) :
    Answers (do return (← t, c)) disk l (fun r => P r.1) F :=
  h.bind fun _ holds => .pure holds

end Answers

namespace Locator

variable {l : Locator} {disk : Disk}

def Unread (l : Locator) (disk : Disk) : Prop := ∀ text, disk.readText l.path ≠ .ok text

theorem find?_answers (id : String) :
    Answers (find? id) disk l (fun place => place.isSome = l.knows id) (l.Unread disk) := by
  refine fun m agrees => ⟨fun place m' run => ⟨?_, ?_⟩, fun fault m' run => ?_⟩
  · exact IsTrans.trans _ _ _ agrees ((traces_find? id disk).returns run)
  · rw [← agrees.knows id, knows]
    rcases noted : m.keyFor? id with _ | key
    · obtain ⟨rfl, -⟩ := run.unique (find?_of_unknown disk noted)
      rfl
    · rcases find?_of_known disk noted with ⟨n, other, -⟩ | ⟨fault, other, -⟩
      · obtain ⟨rfl, -⟩ := run.unique other
        rfl
      · exact (run.not_fails other).elim
  · rcases noted : m.keyFor? id with _ | key
    · exact ((find?_of_unknown disk noted).not_fails run).elim
    · rcases find?_of_known disk noted with ⟨n, other, -⟩ | ⟨fault, -, unread⟩
      · exact (other.not_fails run).elim
      · rw [agrees.path] at unread
        exact fun text read => by cases unread.symm.trans read

theorem param?_answers (id param : String) :
    Answers (param? id param) disk l (fun _ => True) (l.Unread disk) := by
  refine fun m agrees => ⟨fun place m' run => ⟨?_, trivial⟩, fun fault m' run => ?_⟩
  · exact IsTrans.trans _ _ _ agrees ((traces_param? id param disk).returns run)
  · cases run

end Locator

theorem Answers.ownText {l : Locator} {disk : Disk} :
    Answers (do (← read).readText (← get).path) disk l
    (fun content => disk.readText l.path = .ok content) (l.Unread disk) := by
  intro m agrees
  have run : (((do (← read).readText (← get).path : Tracing String).run disk).run.run m).run =
      (disk.readText m.path, m) := by
    change (((liftM (disk.readText m.path) : Tracing String).run disk).run.run m).run = _
    cases disk.readText m.path <;> rfl
  unfold Returns Fails
  rw [run, agrees.path]
  refine ⟨fun content m' same => ?_, fun fault m' same text read => ?_⟩
  · obtain ⟨read, rfl⟩ := Prod.mk.inj same
    exact ⟨agrees, read⟩
  · cases (Prod.mk.inj same).1.symm.trans read

namespace Diagnosis

variable {l l' : Locator} {disk : Disk}

theorem firstOf_answers {F : Prop} {attempts : List (Tracing (Option Diagnosis))}
    {ids : List String}
    (each : List.Forall₂ (fun t id =>
      Answers t disk l (fun d => l.knows id = true → d.isSome = true) F) attempts ids) :
    Answers (firstOf attempts) disk l (fun d => ids.any l.knows = true → d.isSome = true) F := by
  induction each with
  | nil => exact .pure fun known => by cases known
  | @cons t id attempts ids first rest ih =>
    refine first.bind fun d due => ?_
    cases d with
    | some d => exact .pure fun _ => rfl
    | none =>
      refine ih.mono (fun d later known => later ?_) fun failed => failed
      rw [List.any_cons, Bool.or_eq_true] at known
      exact known.resolve_left fun here => by cases due here

namespace Terraform

theorem ofResource_answers (patterns : List Text.Pattern) (id whole message : String) :
    Answers (ofResource patterns id whole message) disk l
      (fun d => l.knows id = true → d.isSome = true)
      (l.Unread disk) := by
  unfold ofResource
  extract_lets head jp
  have last : Answers (jp ()) disk l (fun d => l.knows id = true → d.isSome = true)
      (l.Unread disk) := by
    refine (Locator.find?_answers id).bind fun place due => ?_
    cases place with
    | some place => exact .pure fun _ => rfl
    | none => exact .pure due.trans
  split
  · refine (Locator.param?_answers id _).bind fun place _ => ?_
    cases place with
    | some place => exact .pure fun _ => rfl
    | none => exact last
  · exact last

theorem provider_answers (head advice : String) : Answers (provider head advice) disk l
    (fun d => d.isSome = true ∧ l.knows "aws_provider" = true)
    (l.Unread disk ∨ l.knows "aws_provider" = false) := by
  refine ((Locator.find?_answers _).mono (fun _ due => due) .inl).bind fun place due => ?_
  cases place with
  | some place => exact .pure ⟨rfl, due.symm⟩
  | none => exact .throw (.inr due.symm)

def aboutProvider (message : String) : Bool :=
  Text.contains message "configuring Terraform AWS Provider" ||
    Text.contains message "Failed to query available provider packages"

def subjects (message : String) : List String :=
  let machine := "aws_instance." ++ ((resourceIn? message).map (·.2)).getD "instance"
  match (resourceIn? message).map (·.1) with
  | some "aws_vpc" => ["aws_vpc.vpc"]
  | some "aws_instance" => [machine]
  | _ =>
    if Text.containsAny message ["provider packages", "configuring Terraform AWS Provider",
      "provider registry"] then []
    else ["aws_vpc.vpc", machine]

/-- Whether the description has a place for what a message is about. -/
def explains (l : Locator) (message : String) : Bool :=
  (wrongRegion message && l.knows "aws_provider.region") ||
    if aboutProvider message then l.knows "aws_provider" else (subjects message).any l.knows

theorem explains_of_agrees (h : l.Agrees l') (message : String) :
    explains l' message = explains l message := by
  rw [explains, explains, funext h.knows]

section Steps

variable {context : Assoc Data} {message : String} {P : Option Diagnosis × Assoc Data → Prop}

def placed (l : Locator) (message : String) : Bool :=
  wrongRegion message && l.knows "aws_provider.region"

/-- The message is about a property that stands in a network block of the description. -/
def Misplaced (disk : Disk) (l : Locator) (message : String) : Prop :=
  Text.contains message extraneous = true ∧ ∃ name content, extraneousName? message = some name ∧
    disk.readText l.path = .ok content ∧ inNetwork content name = true

theorem property_answers (strange : Text.contains message extraneous = true) :
    Answers (property message) disk l (fun d => d = none ∧ ¬ Misplaced disk l message)
      (l.Unread disk ∨ Misplaced disk l message) := by
  unfold property
  cases named : extraneousName? message with
  | none => exact .pure ⟨rfl, fun ⟨_, _, _, other, _⟩ => by cases named.symm.trans other⟩
  | some name =>
    refine (Answers.ownText.mono (fun _ text => text) .inl).bind fun content text => ?_
    split
    · next found => exact .throw (.inr ⟨strange, name, content, named, text, found⟩)
    · next unfound =>
        refine .pure ⟨rfl, fun ⟨_, _, _, named', text', found⟩ => unfound ?_⟩
        cases named.symm.trans named'
        cases text.symm.trans text'
        exact found

variable (told : ∀ r, r.1.isSome = true →
  (aboutProvider message = true → explains l message = true) → P r)

include told

theorem ofProvider_answers (unplaced : placed l message = false)
    (own : aboutProvider message = false →
      Answers (ofResources context message) disk l P (l.Unread disk)) :
    Answers (ofProvider context message) disk l P
      (l.Unread disk ∨ aboutProvider message = true ∧ explains l message = false) := by
  have asked (head advice : String) (about : aboutProvider message = true) :
      Answers (do return (← provider head advice, context)) disk l P
        (l.Unread disk ∨ aboutProvider message = true ∧ explains l message = false) := by
    have same : explains l message = l.knows "aws_provider" := by
      rw [explains, if_pos about, ← placed, unplaced, Bool.false_or]
    rw [same]
    refine ((provider_answers head advice).mono (fun _ => id)
      (Or.imp_right fun unknown => ⟨about, unknown⟩)).bind fun d found => ?_
    exact .pure (told _ found.1 fun _ => same.trans found.2)
  unfold ofProvider
  split
  · next unset => exact asked _ _ (by simp [aboutProvider, unset])
  · next set =>
      split
      · next unlisted => exact asked _ _ (by simp [aboutProvider, unlisted])
      · next listed => exact (own (by simp [aboutProvider, set, listed])).mono (fun _ => id) .inl

variable (own : placed l message = false → aboutProvider message = false →
  Answers (ofResources context message) disk l P (l.Unread disk))

include own

theorem ofRegion_answers : Answers (ofRegion context message) disk l P
    (l.Unread disk ∨ aboutProvider message = true ∧ explains l message = false) := by
  unfold ofRegion
  split
  · next wrong =>
      refine ((Locator.find?_answers _).mono (fun _ due => due) .inl).bind fun place due => ?_
      cases place with
      | some place => exact .pure (told _ rfl fun _ => by rw [explains, wrong, ← due]; rfl)
      | none =>
        have unplaced : placed l message = false := by
          rw [placed, ← due, Option.isSome_none, Bool.and_false]
        exact ofProvider_answers told unplaced (own unplaced)
  · next right =>
      have unplaced : placed l message = false := by simp [placed, right]
      exact ofProvider_answers told unplaced (own unplaced)

theorem ofMessage_answers : Answers (ofMessage context message) disk l
    (fun r => P r ∧ ¬ Misplaced disk l message)
    (l.Unread disk ∨ Misplaced disk l message ∨ aboutProvider message = true ∧
      explains l message = false) := by
  have rest (kept : ¬ Misplaced disk l message) : Answers (ofRegion context message) disk l
      (fun r => P r ∧ ¬ Misplaced disk l message)
      (l.Unread disk ∨ Misplaced disk l message ∨ aboutProvider message = true ∧
        explains l message = false) :=
    (ofRegion_answers told own).mono (fun r holds => ⟨holds, kept⟩) (Or.imp_right .inr)
  unfold ofMessage
  split
  · next strange =>
      refine ((property_answers strange).mono (fun _ => id) (Or.imp_right .inl)).bind
        fun d kept => ?_
      obtain ⟨rfl, kept⟩ := kept
      exact rest kept
  · next ordinary => exact rest fun found => ordinary found.1

end Steps

section OfMessage

variable {context : Assoc Data} {message : String}
  (unnamed : Assoc.get? context "resource_name" = none)

include unnamed

/-- Without a name in the context, a machine is looked up by the name in the message. -/
theorem machine_withResource : machine (withResource context message) message =
    ofResource [expectedParam, invalidParam]
      ("aws_instance." ++ ((resourceIn? message).map (·.2)).getD "instance")
      "Check the instance configuration" message := by
  have name : (Assoc.getD (withResource context message) "resource_name" (.str "instance")).text =
      ((resourceIn? message).map (·.2)).getD "instance" := by
    unfold withResource
    split
    · next kind name named =>
        rw [named, Assoc.getD, Assoc.get?_set, if_pos rfl]
        rfl
    · next named =>
        rw [named, Assoc.getD, unnamed]
        rfl
  rw [machine, name]

theorem ofResources_answers : Answers (ofResources context message) disk l
    (fun r => (subjects message).any l.knows = true → r.1.isSome = true) (l.Unread disk) := by
  generalize about : subjects message = ids
  unfold ofResources
  unfold subjects at about
  dsimp only at about ⊢
  rw [machine_withResource unnamed]
  generalize (resourceIn? message).map (·.1) = kind at about ⊢
  split
  · subst about
    exact ((ofResource_answers _ _ _ _).mono
      (fun d due known => due (by simpa using known)) id).paired
  · subst about
    exact ((ofResource_answers _ _ _ _).mono
      (fun d due known => due (by simpa using known)) id).paired
  · next other other' =>
      split at about
      · exact (other rfl).elim
      · exact (other' rfl).elim
      · split at about
        · next foreign =>
            rw [if_pos foreign, ← about]
            exact .pure fun known => by cases known
        · next own =>
            rw [if_neg own, ← about]
            exact (firstOf_answers (.cons (ofResource_answers _ _ _ _)
              (.cons (ofResource_answers _ _ _ _) .nil))).paired

variable {text : String} {fault : Fault} {found : Option Diagnosis} {context' : Assoc Data}

theorem ofMessage_tells : Answers (ofMessage context message) disk l
    (fun r => (explains l message = true ∨ aboutProvider message = true → r.1.isSome = true) ∧
      ¬ Misplaced disk l message)
    (l.Unread disk ∨ Misplaced disk l message ∨ aboutProvider message = true ∧
      explains l message = false) := by
  refine ofMessage_answers (fun r found _ _ => found) fun unplaced apart => ?_
  refine (ofResources_answers unnamed).mono (fun r due known => due ?_) id
  rw [explains, ← placed, unplaced, apart, Bool.false_or] at known
  exact known.resolve_right Bool.false_ne_true

/-- A message that the description has a place for, or that is about the provider, does not go
unexplained. -/
theorem isSome_ofMessage (due : explains l message = true ∨ aboutProvider message = true)
    (run : Returns ((ofMessage context message).run disk) l (found, context') l') :
    found.isSome = true :=
  ((ofMessage_tells unnamed l (refl l)).1 _ _ run).2.1 due

theorem not_fails_ofMessage (readable : disk.readText l.path = .ok text)
    (explained : explains l message = true)
    (ordinary : Text.contains message extraneous = false) :
    ¬ Fails ((ofMessage context message).run disk) l fault l' := by
  intro run
  rcases (ofMessage_tells unnamed l (refl l)).2 _ _ run with unread | strange | unexplained
  · exact unread text readable
  · exact Bool.false_ne_true (ordinary.symm.trans strange.1)
  · simp [explained] at unexplained

end OfMessage

theorem ofResources_returns {context : Assoc Data} {message : String} :
    Answers (ofResources context message) disk l (fun _ => True) (l.Unread disk) := by
  unfold ofResources
  split
  · exact ((ofResource_answers _ _ _ _).mono (fun _ _ => trivial) id).paired
  · exact ((ofResource_answers _ _ _ _).mono (fun _ _ => trivial) id).paired
  · split
    · exact .pure trivial
    · have both : Answers (firstOf [network message,
          machine (withResource context message) message]) disk l _ _ :=
        firstOf_answers (.cons (ofResource_answers _ _ _ _)
          (.cons (ofResource_answers _ _ _ _) .nil))
      exact (both.mono (fun _ _ => trivial) id).paired

/-- With the description at hand a message gets an answer, except for a property in a network block
and for a provider that the description does not set up. -/
theorem ofMessage_returns_iff {context : Assoc Data} {message text : String}
    (readable : disk.readText l.path = .ok text) :
    (∃ found context' l', Returns ((ofMessage context message).run disk) l (found, context') l') ↔
      ¬ Misplaced disk l message ∧ (aboutProvider message = true → explains l message = true) := by
  have answers : Answers (ofMessage context message) disk l _ _ :=
    ofMessage_answers (fun _ _ h => h) fun _ apart =>
    ofResources_returns.mono (fun _ _ about => by simp [apart] at about) id
  constructor
  · rintro ⟨found, context', l', run⟩
    exact ((answers l (refl l)).1 _ _ run).2.symm
  · rintro ⟨kept, explained⟩
    rcases returns_or_fails ((ofMessage context message).run disk) l with
      ⟨r, l', run⟩ | ⟨fault, l', run⟩
    · exact ⟨r.1, r.2, l', run⟩
    · rcases (answers l (refl l)).2 _ _ run with unread | strange | unexplained
      · exact (unread text readable).elim
      · exact (kept strange).elim
      · simp [explained unexplained.1] at unexplained

/-- The provider is set up, so its line is pointed to. -/
theorem ofMessage_returns_provider :
    Disk.readText ⟨[("main.cloud", "")], []⟩ "main.cloud" = .ok "" ∧
      ∃ found context' l', Returns
        ((ofMessage [] "Error: configuring Terraform AWS Provider").run ⟨[("main.cloud", "")], []⟩)
        { path := "main.cloud", entries := [("aws_provider", .start "providers")] }
        (found, context') l' := by
  have readable : Disk.readText ⟨[("main.cloud", "")], []⟩ "main.cloud" = .ok "" := by cbv
  refine ⟨readable, (ofMessage_returns_iff readable).mpr
    ⟨fun misplaced => ?_, fun _ => by decide +kernel⟩⟩
  exact absurd misplaced.1 (by decide +kernel)

/-- A provider that the description does not set up leaves nothing to point to, and nothing else is
tried. -/
theorem ofMessage_provider_unplaceable :
    Fails ((ofMessage [] "Error: configuring Terraform AWS Provider").run
      ⟨[("main.cloud", "")], []⟩)
      { path := "main.cloud", entries := [] } .unplaceable
      { path := "main.cloud", entries := [] } := by
  have ordinary : Text.contains "Error: configuring Terraform AWS Provider" extraneous = false := by
    decide +kernel
  have inside : wrongRegion "Error: configuring Terraform AWS Provider" = false := by decide +kernel
  have unset : Text.contains "Error: configuring Terraform AWS Provider"
      "configuring Terraform AWS Provider" = true := by
    decide +kernel
  rw [ofMessage, if_neg (by simp [ordinary]), ofRegion, if_neg (by simp [inside]), ofProvider,
    if_pos unset]
  rfl

end Terraform

end Diagnosis

end Stratus
