import Stratus.Diagnosis.Ansible
import Stratus.Diagnosis.Kubernetes
import Stratus.Diagnosis.Terraform
import Stratus.Proofs.Assoc
import Stratus.Proofs.Effect.Frame

/-!
Look-ups change what a locator notes about its places, but neither the description nor the
identifiers that it knows.
-/
namespace Stratus

open Assoc hiding set

namespace Locator

/-- Locators of one description that know the same identifiers. -/
structure Agrees (l l' : Locator) : Prop where
  path : l'.path = l.path
  isTable : l'.isTable = l.isTable
  keys : keys l'.entries = keys l.entries

instance : IsPreorder Locator Agrees where
  refl _ := ⟨rfl, rfl, rfl⟩
  trans _ _ _ first second :=
    ⟨second.path.trans first.path, second.isTable.trans first.isTable, second.keys.trans first.keys⟩

theorem Agrees.keyFor? {l l' : Locator} (h : l.Agrees l') (id : String) :
    l'.keyFor? id = l.keyFor? id := by
  have known : contains l'.entries id = contains l.entries id := by
    rw [Bool.eq_iff_iff, contains_iff, contains_iff, h.keys]
  rw [Locator.keyFor?, Locator.keyFor?, known, h.isTable, h.keys]

def knows (l : Locator) (id : String) : Bool := (l.keyFor? id).isSome

theorem Agrees.knows {l l' : Locator} (h : l.Agrees l') (id : String) : l'.knows id = l.knows id := by
  rw [Locator.knows, Locator.knows, h.keyFor?]

end Locator

/-- However a trace ends, the locator still agrees with what it was. -/
def Traces {α : Type} (t : Tracing α) : Prop := ∀ disk, Effect.Keeps Locator.Agrees (t.run disk)

section Traces

open Effect

variable {α β : Type}

@[grind .] theorem traces_pure (a : α) : Traces (pure a : Tracing α) := fun _ => keeps_pure a

@[grind .] theorem traces_throw (fault : Fault) : Traces (throw fault : Tracing α) :=
  fun _ => keeps_throw fault

@[grind .] theorem traces_liftM (x : Outcome α) : Traces (liftM x : Tracing α) :=
  fun _ => keeps_liftM x

@[grind .] theorem traces_read : Traces (read : Tracing Disk) := fun disk => keeps_pure disk

@[grind .] theorem traces_get : Traces (get : Tracing Locator) := fun _ => keeps_get

@[grind .] theorem traces_bind {t : Tracing α} {f : α → Tracing β} (first : Traces t)
    (rest : ∀ a, Traces (f a)) :
    Traces (t >>= f) := fun disk => keeps_bind (first disk) fun a => rest a disk

variable {t : Tracing α} {f : α → Tracing β} {disk : Disk} {l l' : Locator} {b : β} {fault : Fault}

theorem returns_trace_bind_iff : Returns ((t >>= f).run disk) l b l' ↔
    ∃ a m, Returns (t.run disk) l a m ∧ Returns ((f a).run disk) m b l' := returns_bind_iff

theorem fails_trace_bind_iff : Fails ((t >>= f).run disk) l fault l' ↔
    Fails (t.run disk) l fault l' ∨ ∃ a m, Returns (t.run disk) l a m ∧
      Fails ((f a).run disk) m fault l' := fails_bind_iff

end Traces

namespace Locator

open Effect

@[grind .] theorem traces_locate (p : Place) : Traces (locate p) := by
  unfold locate
  grind

@[grind .] theorem traces_param? (id param : String) : Traces (param? id param) := by
  unfold param?
  grind

theorem keys_set_of_keyFor? {l : Locator} {id key : String} (found : l.keyFor? id = some key)
    (location : Location) :
    keys (Assoc.set l.entries key location) = keys l.entries := by
  apply keys_set_of_mem
  unfold Locator.keyFor? at found
  split at found
  · next known =>
      cases found
      exact contains_iff.mp known
  · split at found
    · cases found
    · exact List.mem_of_find?_eq_some found

variable {l : Locator} {id : String} (disk : Disk)

theorem find?_of_unknown (unknown : l.keyFor? id = none) :
    Returns ((find? id).run disk) l none l := by
  unfold find?
  rw [ReaderT.run_bind, returns_bind_iff]
  refine ⟨l, l, rfl, ?_⟩
  rw [unknown]
  rfl

/-- A place that is known is found, unless the lines before it cannot be read. -/
theorem find?_of_known {key : String} (known : l.keyFor? id = some key) :
    (∃ l', Returns ((find? id).run disk) l (some (l.place key)) l' ∧ l.Agrees l') ∨
      ∃ fault, Fails ((find? id).run disk) l fault l ∧ disk.readText l.path = .error fault := by
  have start (f : Locator → Tracing (Option Place)) :
      (((get >>= f : Tracing (Option Place)).run disk).run.run l).run =
        (((f l).run disk).run.run l).run := rfl
  have reading (f : Disk → Tracing (Option Place)) : (read >>= f).run disk = (f disk).run disk := rfl
  unfold Returns Fails find?
  rw [start, known]
  dsimp only
  split
  · next startKey location _ _ _ =>
      rw [reading]
      cases lines : disk.readText l.path with
      | error fault => exact .inr ⟨fault, rfl, rfl⟩
      | ok content =>
        refine .inl ⟨_, rfl, rfl, rfl, ?_⟩
        exact keys_set_of_keyFor? known (withContext content startKey location)
  · exact .inl ⟨l, rfl, refl l⟩

@[grind .] theorem traces_find? (id : String) : Traces (find? id) := by
  intro disk l
  cases found : l.keyFor? id with
  | none =>
    rw [show (((find? id).run disk).run.run l).run = _ from find?_of_unknown disk found]
    exact refl l
  | some key =>
    rcases find?_of_known disk found with ⟨l', run, agrees⟩ | ⟨fault, run, -⟩
    · rw [show (((find? id).run disk).run.run l).run = _ from run]
      exact agrees
    · rw [show (((find? id).run disk).run.run l).run = _ from run]
      exact refl l

end Locator

namespace Diagnosis

@[grind .] theorem traces_firstOf {attempts : List (Tracing (Option Diagnosis))}
    (each : ∀ t ∈ attempts, Traces t) :
    Traces (firstOf attempts) := by
  induction attempts with
  | nil => exact traces_pure none
  | cons attempt rest ih =>
    unfold firstOf
    grind

theorem Kubernetes.traces_explain (terms : List String) (headline : String → String)
    (suggestion message : String) :
    Traces (Kubernetes.explain terms headline suggestion message) := by
  unfold Kubernetes.explain
  grind

@[grind .] theorem Kubernetes.traces_ofMessage (message : String) :
    Traces (Kubernetes.ofMessage message) := by
  apply traces_firstOf
  simp only [List.forall_mem_cons, List.not_mem_nil, IsEmpty.forall_iff, implies_true, and_true]
  exact ⟨traces_explain _ _ _ _, traces_explain _ _ _ _, traces_explain _ _ _ _⟩

theorem Ansible.traces_explain (terms : List String) (before : String) (kind : ResourceKind)
    (headline suggestion : String → String) (message : String) :
    Traces (Ansible.explain terms before kind headline suggestion message) := by
  unfold Ansible.explain
  grind

@[grind .] theorem Ansible.traces_ofMessage (message : String) :
    Traces (Ansible.ofMessage message) := by
  apply traces_firstOf
  simp only [List.forall_mem_cons, List.not_mem_nil, IsEmpty.forall_iff, implies_true, and_true]
  exact ⟨traces_explain _ _ _ _ _ _, traces_explain _ _ _ _ _ _, traces_explain _ _ _ _ _ _⟩

namespace Terraform

@[grind .] theorem traces_ofResource (patterns : List Text.Pattern) (id whole message : String) :
    Traces (ofResource patterns id whole message) := by
  unfold ofResource
  grind

@[grind .] theorem traces_property (message : String) : Traces (property message) := by
  unfold property
  grind

@[grind .] theorem traces_provider (head advice : String) : Traces (provider head advice) := by
  unfold provider
  grind

@[grind .] theorem traces_ofResources (context : Assoc Data) (message : String) :
    Traces (ofResources context message) := by
  unfold ofResources network machine
  grind

@[grind .] theorem traces_ofMessage (context : Assoc Data) (message : String) :
    Traces (ofMessage context message) := by
  unfold ofMessage ofRegion ofProvider
  grind

end Terraform

end Diagnosis

end Stratus
