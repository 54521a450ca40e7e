import Stratus.Proofs.Deploy.Failure

/-!
The addresses of instances. A playbook is run on the address of the first output that is named for
one, whichever instance is meant.
-/
namespace Stratus.Playbook

open Assoc hiding set

open Effect

variable {address : Data} {s s' : Session} {e : String × Data} {name : String}

/-- The address that an output gives, if it is named for one. -/
def addressIn? (e : String × Data) : Option Data :=
  if Text.contains e.1 "public_ip" then (e.2.map?).bind (get? · "value") else none

def firstAddress? (outputs : Assoc Data) : Option (String × Data) :=
  outputs.findSome? fun e => (addressIn? e).map (e.1, ·)

theorem firstAddress?_cons_of_some (hit : addressIn? e = some address)
    (rest : Assoc Data) : firstAddress? (e :: rest) = some (e.1, address) := by
  simp [firstAddress?, hit]

theorem firstAddress?_cons_of_none (miss : addressIn? e = none) (rest : Assoc Data) :
    firstAddress? (e :: rest) = firstAddress? rest := by
  simp [firstAddress?, miss]

/-- An instance has an output of its own, with an address that is not empty. -/
def Owns (outputs : Assoc Data) (name : String) (address : Data) : Prop :=
  address.holds = true ∧
    ∃ fields, get? outputs s!"ec2_{name}_public_ip" = some (.map fields) ∧
      get? fields "value" = some address

theorem addressIn?_own {fields : Assoc Data} (given : get? fields "value" = some address) :
    addressIn? (s!"ec2_{name}_public_ip", .map fields) = some address := by
  have named : Text.contains s!"ec2_{name}_public_ip" "public_ip" = true := by
    refine Text.contains_iff.mpr ⟨"ec2_".toList ++ name.toList ++ ['_'], [], ?_⟩
    simp [toString]
  rw [addressIn?, if_pos named]
  exact given

theorem Owns.exists_first {outputs : Assoc Data} (owns : Owns outputs name address) :
    ∃ first, firstAddress? outputs = some first := by
  obtain ⟨-, fields, found, given⟩ := owns
  rw [← Option.isSome_iff_exists, firstAddress?, List.findSome?_isSome_iff]
  exact ⟨_, mem_of_get? found, by simp [addressIn?_own given]⟩

/-- A console that shows what is told about outputs. -/
structure Printable (console : Console) (outputs : Assoc Data) : Prop where
  lines : ∀ e ∈ outputs, console.Shows ("- " ++ e.1 ++ ": " ++ e.2.text)
  found : ∀ first, firstAddress? outputs = some first →
    console.Shows ("Found public IP in output: " ++ first.1)

theorem chain_tell_iff {α : Type} {line : α → String} {xs : List α} :
    Chain (fun x => Job.tell (line x)) xs s s' ↔ (∀ x ∈ xs, s.console.Shows (line x)) ∧ s' = s := by
  induction xs generalizing s with
  | nil => simp [Chain.nil_iff]
  | cons x xs ih =>
    simp only [Chain.cons_iff, Job.returns_tell_iff, ih, List.forall_mem_cons]
    constructor
    · rintro ⟨_, ⟨first, rfl⟩, rest, rfl⟩
      exact ⟨⟨first, rest⟩, rfl⟩
    · rintro ⟨⟨first, rest⟩, rfl⟩
      exact ⟨s', ⟨first, rfl⟩, rest, rfl⟩

def seek (e : String × Data) : Job (ForInStep (Option Data × Unit)) :=
  (addressIn? e).elim (pure (.yield (none, ()))) fun address => do
    Job.tell ("Found public IP in output: " ++ e.1)
    return .done (some address, ())

theorem publicAddress?_eq {outputs : Assoc Data} (single : get? outputs "instance_ip" = none) :
    publicAddress? (.map outputs) = do
      forIn outputs PUnit.unit fun e _ => do
        Job.tell ("- " ++ e.1 ++ ": " ++ e.2.text)
        return .yield PUnit.unit
      let found ← forIn outputs (none, ()) fun e _ => seek e
      return Data.ofOption found.1 := by
  have read : (liftM (Data.map outputs).entries : Job (Assoc Data)) = pure outputs := rfl
  unfold publicAddress?
  rw [read, pure_bind]
  refine bind_congr fun _ => ?_
  dsimp only
  rw [single]
  refine congrArg₂ bind (congrArg (forIn outputs (none, ())) ?_) ?_
  · funext e _
    obtain ⟨name, value⟩ := e
    unfold seek addressIn?
    dsimp only
    cases Text.contains name "public_ip" with
    | false => cases value <;> rfl
    | true =>
      cases value with
      | map fields =>
        simp only [↓reduceIte, Data.map?, Option.bind_some]
        cases get? fields "value" <;> rfl
      | _ => rfl
  · funext found
    cases found.1 <;> rfl

theorem returns_seek_iff {outputs : Assoc Data} {found : Option Data × Unit} :
    Returns (forIn outputs (none, ()) fun e _ => seek e) s found s' ↔
      s' = s ∧ found = ((firstAddress? outputs).map Prod.snd, ()) ∧
      ∀ first, firstAddress? outputs = some first →
        s.console.Shows ("Found public IP in output: " ++ first.1) := by
  induction outputs generalizing s with
  | nil => simp [firstAddress?, and_comm]
  | cons e rest ih =>
    rw [List.forIn_cons]
    cases given : addressIn? e with
    | some address =>
      rw [seek, given, firstAddress?_cons_of_some given]
      simp only [Option.elim_some, bind_assoc, pure_bind, returns_bind_iff, Job.returns_tell_iff,
        returns_pure_iff]
      constructor
      · rintro ⟨_, _, ⟨shown, rfl⟩, rfl, rfl⟩
        exact ⟨rfl, rfl, by simpa using shown⟩
      · rintro ⟨rfl, rfl, shown⟩
        exact ⟨(), s', ⟨shown (e.1, address) rfl, rfl⟩, rfl, rfl⟩
    | none => rw [seek, given, Option.elim_none, pure_bind, firstAddress?_cons_of_none given, ih]

/-- Without a single address for all, the first address among the outputs is returned. -/
theorem returns_publicAddress?_iff {outputs : Assoc Data}
    (single : get? outputs "instance_ip" = none) :
    Returns (publicAddress? (.map outputs)) s address s' ↔
      s' = s ∧ Printable s.console outputs ∧
        address = Data.ofOption ((firstAddress? outputs).map Prod.snd) := by
  rw [publicAddress?_eq single]
  simp only [returns_bind_iff, returns_pure_iff, returns_seek_iff, chain_tell_iff,
    returns_forIn_iff (fun e : String × Data => Job.tell ("- " ++ e.1 ++ ": " ++ e.2.text))
      (fun _ _ => rfl)]
  constructor
  · rintro ⟨_, _, ⟨lines, rfl⟩, _, _, ⟨rfl, rfl, found⟩, rfl, rfl⟩
    exact ⟨rfl, ⟨lines, found⟩, rfl⟩
  · rintro ⟨rfl, ⟨lines, found⟩, rfl⟩
    exact ⟨⟨⟩, s', ⟨lines, rfl⟩, _, s', ⟨rfl, rfl, found⟩, rfl, rfl⟩

/-- An instance gets the address in its own output just if this is the address of the first output
and the console shows what is told about the outputs. -/
theorem returns_own_address_iff_first {outputs : Assoc Data}
    (single : Assoc.get? outputs "instance_ip" = none)
    {name : String} {address : Data} (owns : Owns outputs name address) :
    ∃ first, firstAddress? outputs = some first ∧
      ∀ s, (Returns (publicAddress? (.map outputs)) s address s ↔
        Printable s.console outputs ∧ address = first.2) := by
  obtain ⟨first, found⟩ := owns.exists_first
  refine ⟨first, found, fun s => ?_⟩
  rw [returns_publicAddress?_iff single, found]
  simp [Data.ofOption]

namespace Sample

/-- The outputs for a database and, behind them, for the web server. -/
def outputs : Assoc Data := [
  ("ec2_db_public_ip", .map [("value", .str "192.0.2.1")]),
    ("ec2_web_public_ip", .map [("value", .str "192.0.2.2")])]

theorem owns_db : Owns outputs "db" (.str "192.0.2.1") := ⟨rfl, _, rfl, rfl⟩

theorem owns_web : Owns outputs "web" (.str "192.0.2.2") := ⟨rfl, _, rfl, rfl⟩

theorem printable (console : Console) : Printable console outputs := by
  have untagged {text : String} (h : Console.untagged text = true) : console.Shows text :=
    console.plain _ List.mem_cons_self text h
  refine ⟨?_, ?_⟩
  · rw [outputs, List.forall_mem_cons, List.forall_mem_singleton]
    exact ⟨untagged (by decide +kernel), untagged (by decide +kernel)⟩
  · rintro first ⟨⟩
    exact untagged (by decide +kernel)

end Sample

theorem returns_database_address : Assoc.get? Sample.outputs "instance_ip" = none ∧
    Owns Sample.outputs "db" (.str "192.0.2.1") ∧
    ∀ s, Returns (publicAddress? (.map Sample.outputs)) s (.str "192.0.2.1") s := by
  obtain ⟨first, found, returned⟩ := returns_own_address_iff_first rfl Sample.owns_db
  cases found
  exact ⟨rfl, Sample.owns_db, fun s => (returned s).mpr ⟨Sample.printable s.console, rfl⟩⟩

/-- The address for the web server is that of the database. -/
theorem web_at_database_address : Assoc.get? Sample.outputs "instance_ip" = none ∧
    Owns Sample.outputs "db" (.str "192.0.2.1") ∧ Owns Sample.outputs "web" (.str "192.0.2.2") ∧
    (∀ s, Returns (publicAddress? (.map Sample.outputs)) s (.str "192.0.2.1") s) ∧
    Data.str "192.0.2.1" ≠ .str "192.0.2.2" := by
  refine ⟨rfl, Sample.owns_db, Sample.owns_web, fun s => ?_, by simp⟩
  exact (returns_publicAddress?_iff rfl).mpr ⟨rfl, Sample.printable s.console, rfl⟩

end Stratus.Playbook
