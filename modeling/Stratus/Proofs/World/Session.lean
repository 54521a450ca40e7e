import Stratus.Proofs.Diagnosis.Locator
import Stratus.Proofs.World.Disk
import Stratus.World.Session

/-!
What a run leaves behind: the commands it asked with the replies they took, and the names on the
disk that it may have changed.
-/
namespace Stratus

open List

def Reply.Creates (reply : Reply) (name : String) : Prop :=
  ∃ created ∈ reply.creates, Disk.normal created.1 = name

namespace Session

def commandOf? : Data → Option (List String)
  | .list [.str manner, .list argv] =>
    if ["Popen", "run", "check_output"].contains manner then some (argv.map Data.text) else none
  | _ => none

def commands (s : Session) : List (List String) := s.log.filterMap commandOf?

/-- The replies that a number of commands take from a script; one that has ended gives empty
replies. -/
def replies : Nat → List Reply → List Reply
  | 0, _ => []
  | n + 1, script => script.headD {} :: replies n (script.drop 1)

def answered (s s' : Session) : List (List String × Reply) :=
  let asked := s'.commands.drop s.commands.length
  asked.zip (replies asked.length s.script)

/-- Between two sessions, these commands were asked and took these replies. -/
structure Calls (s s' : Session) (calls : List (List String × Reply)) : Prop where
  commands : s'.commands = s.commands ++ calls.map (·.1)
  replies : calls.map (·.2) = replies calls.length s.script
  script : s'.script = s.script.drop calls.length

theorem replies_add (m n : Nat) (script : List Reply) :
    replies (m + n) script = replies m script ++ replies n (script.drop m) := by
  induction m generalizing script with
  | zero => simp [replies]
  | succ m ih =>
    rw [Nat.add_right_comm, replies, ih, replies, cons_append, drop_drop, Nat.add_comm 1 m]

theorem mem_replies {n : Nat} {script : List Reply} {reply : Reply} (h : reply ∈ replies n script) :
    reply ∈ script ∨ reply = {} := by
  induction n generalizing script with
  | zero => cases h
  | succ n ih =>
    rcases mem_cons.mp h with rfl | later
    · cases script with
      | nil => exact .inr rfl
      | cons first rest => exact .inl mem_cons_self
    · exact (ih later).imp_left mem_of_mem_drop

namespace Calls

variable {s m s' : Session} {calls more : List (List String × Reply)}

theorem answered (h : Calls s s' calls) : s.answered s' = calls := by
  rw [Session.answered, h.commands, drop_left, length_map, ← h.replies, ← unzip_fst, ← unzip_snd,
    zip_unzip]

theorem trans (first : Calls s m calls) (second : Calls m s' more) : Calls s s' (calls ++ more) where
  commands := by rw [second.commands, first.commands, map_append, append_assoc]
  replies := by
    rw [map_append, length_append, replies_add, first.replies, second.replies, first.script]
  script := by rw [second.script, first.script, drop_drop, length_append]

theorem mem_script (h : Calls s s' calls) {argv : List String} {reply : Reply}
    (mem : (argv, reply) ∈ calls) :
    reply ∈ s.script ∨ reply = {} := by
  have taken : reply ∈ calls.map (·.2) := mem_map_of_mem mem
  rw [h.replies] at taken
  exact mem_replies taken

end Calls

/-- What tells whether something is heard stays: the identifiers of the locator and the console. -/
structure Agrees (s s' : Session) : Prop where
  locator : s.locator.Agrees s'.locator
  console : s'.console = s.console

theorem Agrees.trans {s m s' : Session} (first : Agrees s m) (second : Agrees m s') : Agrees s s' :=
  ⟨IsTrans.trans _ _ _ first.locator second.locator, second.console.trans first.console⟩

instance : IsPreorder Session Agrees where
  refl _ := ⟨refl _, rfl⟩
  trans _ _ _ := Agrees.trans

/-- What a run may do: ask commands of a kind, and change files under some names or where a command
creates them. -/
structure Footprint (may : List String → Prop) (names : String → Prop) (s s' : Session) : Prop where
  calls : ∃ calls, Calls s s' calls ∧ (∀ c ∈ calls, may c.1) ∧
    Disk.SameOutside (fun name => names name ∨ ∃ c ∈ calls, c.2.Creates name) s.disk s'.disk
  files : ∀ name, ¬ names name → s.disk.textsAt name ≠ [] → s'.disk.textsAt name ≠ []
  errors : s.errors <+: s'.errors
  agrees : s.Agrees s'

namespace Footprint

variable {may : List String → Prop} {names : String → Prop} {s m s' : Session}

theorem of_change (commands : s'.commands = s.commands) (script : s'.script = s.script)
    (disk : Disk.SameOutside names s.disk s'.disk) (errors : s.errors <+: s'.errors)
    (agrees : s.Agrees s') :
    Footprint may names s s' where
  calls := ⟨[], ⟨by simpa using commands, rfl, script⟩, by simp, disk.mono fun _ => .inl⟩
  files name outside := by
    rw [(disk name outside).1]
    exact id
  errors := errors
  agrees := agrees

theorem of_same (commands : s'.commands = s.commands) (script : s'.script = s.script)
    (disk : s'.disk = s.disk)
    (errors : s.errors <+: s'.errors) (agrees : s.Agrees s') : Footprint may names s s' :=
  of_change commands script (disk ▸ .refl _) errors agrees

theorem trans (first : Footprint may names s m) (second : Footprint may names m s') :
    Footprint may names s s' where
  calls := by
    obtain ⟨calls, asked, allowed, same⟩ := first.calls
    obtain ⟨more, asked', allowed', same'⟩ := second.calls
    refine ⟨calls ++ more, asked.trans asked', ?_, .trans (same.mono ?_) (same'.mono ?_)⟩
    · intro c mem
      exact (mem_append.mp mem).elim (allowed c) (allowed' c)
    · rintro name (inside | ⟨c, mem, created⟩)
      · exact .inl inside
      · exact .inr ⟨c, mem_append_left _ mem, created⟩
    · rintro name (inside | ⟨c, mem, created⟩)
      · exact .inl inside
      · exact .inr ⟨c, mem_append_right _ mem, created⟩
  files name outside there := second.files name outside (first.files name outside there)
  errors := first.errors.trans second.errors
  agrees := first.agrees.trans second.agrees

instance : IsPreorder Session (Footprint may names) where
  refl _ := of_same rfl rfl rfl prefix_rfl (refl _)
  trans _ _ _ := trans

theorem mono {may' : List String → Prop} {names' : String → Prop} (h : Footprint may names s s')
    (commands : ∀ argv, may argv → may' argv)
    (sub : ∀ name, names name → names' name) : Footprint may' names' s s' where
  calls := by
    obtain ⟨calls, asked, allowed, same⟩ := h.calls
    refine ⟨calls, asked, fun c mem => commands c.1 (allowed c mem), same.mono ?_⟩
    exact fun name => Or.imp_left (sub name)
  files name outside := h.files name fun inside => outside (sub name inside)
  errors := h.errors
  agrees := h.agrees

theorem may_of_mem_answered (h : Footprint may names s s') {call : List String × Reply}
    (mem : call ∈ s.answered s') :
    may call.1 := by
  obtain ⟨calls, asked, allowed, -⟩ := h.calls
  rw [asked.answered] at mem
  exact allowed call mem

theorem answered_append (first : Footprint may names s m) (second : Footprint may names m s') :
    s.answered s' = s.answered m ++ m.answered s' := by
  obtain ⟨calls, asked, -⟩ := first.calls
  obtain ⟨more, asked', -⟩ := second.calls
  rw [(asked.trans asked').answered, asked.answered, asked'.answered]

theorem length_errors (h : Footprint may names s s') : s.errors.length ≤ s'.errors.length :=
  h.errors.length_le

theorem script_subset (h : Footprint may names s s') : s'.script ⊆ s.script := by
  obtain ⟨calls, asked, -⟩ := h.calls
  rw [asked.script]
  exact drop_subset _ _

/-- The disk changes only where the run writes or where a reply of the script creates something. -/
theorem sameOutside (h : Footprint may names s s') {created : String → Prop}
    (script : ∀ reply ∈ s.script, ∀ name, reply.Creates name → created name) :
    Disk.SameOutside (fun name => names name ∨ created name) s.disk s'.disk := by
  obtain ⟨calls, asked, -, same⟩ := h.calls
  refine same.mono fun name => Or.imp_right ?_
  rintro ⟨c, mem, creates⟩
  rcases asked.mem_script mem with listed | rest
  · exact script c.2 listed name creates
  · rw [rest] at creates
    obtain ⟨_, ⟨⟩, _⟩ := creates

end Footprint

end Session

end Stratus
