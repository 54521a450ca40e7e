import Stratus.Proofs.Terraform.Pass

/-!
Deployments. A deployment adds dependencies to resources that stand; the other attributes of these
resources, and everything else, stay as they are.
-/
namespace Stratus.Terraform

open Effect

structure Grown (old new : Data) : Prop where
  rest : ∀ key, key ≠ "depends_on" → new.step? (.key key) = old.step? (.key key)
  more : ∀ items, old.step? (.key "depends_on") = some (.list items) →
    ∃ added, new.step? (.key "depends_on") = some (.list (items ++ added))

theorem Grown.refl (d : Data) : Grown d d := by
  refine ⟨fun _ _ => rfl, ?_⟩
  intro items found
  exact ⟨[], by rw [found, List.append_nil]⟩

theorem Grown.trans {a b c : Data} (h : Grown a b) (h' : Grown b c) : Grown a c := by
  refine ⟨fun key other => (h'.rest key other).trans (h.rest key other), ?_⟩
  intro items found
  obtain ⟨added, found⟩ := h.more items found
  obtain ⟨later, found⟩ := h'.more _ found
  exact ⟨added ++ later, by rw [found, List.append_assoc]⟩

theorem grown_of_dependOn {d d' : Data} {name : String} (h : dependOn d name = .ok d') :
    Grown d d' := by
  obtain ⟨known, read, rest⟩ := Outcome.bind_eq_ok h
  obtain ⟨pushed, push, put⟩ := Outcome.bind_eq_ok rest
  clear h rest
  cases d with
  | map entries =>
    cases read
    cases put
    refine ⟨?_, ?_⟩
    · intro key other
      simp only [Data.step?, Assoc.get?_set, Ne.symm other, if_false]
    · intro items found
      simp only [Data.step?] at found
      simp only [Assoc.getD, found, Option.getD_some, Data.push] at push
      cases push
      exact ⟨[.str ("null_resource." ++ name)], by simp only [Data.step?, Assoc.get?_set, if_true]⟩
  | _ => cases put

structure Deployed (st st' : State) : Prop where
  rest : ∃ resources, st' = { st with config := { st.config with resources } }
  tidy : Blocks.Tidy st'.config.resources
  grown : ∀ type name,
    Option.Rel Grown (Blocks.get? st.config.resources type name)
      (Blocks.get? st'.config.resources type name)

variable {st st' : State} {block : Data} {u : Unit} {slot : Slot} {moves : List Move}

theorem Deployed.refl (tidy : Blocks.Tidy st.config.resources) : Deployed st st := by
  refine ⟨⟨_, rfl⟩, tidy, ?_⟩
  intro type name
  cases Blocks.get? st.config.resources type name with
  | none => exact .none
  | some block => exact .some (.refl block)

theorem Deployed.trans {a b c : State} (h : Deployed a b) (h' : Deployed b c) : Deployed a c := by
  refine ⟨?_, h'.tidy, ?_⟩
  · obtain ⟨_, rfl⟩ := h.rest
    obtain ⟨resources, rfl⟩ := h'.rest
    exact ⟨resources, rfl⟩
  · intro type name
    have first := h.grown type name
    have last := h'.grown type name
    revert first last
    generalize Blocks.get? a.config.resources type name = x
    generalize Blocks.get? b.config.resources type name = y
    generalize Blocks.get? c.config.resources type name = z
    rintro (first | _) last
    · cases last with
      | some last => exact .some (first.trans last)
    · cases last
      exact .none

theorem Deployed.add {type name : String} {block' : Data} (h : Deployed st st')
    (found : Blocks.get? st.config.resources type name = some block) (grown : Grown block block') :
    Deployed st { st' with config := { st'.config with
      resources := Blocks.add st'.config.resources type name block' } } := by
  refine ⟨?_, h.tidy.add type name block', ?_⟩
  · obtain ⟨_, rfl⟩ := h.rest
    exact ⟨_, rfl⟩
  · intro type' name'
    simp only [Blocks.get?_add]
    split
    · next same =>
        rw [← same.1, ← same.2, found]
        exact .some grown
    · exact h.grown type' name'

theorem applyMapping_deployed {source : String} {target : Data}
    (h : Returns (applyMapping source target) st u st')
    (tidy : Blocks.Tidy st.config.resources) : Deployed st st' := by
  unfold applyMapping at h
  simp only [returns_bind_iff, returns_lift_iff] at h
  obtain ⟨parts, _, ⟨_, rfl⟩, h⟩ := h
  split at h
  · next type name _ _ config _ _ _ =>
      simp only [returns_bind_iff, returns_get_iff] at h
      obtain ⟨_, _, ⟨rfl, rfl⟩, h⟩ := h
      split at h
      · next block found =>
          split at h
          · simp only [returns_bind_iff, returns_lift_iff, setConfig_returns_iff] at h
            obtain ⟨block', _, ⟨grown, rfl⟩, rfl⟩ := h
            exact (Deployed.refl tidy).add found (grown_of_dependOn grown)
          · rw [(returns_pure_iff.mp h).2]
            exact .refl tidy
      · rw [(returns_pure_iff.mp h).2]
        exact .refl tidy
  · rw [(returns_pure_iff.mp h).2]
    exact .refl tidy

theorem applyPattern_deployed {pattern : Data}
    (h : Returns (applyPattern pattern) st u st')
    (tidy : Blocks.Tidy st.config.resources) : Deployed st st' := by
  unfold applyPattern at h
  simp only [returns_bind_iff, returns_lift_iff, returns_get_iff, returns_pure_iff] at h
  obtain ⟨wanted, st, ⟨_, rfl⟩, condition, st, ⟨_, rfl⟩, apply, st, ⟨_, rfl⟩, _, st, ⟨rfl, rfl⟩, _,
    st', loop, _, rfl⟩ := h
  refine loop.forIn_induct (P := Deployed st) ?_ (.refl tidy)
  rintro ⟨type, named⟩ outer _ _ m m' body kept
  simp only [returns_bind_iff, returns_pure_iff] at body
  obtain ⟨_, m', inner, _, rfl⟩ := body
  refine inner.forIn_induct (P := Deployed st) ?_ kept
  rintro ⟨name, block⟩ mem _ _ m m' body kept
  have found := tidy.get?_of_mem outer mem
  simp only [returns_bind_iff, returns_lift_iff] at body
  obtain ⟨chosen, m, ⟨_, rfl⟩, body⟩ := body
  cases chosen with
  | false => exact (returns_pure_iff.mp body).2 ▸ kept
  | true =>
    simp only [if_true, returns_bind_iff, returns_lift_iff] at body
    obtain ⟨fit, m, ⟨_, rfl⟩, body⟩ := body
    cases fit with
    | false => exact (returns_pure_iff.mp body).2 ▸ kept
    | true =>
      simp only [if_true, returns_bind_iff, returns_lift_iff] at body
      obtain ⟨parts, m, ⟨_, rfl⟩, body⟩ := body
      split at body
      · simp only [returns_bind_iff, returns_lift_iff, setConfig_returns_iff,
          returns_pure_iff] at body
        obtain ⟨block', m, ⟨grown, rfl⟩, _, m', rfl, _, rfl⟩ := body
        exact kept.add found (grown_of_dependOn grown)
      · exact (returns_pure_iff.mp body).2 ▸ kept

theorem deployment_deployed {info : Data}
    (h : Returns (deployment info) st u st')
    (tidy : Blocks.Tidy st.config.resources) : Deployed st st' := by
  unfold deployment at h
  split at h
  · rw [(returns_pure_iff.mp h).2]
    exact .refl tidy
  · simp only [returns_bind_iff, returns_lift_iff] at h
    obtain ⟨mappings, st, ⟨_, rfl⟩, pattern, st, ⟨_, rfl⟩, entries, st, ⟨_, rfl⟩, _, m,
      loop, last⟩ := h
    have mapped : Deployed st m := by
      refine loop.forIn_induct (P := Deployed st) ?_ (.refl tidy)
      rintro ⟨source, target⟩ _ _ _ m m' body kept
      simp only [returns_bind_iff, returns_pure_iff] at body
      obtain ⟨_, m', run, _, rfl⟩ := body
      exact kept.trans (applyMapping_deployed run kept.tidy)
    exact mapped.trans (applyPattern_deployed last mapped.tidy)

theorem Deployed.block? (h : Deployed st st') (slot : Slot) :
    Option.Rel Grown (st.config.block? slot) (st'.config.block? slot) := by
  have same (d : Option Data) : Option.Rel Grown d d := by
    cases d with
    | none => exact .none
    | some block => exact .some (.refl block)
  cases slot with
  | resource type name => exact h.grown type name
  | data type name =>
    obtain ⟨_, rfl⟩ := h.rest
    exact same _
  | module name =>
    obtain ⟨_, rfl⟩ := h.rest
    exact same _

theorem Deployed.before (h : Deployed st st') {new : Data}
    (found : st'.config.block? slot = some new) :
    ∃ old, st.config.block? slot = some old ∧ Grown old new := by
  have grown := h.block? slot
  rw [found] at grown
  cases old : st.config.block? slot with
  | none =>
    rw [old] at grown
    cases grown
  | some block =>
    rw [old] at grown
    cases grown with
    | some grown => exact ⟨block, rfl, grown⟩

theorem Deployed.after (h : Deployed st st') {old : Data}
    (found : st.config.block? slot = some old) :
    ∃ new, st'.config.block? slot = some new ∧ Grown old new := by
  have grown := h.block? slot
  rw [found] at grown
  cases new : st'.config.block? slot with
  | none =>
    rw [new] at grown
    cases grown
  | some block =>
    rw [new] at grown
    cases grown with
    | some grown => exact ⟨block, rfl, grown⟩

/-- A move that leaves blocks and addresses alone, and writes the outputs of a service at most. -/
structure Idle (move : Move) (st st' : State) : Prop where
  addresses : st'.addresses = st.addresses
  blocks : st'.config.blocks = st.config.blocks
  outputs : st'.config.outputs = st.config.outputs ∨ ∃ s, move = .outputs s ∧
    st'.config.outputs = s.infrastructure.foldl (withOutput s) st.config.outputs

inductive Does (move : Move) (st st' : State) : Prop where
  | idle (silent : move.component? = none) (h : Idle move st st')
  | turn (c : Component) (emitted : Option (Slot × Data)) (own : move = .component c)
      (made : emission st.providers (record (claims st.providers) st.addresses c) c = .ok emitted)
      (after : st' = st.after c emitted)
  | deployment (info : Data) (own : move = .deployment info) (h : Deployed st st')

theorem does_of_run {move : Move} (step : Returns move.run st () st') (tidy : st.config.Tidy) :
    (st'.providers = st.providers ∧ st'.config.Tidy) ∧ Does move st st' := by
  cases move with
  | opening s =>
    cases openings_returns_iff.mp step
    exact ⟨⟨rfl, tidy.of_blocks rfl⟩, .idle rfl ⟨rfl, rfl, .inl rfl⟩⟩
  | component c =>
    obtain ⟨emitted, made, rfl⟩ := turn_returns_iff.mp step
    exact ⟨⟨rfl, tidy.lay emitted⟩, .turn c emitted rfl made rfl⟩
  | deployment info =>
    have deployed := deployment_deployed step tidy.resources
    have tidied := deployed.tidy
    refine ⟨?_, .deployment info rfl deployed⟩
    obtain ⟨resources, rfl⟩ := deployed.rest
    exact ⟨rfl, { tidy with resources := tidied }⟩
  | outputs s =>
    cases outputs_returns_iff.mp step
    exact ⟨⟨rfl, tidy.of_blocks rfl⟩, .idle rfl ⟨rfl, rfl, .inr ⟨s, rfl, rfl⟩⟩⟩

theorem run_induct {providers : Assoc Data} {P : State → Prop}
    (run : Chain Move.run moves st st') (given : st.providers = providers) (tidy : st.config.Tidy)
    (start : P st) (idle : ∀ move ∈ moves, ∀ st st', Idle move st st' → P st → P st')
    (turn : ∀ c, .component c ∈ moves → ∀ st emitted, st.providers = providers →
      emission providers (record (claims providers) st.addresses c) c = .ok emitted → P st →
        P (st.after c emitted))
    (deployed : ∀ info, .deployment info ∈ moves → ∀ st st', Deployed st st' → P st → P st') :
    (st'.providers = providers ∧ st'.config.Tidy) ∧ P st' := by
  refine run.induct (P := fun st => (st.providers = providers ∧ st.config.Tidy) ∧ P st) ?_
    ⟨⟨given, tidy⟩, start⟩
  rintro move mem m m' step ⟨⟨rfl, tidy⟩, kept⟩
  obtain ⟨⟨same, tidy⟩, does⟩ := does_of_run step tidy
  refine ⟨⟨same, tidy⟩, ?_⟩
  cases does with
  | idle _ h => exact idle move mem m m' h kept
  | turn c emitted own made after =>
    subst after
    exact turn c (own ▸ mem) m emitted rfl made kept
  | deployment info own h => exact deployed info (own ▸ mem) m m' h kept

theorem kept_of_run (run : Chain Move.run moves st st') (tidy : st.config.Tidy) :
    st'.providers = st.providers ∧ st'.config.Tidy :=
  (run_induct run rfl tidy (P := fun _ => True) trivial (fun _ _ _ _ _ _ => trivial)
    (fun _ _ _ _ _ _ _ => trivial) (fun _ _ _ _ _ _ => trivial)).1

/-- The addresses after a run are those that its components have recorded one after the other. -/
theorem addresses_of_run (run : Chain Move.run moves st st') (tidy : st.config.Tidy) :
    st'.addresses = (moves.filterMap Move.component?).foldl
      (record (claims st.providers)) st.addresses := by
  induction run with
  | nil => rfl
  | @cons move moves st m st' first _ ih =>
    obtain ⟨⟨same, tidy⟩, does⟩ := does_of_run first tidy
    rw [ih tidy, same]
    cases does with
    | idle silent h => rw [List.filterMap_cons_none silent, h.addresses]
    | turn c emitted own _ after =>
      subst own after
      rfl
    | deployment info own h =>
      subst own
      obtain ⟨resources, rfl⟩ := h.rest
      rfl

/-- Whatever stands in a slot has grown from what a component made for it. -/
theorem origin_of_run {providers : Assoc Data} {services : List Service} {Q : Addresses → Prop}
    (run : Chain Move.run (plan services) { providers, addresses := table services } st)
    (start : Q (table services))
    (recorded : ∀ c ∈ laidOut services, ∀ addresses, Q addresses →
      Q (record (claims providers) addresses c))
    (found : st.config.block? slot = some block) :
    ∃ c ∈ laidOut services, ∃ addresses made, Q addresses ∧
      emission providers addresses c = .ok (some (slot, made)) ∧ Grown made block := by
  revert slot block
  refine (run_induct run rfl .empty (P := fun st => Q st.addresses ∧ ∀ {slot block},
    st.config.block? slot = some block → ∃ c ∈ laidOut services, ∃ addresses made, Q addresses ∧
      emission providers addresses c = .ok (some (slot, made)) ∧ Grown made block)
        ⟨start, ?_⟩ ?_ ?_ ?_).2.2
  · intro slot block found
    cases slot <;> cases found
  · rintro _ _ st st' idle ⟨kept, origin⟩
    refine ⟨idle.addresses ▸ kept, ?_⟩
    intro slot block found
    exact origin (Config.block?_congr idle.blocks slot ▸ found)
  · rintro c mem st emitted given made ⟨kept, origin⟩
    subst given
    have known := recorded c (component_mem_plan.mp mem) _ kept
    refine ⟨known, ?_⟩
    intro slot block found
    cases emitted with
    | none => exact origin found
    | some e =>
      simp only [State.after, Config.lay, Config.block?_put] at found
      split at found
      · next same =>
          cases found
          subst same
          exact ⟨c, component_mem_plan.mp mem, _, _, known, made, .refl _⟩
      · exact origin found
  · rintro info _ st st' deployed ⟨kept, origin⟩
    refine ⟨?_, ?_⟩
    · obtain ⟨resources, rfl⟩ := deployed.rest
      exact kept
    · intro slot block found
      obtain ⟨old, before, grown⟩ := deployed.before found
      obtain ⟨c, mem, addresses, first, known, made, earlier⟩ := origin before
      exact ⟨c, mem, addresses, first, known, made, earlier.trans grown⟩

theorem block_stays (run : Chain Move.run moves st st') (tidy : st.config.Tidy)
    (alone : ∀ d ∈ moves.filterMap Move.component?, slot? st.providers d ≠ some slot)
    (found : st.config.block? slot = some block) :
    ∃ block', st'.config.block? slot = some block' ∧ Grown block block' := by
  refine (run_induct run rfl tidy
    (P := fun st => ∃ block', st.config.block? slot = some block' ∧ Grown block block')
    ⟨block, found, .refl block⟩ ?_ ?_ ?_).2
  · rintro _ _ m m' idle ⟨block', found, grown⟩
    exact ⟨block', (Config.block?_congr idle.blocks _).trans found, grown⟩
  · rintro c mem m emitted same made ⟨block', found, grown⟩
    refine ⟨block', ?_, grown⟩
    cases emitted with
    | none => exact found
    | some e =>
      have differs : e.1 ≠ slot := by
        intro same
        have placed := slot?_of_emission made
        rw [Option.map_some, same] at placed
        exact alone c (List.mem_filterMap.mpr ⟨_, mem, rfl⟩) placed
      simp only [State.after, Config.lay, Config.block?_put, differs, if_false]
      exact found
  · rintro info _ m m' deployed ⟨block', found, grown⟩
    obtain ⟨new, found, later⟩ := deployed.after found
    exact ⟨new, found, grown.trans later⟩

end Stratus.Terraform
