import StatefulPipeline.Proofs.CompiledRules
import StatefulPipeline.Proofs.RegistryRuns

/-! The state transfer table runs the registered automata. A rule that a packet's key hits was
compiled from an edge with that very key, and a registry has one edge for a key; so neither the
order of the rules nor rules of other targets nor repeated ones change what is written. -/

namespace StatefulPipeline

namespace RuleSet

theorem transferKey_subset_iff {t t' : TargetId} {c c' : StateId} {g g' : Trigger} :
    transferKey t c g ⊆ transferKey t' c' g' ↔ t = t' ∧ c = c' ∧ g = g' := by
  simp [transferKey, FieldRef.metadata, Name.targetId, Name.curState, Name.trigger,
    UInt8.toNat_inj, UInt16.toNat_inj]

end RuleSet

namespace Registry

/-- The states of an automaton after each of a list of triggers; without an edge the state stays. -/
def walk (r : Registry) (id : TargetId) (state : StateId) : List Trigger → List StateId
  | [] => []
  | g :: gs =>
    (r.step id g state).getD state :: r.walk id ((r.step id g state).getD state) gs

end Registry

namespace Schema

variable {schema : Schema} {registry : Registry} {targets : List TargetId} {rules : List Rule}

/-- Every rule belongs to a bound flow or to the service of one of the targets. -/
def Serves (schema : Schema) (registry : Registry) (served : TargetId → Prop)
    (rules : List Rule) : Prop :=
  ∀ rule ∈ rules, rule.OfFlow ∨ ∃ t, served t ∧ .ok rule ∈ schema.serviceResults registry t

section Serves

variable {served : TargetId → Prop} {t : TargetId} {c n : StateId} {g : Trigger}

theorem Serves.step_of_hit (hr : registry.WellFormed) (hs : schema.Serves registry served rules)
    {rule : Rule} (hm : rule ∈ rules) (ht : rule.table = .stateTransfer)
    (hk : rule.matchesKey (RuleSet.transferKey t c g) = true) :
    ∃ n, served t ∧ registry.step t g c = some n ∧
      schema.compileTransition ⟨t, g, c, n⟩ = .ok rule := by
  rcases hs rule hm with hf | ⟨u, hu, hrule⟩
  · rw [Rule.OfFlow, ht] at hf
    exact absurd hf (by decide)
  · rcases ok_mem_serviceResults.mp hrule with ⟨b, _, hb⟩ | ⟨e, he, hc⟩
    · rw [(compileAction_eq_ok hb).1] at ht
      exact absurd ht (by decide)
    · obtain ⟨_, hterms, _⟩ := compileTransition_eq_ok hc
      rw [Rule.matchesKey_iff_subset, hterms, RuleSet.transferKey_subset_iff] at hk
      obtain ⟨rfl, rfl, rfl⟩ := hk
      obtain rfl : e.target = u := hr.target_of_mem_transitionsFor he
      exact ⟨e.next, hu, hr.step_eq_some_iff.mpr he, hc⟩

/-- The table writes a state exactly if an edge of a served target leads there and its rule is
among the rules. -/
theorem Serves.transfer_eq_some_iff (hr : registry.WellFormed)
    (hs : schema.Serves registry served rules) :
    (RuleSet.mk rules).transfer t c g = some n ↔
      served t ∧ registry.step t g c = some n ∧
        ∃ rule ∈ rules, schema.compileTransition ⟨t, g, c, n⟩ = .ok rule := by
  constructor
  · intro h
    obtain ⟨found, hf, hw⟩ := Option.bind_eq_some_iff.mp h
    obtain ⟨hm, ht, hk⟩ := RuleSet.lookup_eq_some hf
    obtain ⟨m, hserved, hstep, hc⟩ := hs.step_of_hit hr hm ht hk
    obtain ⟨_, _, hwritten⟩ := compileTransition_eq_ok hc
    obtain rfl : m = n := Option.some.inj (hwritten.symm.trans hw)
    exact ⟨hserved, hstep, found, hm, hc⟩
  · rintro ⟨_, hstep, rule, hin, hc⟩
    obtain ⟨htable, hterms, _⟩ := compileTransition_eq_ok hc
    obtain ⟨found, hf⟩ := RuleSet.exists_lookup_eq_some (s := ⟨rules⟩) hin htable
      (Rule.matchesKey_of_entries hterms)
    -- Another rule may have been found, but it comes from the same edge.
    obtain ⟨hm, ht, hk⟩ := RuleSet.lookup_eq_some hf
    obtain ⟨m, _, hstep', hc'⟩ := hs.step_of_hit hr hm ht hk
    obtain rfl : n = m := Option.some.inj (hstep.symm.trans hstep')
    obtain ⟨_, _, hwritten⟩ := compileTransition_eq_ok hc'
    exact Option.bind_eq_some_iff.mpr ⟨found, hf, hwritten⟩

end Serves

theorem serves_of_perm
    (hp : rules.Perm (compiled (targets.flatMap (schema.serviceResults registry)))) :
    schema.Serves registry (· ∈ targets) rules := by
  intro rule hm
  obtain ⟨u, hu, hrule⟩ := mem_compiled_services.mp (hp.mem_iff.mp hm)
  exact .inr ⟨u, hu, ok_mem_serviceResults.mpr hrule⟩

theorem transfer_eq_some_iff (hr : registry.WellFormed)
    (hp : rules.Perm (compiled (targets.flatMap (schema.serviceResults registry))))
    {t : TargetId} {c n : StateId} {g : Trigger} :
    (RuleSet.mk rules).transfer t c g = some n ↔
      t ∈ targets ∧ registry.step t g c = some n ∧
        ∃ rule, schema.compileTransition ⟨t, g, c, n⟩ = .ok rule := by
  rw [(serves_of_perm hp).transfer_eq_some_iff hr]
  constructor
  · rintro ⟨ht, hstep, rule, _, hc⟩
    exact ⟨ht, hstep, rule, hc⟩
  · rintro ⟨ht, hstep, rule, hc⟩
    refine ⟨ht, hstep, rule, hp.mem_iff.mpr ?_, hc⟩
    exact mem_compiled_services.mpr ⟨t, ht, .inr ⟨_, hr.step_eq_some_iff.mp hstep, hc⟩⟩

/-- Where every edge of a listed target compiles, the table takes the steps of its automaton. -/
theorem transfer_eq_step (hr : registry.WellFormed)
    (hp : rules.Perm (compiled (targets.flatMap (schema.serviceResults registry))))
    {t : TargetId} (ht : t ∈ targets)
    (hc : ∀ e ∈ registry.transitionsFor t, ∃ rule, schema.compileTransition e = .ok rule)
    (c : StateId) (g : Trigger) :
    (RuleSet.mk rules).transfer t c g = registry.step t g c := by
  apply Option.ext
  intro n
  rw [transfer_eq_some_iff hr hp]
  constructor
  · intro h
    exact h.2.1
  · intro h
    exact ⟨ht, h, hc _ (hr.step_eq_some_iff.mp h)⟩

theorem run_eq_walk {s : RuleSet} {t : TargetId}
    (h : ∀ c g, s.transfer t c g = registry.step t g c) (start : StateId)
    (triggers : List Trigger) : s.run t start triggers = registry.walk t start triggers := by
  induction triggers generalizing start with
  | nil => rfl
  | cons g gs ih =>
    have ha : s.advance t start g = (registry.step t g start).getD start := by
      rw [RuleSet.advance, h]
    rw [RuleSet.run, Registry.walk, ha, ih]

/-- Compiled together and installed in any order, targets move along the edges that compile. -/
theorem compiled_transfer_refines_automaton (schema : Schema) (registry : Registry)
    (hr : registry.Reachable) (targets : List TargetId)
    (ht : ∀ t ∈ targets, (registry.target? t).isSome) :
    ∃ results, schema.compileServices registry targets = .ok results ∧
      ∀ rules : List Rule, rules.Perm (compiled results) →
        (∀ t c g n, (RuleSet.mk rules).transfer t c g = some n ↔
          t ∈ targets ∧ registry.step t g c = some n ∧
            ∃ rule, schema.compileTransition ⟨t, g, c, n⟩ = .ok rule) ∧
        ∀ t ∈ targets, ∀ own, schema.compileService registry t = .ok own →
          (∀ result ∈ own, ∃ rule, result = .ok rule) →
          ∀ start triggers,
            (RuleSet.mk rules).run t start triggers = registry.walk t start triggers := by
  refine ⟨_, compileServices_eq_ok ht, fun rules hp => ⟨?_, ?_⟩⟩
  · intro t c g n
    exact transfer_eq_some_iff hr.wellFormed hp
  · intro t htm own hown hok start triggers
    obtain ⟨_, rfl⟩ := compileService_eq_ok_iff.mp hown
    have hc : ∀ e ∈ registry.transitionsFor t, ∃ rule, schema.compileTransition e = .ok rule := by
      intro e he
      exact hok _ (List.mem_append_right _ (List.mem_map_of_mem he))
    exact run_eq_walk (transfer_eq_step hr.wellFormed hp htm hc) start triggers

/-- Signed metadata fields, and room for four states only. -/
def narrowStates : Schema :=
  accept
    [.field (FieldRef.metadata Name.targetId) ⟨3, true⟩,
      .field (FieldRef.metadata Name.curState) ⟨2, false⟩,
      .field (FieldRef.metadata Name.nextState) ⟨8, false⟩,
      .field (FieldRef.metadata Name.trigger) ⟨16, true⟩,
      .action ⟨Name.stateTransfer, [⟨Name.nextState, 8⟩]⟩]

/-- The firewall's edge out of its fifth state has no rule here; those before it, and the balancer
as a whole, run as registered. -/
theorem narrowStates_transfer :
    Registry.defaults.Reachable ∧
      (∀ t ∈ ([2, 1, 2] : List TargetId), (Registry.defaults.target? t).isSome) ∧
      ∃ results, narrowStates.compileServices Registry.defaults [2, 1, 2] = .ok results ∧
        ∀ rules : List Rule, rules.Perm (compiled results) →
          (RuleSet.mk rules).transfer 1 0 2 = some 1 ∧
            (RuleSet.mk rules).transfer 1 4 17 = none ∧
            (RuleSet.mk rules).run 2 0 [0, 7, 0, 0] = [1, 1, 2, 1] := by
  have hr : Registry.defaults.Reachable := ⟨[.installFirewall, .installBalancer], rfl⟩
  have hbalancer : (Registry.defaults.target? 2).isSome := by decide
  have hfirewall : (Registry.defaults.target? 1).isSome := by decide
  have ht : ∀ t ∈ ([2, 1, 2] : List TargetId), (Registry.defaults.target? t).isSome := by
    intro t ht
    simp only [List.mem_cons, List.not_mem_nil, or_false] at ht
    rcases ht with rfl | rfl | rfl
    · exact hbalancer
    · exact hfirewall
    · exact hbalancer
  refine ⟨hr, ht, ?_⟩
  obtain ⟨results, hresults, hrules⟩ :=
    compiled_transfer_refines_automaton narrowStates Registry.defaults hr [2, 1, 2] ht
  refine ⟨results, hresults, fun rules hp => ?_⟩
  obtain ⟨htransfer, hrun⟩ := hrules rules hp
  refine ⟨(htransfer 1 0 2 1).mpr ⟨by decide, by decide, _, rfl⟩, ?_, ?_⟩
  · apply Option.eq_none_iff_forall_ne_some.mpr
    intro n hn
    obtain ⟨_, hstep, rule, hc⟩ := (htransfer 1 4 17 n).mp hn
    have hn5 : Registry.defaults.step 1 17 4 = some 5 := by decide
    obtain rfl : 5 = n := Option.some.inj (hn5.symm.trans hstep)
    exact absurd hc (by intro h; cases h)
  · refine (hrun 2 (by decide) _ rfl ?_ 0 [0, 7, 0, 0]).trans (by decide)
    intro result hresult
    have hall : ∀ x ∈ narrowStates.serviceResults Registry.defaults 2, x.toOption.isSome := by
      decide
    cases result with
    | error e => exact absurd (hall _ hresult) (by simp [Except.toOption])
    | ok rule => exact ⟨rule, rfl⟩

end Schema
end StatefulPipeline
