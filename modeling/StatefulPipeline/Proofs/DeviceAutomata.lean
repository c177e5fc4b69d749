import StatefulPipeline.Proofs.Installation
import StatefulPipeline.Proofs.StateTransfer

/-! What a device runs is the registered automata, along every run of a controller. A device holds
rules of bound flows and of the services that were started on it, and what it holds stays; so a
rule that is missing can make it do less than its automata, and nothing can make it do other than
they do. After a start whose report has no failures no rule of the service is missing. -/

namespace StatefulPipeline

theorem RuleSet.actionKey_subset_iff {t t' : TargetId} {s s' : StateId} :
    actionKey t s ⊆ actionKey t' s' ↔ t = t' ∧ s = s' := by
  simp [actionKey, FieldRef.metadata, Name.targetId, Name.nextState, UInt8.toNat_inj,
    UInt16.toNat_inj]

namespace Schema.Serves

variable {schema : Schema} {registry : Registry} {served : TargetId → Prop} {rules : List Rule}
  {t : TargetId} {s : StateId}

theorem decision_of_hit (hs : schema.Serves registry served rules) {rule : Rule}
    (hm : rule ∈ rules) (ht : rule.table = .action)
    (hk : rule.matchesKey (RuleSet.actionKey t s) = true) :
    ∃ decision, served t ∧ registry.decision? t s = some decision ∧
      schema.compileAction ⟨t, s, decision⟩ = .ok rule := by
  rcases hs rule hm with hf | ⟨u, hu, hrule⟩
  · rw [Rule.OfFlow, ht] at hf
    exact absurd hf (by decide)
  · rcases ok_mem_serviceResults.mp hrule with ⟨b, hb, hc⟩ | ⟨e, _, he⟩
    · obtain ⟨_, hterms, _⟩ := compileAction_eq_ok hc
      rw [Rule.matchesKey_iff_subset, hterms, RuleSet.actionKey_subset_iff] at hk
      obtain ⟨rfl, rfl⟩ := hk
      obtain ⟨rfl, hdecision⟩ := Registry.mem_actionsFor.mp hb
      exact ⟨b.decision, hu, hdecision, hc⟩
    · rw [(compileTransition_eq_ok he).1] at ht
      exact absurd ht (by decide)

/-- The table runs an action exactly if a served target takes its decision and the rule of the
decision is among the rules. -/
theorem actionFor_eq_some_iff (hs : schema.Serves registry served rules) {a : Action} :
    (RuleSet.mk rules).actionFor t s = some a ↔
      served t ∧ ∃ decision, registry.decision? t s = some decision ∧
        a = schema.actionOf decision ∧
        ∃ rule ∈ rules, schema.compileAction ⟨t, s, decision⟩ = .ok rule := by
  constructor
  · intro h
    obtain ⟨found, hf, ha⟩ := Option.map_eq_some_iff.mp h
    obtain ⟨hm, ht, hk⟩ := RuleSet.lookup_eq_some hf
    obtain ⟨decision, hserved, hdecision, hc⟩ := hs.decision_of_hit hm ht hk
    obtain ⟨_, _, haction⟩ := compileAction_eq_ok hc
    exact ⟨hserved, decision, hdecision, ha.symm.trans haction, found, hm, hc⟩
  · rintro ⟨_, decision, hdecision, rfl, rule, hin, hc⟩
    obtain ⟨htable, hterms, _⟩ := compileAction_eq_ok hc
    obtain ⟨found, hf⟩ := RuleSet.exists_lookup_eq_some (s := ⟨rules⟩) hin htable
      (Rule.matchesKey_of_entries hterms)
    -- Another rule may have been found, but it comes from the same decision.
    obtain ⟨hm, ht, hk⟩ := RuleSet.lookup_eq_some hf
    obtain ⟨decision', _, hdecision', hc'⟩ := hs.decision_of_hit hm ht hk
    obtain rfl : decision = decision' := Option.some.inj (hdecision.symm.trans hdecision')
    obtain ⟨_, _, haction⟩ := compileAction_eq_ok hc'
    exact Option.map_eq_some_iff.mpr ⟨found, hf, haction⟩

end Schema.Serves

namespace Controller

def starts (c : Controller) : List ControlRequest → List Start
  | [] => []
  | q :: qs => (c.start? q).toList ++ (c.handle q).1.starts qs

section Runs

variable (c : Controller) (requests : List ControlRequest) (t : TargetId) (d : DeviceId)

def StartedOn : Prop := ∃ s ∈ c.starts requests, s.target = t ∧ s.device = d

/-- The run starts the service of the target on the device, with a report without failures. -/
def CompletedOn : Prop :=
  ∃ s ∈ c.starts requests, s.target = t ∧ s.device = d ∧ s.report.isComplete = true

instance : Decidable (c.StartedOn requests t d) := inferInstanceAs (Decidable (∃ s ∈ _, _))

instance : Decidable (c.CompletedOn requests t d) := inferInstanceAs (Decidable (∃ s ∈ _, _))

def switchAfter : RuleSet := (c.run requests).1.fabric.ruleSet d

end Runs

variable {c : Controller} {q : ControlRequest} {requests : List ControlRequest} {t : TargetId}
  {d : DeviceId}

theorem Places.origin {added : List (DeviceId × Rule)} (h : c.Places q added) {rule : Rule}
    (hm : (d, rule) ∈ added) :
    rule.OfFlow ∨ ∃ s, c.start? q = some s ∧ s.device = d ∧
      .ok rule ∈ c.schema.serviceResults c.registry s.target := by
  cases h with
  | nothing => exact absurd hm List.not_mem_nil
  | @service s hs =>
    obtain ⟨r, hr, he⟩ := List.mem_map.mp hm
    obtain ⟨rfl, rfl⟩ := Prod.mk.inj he
    exact .inr ⟨s, hs, rfl, ok_mem_of_installed hs hr⟩
  | @flow _ _ _ _ rules _ _ _ _ hflow hsub =>
    obtain ⟨r, hr, he⟩ := List.mem_map.mp hm
    obtain ⟨rfl, rfl⟩ := Prod.mk.inj he
    have hr' : r ∈ rules := (Rule.sortForInstall_perm rules).mem_iff.mp (hsub.subset hr)
    exact .inl ((Schema.compileFlow_eq_ok hflow).2 r hr').1

/-- What is on a device after a run was there before, belongs to a flow, or to a service that the
run started there. -/
theorem origin_of_placed (requests : List ControlRequest) (c : Controller) {rule : Rule}
    (h : (d, rule) ∈ (c.run requests).1.fabric.placed) :
    (d, rule) ∈ c.fabric.placed ∨ rule.OfFlow ∨ ∃ s ∈ c.starts requests, s.device = d ∧
      .ok rule ∈ c.schema.serviceResults c.registry s.target := by
  induction requests generalizing c with
  | nil => exact .inl h
  | cons q qs ih =>
    rcases ih (c.handle q).1 h with h | h | ⟨s, hs, hd, hrule⟩
    · -- What the rest of the run did not bring was there after the first operation.
      obtain ⟨added, hplaced, hplaces⟩ := c.handle_places q
      rw [hplaced, List.mem_append] at h
      rcases h with h | h
      · exact .inl h
      · rcases hplaces.origin h with hf | ⟨s, hs, hd, hrule⟩
        · exact .inr (.inl hf)
        · exact .inr (.inr ⟨s, List.mem_append_left _ (Option.mem_toList.mpr hs), hd, hrule⟩)
    · exact .inr (.inl h)
    · obtain ⟨hschema, hregistry⟩ := c.handle_fixed q
      rw [hschema, hregistry] at hrule
      exact .inr (.inr ⟨s, List.mem_append_right _ hs, hd, hrule⟩)

theorem serves_startedOn (hempty : c.fabric.placed = []) (requests : List ControlRequest)
    (d : DeviceId) :
    c.schema.Serves c.registry (c.StartedOn requests · d)
      ((c.run requests).1.fabric.installed d) := by
  intro rule hm
  rcases origin_of_placed requests c (Fabric.mem_installed.mp hm) with h | h | ⟨s, hs, hd, hrule⟩
  · rw [hempty] at h
    exact absurd h List.not_mem_nil
  · exact .inl h
  · exact .inr ⟨s.target, ⟨s, hs, rfl, hd⟩, hrule⟩

theorem placed_subset_run (c : Controller) (requests : List ControlRequest) :
    c.fabric.placed ⊆ (c.run requests).1.fabric.placed := by
  refine run_preserves (P := fun c' => c.fabric.placed ⊆ c'.fabric.placed) ?_ requests c
    (List.Subset.refl _)
  intro c' q h
  obtain ⟨added, hplaced, _⟩ := c'.handle_places q
  rw [hplaced]
  exact List.subset_append_of_subset_left added h

theorem placed_of_complete {s : Start} (hs : c.start? q = some s)
    (hcomplete : s.report.isComplete = true) {result : Except CompileError Rule}
    (hm : result ∈ c.schema.serviceResults c.registry s.target) :
    ∃ rule, result = .ok rule ∧ (s.device, rule) ∈ (c.handle q).1.fabric.placed := by
  obtain ⟨hreport, hplaced⟩ := start?_eq_some hs
  have hfailures : s.report.failures = [] := by simpa [Report.isComplete] using hcomplete
  rw [hreport] at hfailures
  rw [Fabric.eq_installed_of_no_failures hfailures, ← hreport] at hm
  obtain ⟨rule, hr, rfl⟩ := List.mem_map.mp hm
  refine ⟨rule, rfl, ?_⟩
  rw [hplaced]
  exact List.mem_append_right _ (List.mem_map_of_mem hr)

/-- After a complete start every rule of the service is on the device, whatever came later. -/
theorem placed_of_complete_start (requests : List ControlRequest) (c : Controller) {s : Start}
    (hs : s ∈ c.starts requests) (hcomplete : s.report.isComplete = true)
    {result : Except CompileError Rule}
    (hm : result ∈ c.schema.serviceResults c.registry s.target) :
    ∃ rule, result = .ok rule ∧ (s.device, rule) ∈ (c.run requests).1.fabric.placed := by
  induction requests generalizing c with
  | nil => exact absurd hs List.not_mem_nil
  | cons q qs ih =>
    rcases List.mem_append.mp hs with hs | hs
    · obtain ⟨rule, rfl, hplaced⟩ := placed_of_complete (Option.mem_toList.mp hs) hcomplete hm
      exact ⟨rule, rfl, placed_subset_run (c.handle q).1 qs hplaced⟩
    · obtain ⟨hschema, hregistry⟩ := c.handle_fixed q
      rw [← hschema, ← hregistry] at hm
      exact ih (c.handle q).1 hs hm

namespace CompletedOn

theorem startedOn (h : c.CompletedOn requests t d) : c.StartedOn requests t d := by
  obtain ⟨s, hs, ht, hd, _⟩ := h
  exact ⟨s, hs, ht, hd⟩

theorem installed (h : c.CompletedOn requests t d) {result : Except CompileError Rule}
    (hm : result ∈ c.schema.serviceResults c.registry t) :
    ∃ rule, result = .ok rule ∧ rule ∈ (c.run requests).1.fabric.installed d := by
  obtain ⟨s, hs, rfl, rfl, hcomplete⟩ := h
  obtain ⟨rule, hrule, hplaced⟩ := placed_of_complete_start requests c hs hcomplete hm
  exact ⟨rule, hrule, Fabric.mem_installed.mpr hplaced⟩

end CompletedOn

section Complete

variable (hempty : c.fabric.placed = []) (h : c.CompletedOn requests t d)
include hempty h

theorem transfer_eq_step (hr : c.registry.WellFormed) (s : StateId) (g : Trigger) :
    (c.switchAfter requests d).transfer t s g = c.registry.step t g s := by
  apply Option.ext
  intro n
  rw [switchAfter, Fabric.ruleSet, (serves_startedOn hempty requests d).transfer_eq_some_iff hr]
  constructor
  · rintro ⟨_, hstep, _⟩
    exact hstep
  · intro hstep
    have hedge : ⟨t, g, s, n⟩ ∈ c.registry.transitionsFor t := hr.step_eq_some_iff.mp hstep
    obtain ⟨rule, hc, hm⟩ := h.installed (List.mem_append_right _ (List.mem_map_of_mem hedge))
    exact ⟨h.startedOn, hstep, rule, hm, hc⟩

theorem actionFor_eq_decision (s : StateId) :
    (c.switchAfter requests d).actionFor t s =
      (c.registry.decision? t s).map c.schema.actionOf := by
  apply Option.ext
  intro a
  rw [switchAfter, Fabric.ruleSet, (serves_startedOn hempty requests d).actionFor_eq_some_iff,
    Option.map_eq_some_iff]
  constructor
  · rintro ⟨_, decision, hdecision, ha, _⟩
    exact ⟨decision, hdecision, ha.symm⟩
  · rintro ⟨decision, hdecision, ha⟩
    have hbound : ⟨t, s, decision⟩ ∈ c.registry.actionsFor t :=
      Registry.mem_actionsFor.mpr ⟨rfl, hdecision⟩
    obtain ⟨rule, hc, hm⟩ := h.installed (List.mem_append_left _ (List.mem_map_of_mem hbound))
    exact ⟨h.startedOn, decision, hdecision, ha.symm, rule, hm, hc⟩

end Complete

/-- A device never strays from the registered automata, and follows them once a start was complete.
-/
theorem devices_run_registered_automata (c : Controller) (hempty : c.fabric.placed = [])
    (hr : c.registry.Reachable) (requests : List ControlRequest) (d : DeviceId) (t : TargetId) :
    (∀ s g n, (c.switchAfter requests d).transfer t s g = some n →
      c.registry.step t g s = some n) ∧
    (∀ s a, (c.switchAfter requests d).actionFor t s = some a →
      ∃ decision, c.registry.decision? t s = some decision ∧ a = c.schema.actionOf decision) ∧
    (¬ c.StartedOn requests t d →
      (∀ s g, (c.switchAfter requests d).transfer t s g = none) ∧
        ∀ s, (c.switchAfter requests d).actionFor t s = none) ∧
    (c.CompletedOn requests t d →
      (∀ s g, (c.switchAfter requests d).transfer t s g = c.registry.step t g s) ∧
        ∀ s, (c.switchAfter requests d).actionFor t s =
          (c.registry.decision? t s).map c.schema.actionOf) := by
  have hserves := serves_startedOn hempty requests d
  refine ⟨?_, ?_, ?_, ?_⟩
  · intro s g n h
    exact ((hserves.transfer_eq_some_iff hr.wellFormed).mp h).2.1
  · intro s a h
    obtain ⟨_, decision, hdecision, ha, _⟩ := hserves.actionFor_eq_some_iff.mp h
    exact ⟨decision, hdecision, ha⟩
  · intro hnever
    constructor
    · intro s g
      refine Option.eq_none_iff_forall_ne_some.mpr fun n h => hnever ?_
      exact ((hserves.transfer_eq_some_iff hr.wellFormed).mp h).1
    · intro s
      refine Option.eq_none_iff_forall_ne_some.mpr fun a h => hnever ?_
      exact (hserves.actionFor_eq_some_iff.mp h).1
  · intro hcomplete
    exact ⟨transfer_eq_step hempty hcomplete hr.wellFormed, actionFor_eq_decision hempty hcomplete⟩

/-- Automaton metadata with room for four states, and flows by their port. -/
def fourStates : Schema :=
  Schema.accept
    [.field (FieldRef.metadata Name.targetId) ⟨8, false⟩,
      .field (FieldRef.metadata Name.curState) ⟨2, false⟩,
      .field (FieldRef.metadata Name.nextState) ⟨8, false⟩,
      .field (FieldRef.metadata Name.trigger) ⟨16, true⟩,
      .field ⟨"standard_metadata", "ingress_port"⟩ ⟨9, false⟩,
      .action ⟨Name.stateTransfer, [⟨Name.nextState, 8⟩]⟩,
      .action ⟨Name.lookupByNothing, [⟨Name.targetId, 8⟩, ⟨Name.registerId, 4⟩]⟩]

/-- The balancer is complete on the first device and gets a flow there. The second device becomes
the default and its action table fails; so both services are incomplete there, and the firewall
has edges for which there is no room. -/
def movedServices : List ControlRequest :=
  [.start "slb", .bind ⟨"slb", none, ⟨[.inPort 3]⟩, some 2⟩, .deviceInitialized "s2#1",
    .failTable .action, .start "sfw", .stop "slb", .start "slb"]

def twoSwitches : Controller := new fourStates Registry.defaults ["s1#0", "s2#1"]

theorem movedServices_run :
    twoSwitches.fabric.placed = [] ∧ twoSwitches.registry.Reachable ∧
      twoSwitches.CompletedOn movedServices 2 "s1#0" ∧
      ¬ twoSwitches.StartedOn movedServices 1 "s1#0" ∧
      twoSwitches.StartedOn movedServices 2 "s2#1" ∧
      ¬ twoSwitches.CompletedOn movedServices 2 "s2#1" ∧
      (∀ s g, (twoSwitches.switchAfter movedServices "s1#0").transfer 2 s g =
        twoSwitches.registry.step 2 g s) ∧
      (∀ s g, (twoSwitches.switchAfter movedServices "s1#0").transfer 1 s g = none) ∧
      ∀ n, (twoSwitches.switchAfter movedServices "s2#1").transfer 1 0 2 = some n → n = 1 := by
  have hempty : twoSwitches.fabric.placed = [] := rfl
  have hr : twoSwitches.registry.Reachable := ⟨[.installFirewall, .installBalancer], rfl⟩
  have hcomplete : twoSwitches.CompletedOn movedServices 2 "s1#0" := by decide
  have hnever : ¬ twoSwitches.StartedOn movedServices 1 "s1#0" := by decide
  obtain ⟨_, _, _, hbalancer⟩ :=
    devices_run_registered_automata twoSwitches hempty hr movedServices "s1#0" 2
  obtain ⟨_, _, hnone, _⟩ :=
    devices_run_registered_automata twoSwitches hempty hr movedServices "s1#0" 1
  obtain ⟨hfirewall, _⟩ :=
    devices_run_registered_automata twoSwitches hempty hr movedServices "s2#1" 1
  refine ⟨hempty, hr, hcomplete, hnever, by decide, by decide, (hbalancer hcomplete).1,
    (hnone hnever).1, ?_⟩
  intro n hn
  have hstep : twoSwitches.registry.step 1 2 0 = some 1 := by decide
  exact Option.some.inj ((hfirewall 0 2 n hn).symm.trans hstep)

end Controller
end StatefulPipeline
