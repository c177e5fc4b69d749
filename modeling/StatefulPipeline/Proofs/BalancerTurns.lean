import StatefulPipeline.Proofs.CompileConditions
import StatefulPipeline.Proofs.FirewallPhases

/-! The compiled load balancer takes turns. Its only trigger is the one that every packet carries,
so its state depends on nothing but how many packets have come: the first one moves it off its
start, and each later one to the other of two states, which send traffic to different ports. Other
triggers in between leave it where it is, and the firewall, which has states of the same numbers,
does not interfere. -/

namespace StatefulPipeline

namespace RuleSet

/-- The state of a target tells how often a trigger has come, as `phase` has it. -/
def Tallies (s : RuleSet) (t : TargetId) (trigger : Trigger) (phase : Nat → StateId) : Prop :=
  ∀ k g, s.advance t (phase k) g = if g = trigger then phase (k + 1) else phase k

/-- Along a run the states, that of the start first, are the phases of the prefixes. -/
theorem Tallies.run_eq {s : RuleSet} {t : TargetId} {trigger : Trigger} {phase : Nat → StateId}
    (h : s.Tallies t trigger phase) (k : Nat) (triggers : List Trigger) :
    phase k :: s.run t (phase k) triggers =
      triggers.inits.map fun before => phase (k + before.count trigger) := by
  induction triggers generalizing k with
  | nil => simp [run]
  | cons g gs ih =>
    rw [run, h k g, List.inits_cons, List.map_cons, List.map_map]
    split_ifs with hg
    · rw [ih (k + 1)]
      simp [Function.comp_def, hg, Nat.add_assoc, Nat.add_comm 1]
    · rw [ih k]
      simp [Function.comp_def, List.count_cons_of_ne hg]

end RuleSet

namespace Balancer

def turn (packets : Nat) : StateId :=
  if packets = 0 then 0 else if packets % 2 = 1 then 1 else 2

theorem edges_on_packet : ∀ e ∈ Registry.defaults.transitionsFor target.id, e.trigger = packet := by
  decide

theorem step_packet :
    Registry.defaults.step target.id packet 0 = some 1 ∧
      Registry.defaults.step target.id packet 1 = some 2 ∧
      Registry.defaults.step target.id packet 2 = some 1 := by
  decide

theorem step_turn (k : Nat) :
    Registry.defaults.step target.id packet (turn k) = some (turn (k + 1)) := by
  obtain ⟨hfirst, hodd, heven⟩ := step_packet
  rcases Nat.eq_zero_or_pos k with rfl | hk
  · exact hfirst
  · rcases Nat.mod_two_eq_zero_or_one k with hmod | hmod
    · have hnext : (k + 1) % 2 = 1 := by omega
      simp [turn, Nat.ne_of_gt hk, hmod, hnext, heven]
    · have hnext : (k + 1) % 2 = 0 := by omega
      simp [turn, Nat.ne_of_gt hk, hmod, hnext, hodd]

theorem step_of_ne_packet {g : Trigger} (hg : g ≠ packet) (c : StateId) :
    Registry.defaults.step target.id g c = none := by
  cases hs : Registry.defaults.step target.id g c with
  | none => rfl
  | some n =>
    have he := Registry.defaults_reachable.wellFormed.step_eq_some_iff.mp hs
    exact absurd (edges_on_packet _ he) hg

theorem stateful_holdsState :
    Schema.stateful.HoldsState target.id 0 ∧ Schema.stateful.HoldsState target.id 1 ∧
      Schema.stateful.HoldsState target.id 2 := by
  decide +kernel

theorem stateful_hasPortRoom :
    Schema.stateful.HasParamRoom Name.forward Name.port (2 : Port).toNat ∧
      Schema.stateful.HasParamRoom Name.forward Name.port (3 : Port).toNat := by
  decide +kernel

section Installed

variable {targets : List TargetId} {rules : List Rule} (hb : target.id ∈ targets)
  (hp : rules.Perm (Schema.compiled
    (targets.flatMap (Schema.stateful.serviceResults Registry.defaults))))
include hb hp

theorem tallies_packets : (RuleSet.mk rules).Tallies target.id packet turn := by
  intro k g
  rw [RuleSet.advance, Schema.stateful_transfer_eq_step hp hb]
  split_ifs with hg
  · rw [hg, step_turn, Option.getD_some]
  · rw [step_of_ne_packet hg, Option.getD_none]

theorem actionFor_of_decision {s : StateId} {decision : Decision}
    (hs : Schema.stateful.HoldsState target.id s)
    (hd : Registry.defaults.decision? target.id s = some decision) :
    (RuleSet.mk rules).actionFor target.id s = some (Schema.stateful.actionOf decision) := by
  rw [(Schema.accept_wellFormed _).actionFor_eq hp, hd]
  exact if_pos ⟨hb, hs⟩

end Installed

/-- In whatever company the balancer is installed, its packets alternate between port 2 and port 3.
-/
theorem balancer_alternates_strictly (targets : List TargetId) (hb : target.id ∈ targets)
    (ht : ∀ t ∈ targets, (Registry.defaults.target? t).isSome) :
    ∃ results, Schema.stateful.compileServices Registry.defaults targets = .ok results ∧
      ∀ rules : List Rule, rules.Perm (Schema.compiled results) →
        (∀ triggers, 0 :: (RuleSet.mk rules).run target.id 0 triggers =
          triggers.inits.map fun before => turn (before.count packet)) ∧
        (RuleSet.mk rules).actionFor target.id 0 = some (.named Name.drop) ∧
        (∃ e, (RuleSet.mk rules).actionFor target.id 1 =
          some ⟨Name.forward, [⟨Name.port, e⟩]⟩ ∧ e.toNat = 2) ∧
        ∃ e, (RuleSet.mk rules).actionFor target.id 2 =
          some ⟨Name.forward, [⟨Name.port, e⟩]⟩ ∧ e.toNat = 3 := by
  refine ⟨_, Schema.compileServices_eq_ok ht, fun rules hp => ?_⟩
  have hw : Schema.stateful.WellFormed := Schema.accept_wellFormed _
  obtain ⟨hstart, hfirst, hsecond⟩ := stateful_holdsState
  obtain ⟨htwo, hthree⟩ := stateful_hasPortRoom
  refine ⟨?_, ?_, ?_, ?_⟩
  · intro triggers
    simpa [turn] using (tallies_packets hb hp).run_eq 0 triggers
  · exact actionFor_of_decision hb hp hstart rfl
  · obtain ⟨e, he, hport⟩ := hw.forwardTo_of_room htwo
    exact ⟨e, (actionFor_of_decision hb hp hfirst rfl).trans (congrArg some he), hport⟩
  · obtain ⟨e, he, hport⟩ := hw.forwardTo_of_room hthree
    exact ⟨e, (actionFor_of_decision hb hp hsecond rfl).trans (congrArg some he), hport⟩

/-- Between the rules of the firewall, installed twice, with a trigger of no packet at the start and
the SYN of a connection in between. -/
theorem interleaved_turns :
    target.id ∈ ([1, 2, 1] : List TargetId) ∧
      (∀ t ∈ ([1, 2, 1] : List TargetId), (Registry.defaults.target? t).isSome) ∧
      ∃ results, Schema.stateful.compileServices Registry.defaults [1, 2, 1] = .ok results ∧
        ∀ rules : List Rule, rules.Perm (Schema.compiled results) →
          (RuleSet.mk rules).run target.id 0 [7, packet, TcpFlag.syn, packet, packet] =
            [0, 1, 1, 2, 1] := by
  have hb : target.id ∈ ([1, 2, 1] : List TargetId) := by decide
  have hbalancer : (Registry.defaults.target? 2).isSome := by decide
  have hfirewall : (Registry.defaults.target? 1).isSome := by decide
  have ht : ∀ t ∈ ([1, 2, 1] : List TargetId), (Registry.defaults.target? t).isSome := by
    simp only [List.forall_mem_cons]
    exact ⟨hfirewall, hbalancer, hfirewall, by simp⟩
  refine ⟨hb, ht, ?_⟩
  obtain ⟨results, hresults, hrules⟩ := balancer_alternates_strictly [1, 2, 1] hb ht
  refine ⟨results, hresults, fun rules hp => ?_⟩
  have hrun := (hrules rules hp).1 [7, packet, TcpFlag.syn, packet, packet]
  have hphases : [7, packet, TcpFlag.syn, packet, packet].inits.map
      (fun before => turn (before.count packet)) = [0, 0, 1, 1, 2, 1] := by decide
  exact (List.cons.inj (hrun.trans hphases)).2

end Balancer
end StatefulPipeline
