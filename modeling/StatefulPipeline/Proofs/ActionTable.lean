import StatefulPipeline.Proofs.DeviceAutomata
import StatefulPipeline.Proofs.SchemaBuilding

/-! The action table holds the decisions of the registry. Where the schema has room for a target
and a state, the decision that is bound to them has a rule, and no other rule answers to their key;
where it has no room for one of them there is no rule. Targets may share state numbers: a rule asks
for its target as well. -/

namespace StatefulPipeline

instance (signed : Bool) (value : Int) (width : Nat) :
    Decidable (Encoded.InRange signed value width) :=
  inferInstanceAs (Decidable (ite _ _ _))

namespace Schema

variable {schema : Schema}

/-- The schema declares the field, with a width and a sign that admit the value. -/
def HasRoom (schema : Schema) (field : FieldRef) (value : Int) : Prop :=
  ∃ spec ∈ schema.fields.get? field, Encoded.InRange spec.signed value spec.width.toNat

instance (field : FieldRef) (value : Int) : Decidable (schema.HasRoom field value) :=
  inferInstanceAs (Decidable (∃ spec ∈ schema.fields.get? field, _))

theorem field_eq_ok_iff {field : FieldRef} {spec : FieldSpec} :
    schema.field field = .ok spec ↔ schema.fields.get? field = some spec := by
  unfold Schema.field
  cases schema.fields.get? field with
  | none => simp
  | some spec' => simp

theorem WellFormed.exists_exact_iff (h : schema.WellFormed) {field : FieldRef} {value : Int} :
    (∃ m, schema.exact field value = .ok m) ↔ schema.HasRoom field value := by
  constructor
  · rintro ⟨m, hm⟩
    obtain ⟨_, spec, hspec, hfit⟩ := exact_eq_ok_iff.mp hm
    exact ⟨spec, field_eq_ok_iff.mp hspec, (Encoded.fitAs_eq_ok_iff.mp hfit).2.1⟩
  · rintro ⟨spec, hspec, hrange⟩
    have hwidth := h.fields _ (SortedMap.get?_eq_some_iff.mp hspec)
    have hfit := Encoded.fitAs_eq_ok_iff.mpr ⟨hwidth, hrange, rfl⟩
    exact ⟨⟨field, _⟩, exact_eq_ok_iff.mpr ⟨rfl, spec, field_eq_ok_iff.mpr hspec, hfit⟩⟩

theorem exists_exactAll_iff {terms : List (FieldRef × Int)} :
    (∃ ms, schema.exactAll terms = .ok ms) ↔
      ∀ t ∈ terms, ∃ m, schema.exact t.1 t.2 = .ok m := by
  constructor
  · rintro ⟨ms, hms⟩ t ht
    obtain ⟨m, _, hm⟩ := (exactAll_covers hms).1 t ht
    exact ⟨m, hm⟩
  · intro h
    induction terms with
    | nil => exact ⟨[], rfl⟩
    | cons t ts ih =>
      obtain ⟨ht, hts⟩ := List.forall_mem_cons.mp h
      obtain ⟨m, hm⟩ := ht
      obtain ⟨ms, hms⟩ := ih hts
      exact ⟨m :: ms, by simp [exactAll, hm, hms]⟩

/-- The schema can tell the state of the target from all others. -/
def HoldsState (schema : Schema) (target : TargetId) (state : StateId) : Prop :=
  schema.HasRoom (FieldRef.metadata Name.targetId) target.toNat ∧
    schema.HasRoom (FieldRef.metadata Name.nextState) state.toNat

instance (target : TargetId) (state : StateId) : Decidable (schema.HoldsState target state) :=
  inferInstanceAs (Decidable (_ ∧ _))

/-- Whether a decision has a rule depends on its target and state only. -/
theorem WellFormed.exists_compileAction_iff (h : schema.WellFormed) {b : ActionBinding} :
    (∃ rule, schema.compileAction b = .ok rule) ↔ schema.HoldsState b.target b.state := by
  have hterms := @exists_exactAll_iff schema
    [(FieldRef.metadata Name.targetId, b.target.toNat),
      (FieldRef.metadata Name.nextState, b.state.toNat)]
  simp only [List.forall_mem_cons, h.exists_exact_iff, List.not_mem_nil, false_implies,
    implies_true, and_true] at hterms
  rw [HoldsState, ← hterms, compileAction]
  cases schema.exactAll _ with
  | error e => simp
  | ok ms => simp

theorem matchesKey_action_iff {b : ActionBinding} {rule : Rule}
    (h : schema.compileAction b = .ok rule) {t : TargetId} {s : StateId} :
    rule.matchesKey (RuleSet.actionKey t s) = true ↔ b.target = t ∧ b.state = s := by
  obtain ⟨_, hterms, _⟩ := compileAction_eq_ok h
  rw [Rule.matchesKey_iff_subset, hterms, RuleSet.actionKey_subset_iff]

section Listed

variable {registry : Registry} {targets : List TargetId} {rules : List Rule}
  (hp : rules.Perm (compiled (targets.flatMap (schema.serviceResults registry))))
include hp

/-- A decision of a listed target is carried out exactly where the schema has room for it. -/
theorem WellFormed.actionFor_eq (h : schema.WellFormed) (t : TargetId) (s : StateId) :
    (RuleSet.mk rules).actionFor t s =
      if t ∈ targets ∧ schema.HoldsState t s then (registry.decision? t s).map schema.actionOf
      else none := by
  apply Option.ext
  intro a
  rw [(serves_of_perm hp).actionFor_eq_some_iff, Option.ite_none_right_eq_some,
    Option.map_eq_some_iff]
  constructor
  · rintro ⟨ht, decision, hdecision, ha, rule, _, hc⟩
    have hholds : schema.HoldsState t s := h.exists_compileAction_iff.mp ⟨rule, hc⟩
    exact ⟨⟨ht, hholds⟩, decision, hdecision, ha.symm⟩
  · rintro ⟨⟨ht, hholds⟩, decision, hdecision, ha⟩
    have hbound : ⟨t, s, decision⟩ ∈ registry.actionsFor t :=
      Registry.mem_actionsFor.mpr ⟨rfl, hdecision⟩
    obtain ⟨rule, hc⟩ := (@WellFormed.exists_compileAction_iff _ h ⟨t, s, decision⟩).mpr hholds
    have hm : rule ∈ rules :=
      hp.mem_iff.mpr (mem_compiled_services.mpr ⟨t, ht, .inl ⟨_, hbound, hc⟩⟩)
    exact ⟨ht, decision, hdecision, ha.symm, rule, hm, hc⟩

theorem decision_of_lookup {t : TargetId} {s : StateId} {rule : Rule}
    (hl : (RuleSet.mk rules).lookup .action (RuleSet.actionKey t s) = some rule) :
    ∃ decision, registry.decision? t s = some decision ∧
      schema.compileAction ⟨t, s, decision⟩ = .ok rule := by
  obtain ⟨hm, htable, hk⟩ := RuleSet.lookup_eq_some hl
  obtain ⟨decision, _, hdecision, hc⟩ := (serves_of_perm hp).decision_of_hit hm htable hk
  exact ⟨decision, hdecision, hc⟩

end Listed

/-- Compiled together and installed in any order, targets run their own decisions and no others. -/
theorem action_table_runs_bound_decisions (schema : Schema) (hs : schema.Reachable)
    (registry : Registry) (targets : List TargetId)
    (ht : ∀ t ∈ targets, (registry.target? t).isSome) :
    ∃ results, schema.compileServices registry targets = .ok results ∧
      ∀ rules : List Rule, rules.Perm (compiled results) →
        (∀ t s, (RuleSet.mk rules).actionFor t s =
          if t ∈ targets ∧ schema.HoldsState t s then
            (registry.decision? t s).map schema.actionOf
          else none) ∧
        (∀ t s rule, (RuleSet.mk rules).lookup .action (RuleSet.actionKey t s) = some rule →
          ∃ decision, registry.decision? t s = some decision ∧
            schema.compileAction ⟨t, s, decision⟩ = .ok rule) ∧
        ∀ t u s decision rule, t ≠ u → schema.compileAction ⟨u, s, decision⟩ = .ok rule →
          rule.matchesKey (RuleSet.actionKey t s) = false := by
  refine ⟨_, compileServices_eq_ok ht, fun rules hp => ⟨?_, ?_, ?_⟩⟩
  · intro t s
    exact hs.wellFormed.actionFor_eq hp t s
  · intro t s rule hl
    exact decision_of_lookup hp hl
  · intro t u s decision rule hne hc
    rw [Bool.eq_false_iff]
    intro hk
    exact hne ((matchesKey_action_iff hc).mp hk).1.symm

/-- Signed metadata with room for the states 0 and 1 only, and four ports. -/
def twoStates : Schema :=
  accept
    [.field (FieldRef.metadata Name.targetId) ⟨3, true⟩,
      .field (FieldRef.metadata Name.nextState) ⟨2, true⟩,
      .action ⟨Name.forward, [⟨Name.port, 2⟩]⟩]

/-- Both services decide in state 1, and the balancer's first state has a port that is too wide. -/
def contestedStates : Registry :=
  Registry.after [.installFirewall, .installBalancer, .edit (.bind 1 1 .sendToController),
    .edit (.bind 2 0 (.outputPort 9))]

/-- State 1 answers for each service with its own decision; the wide port is a drop, and state 2 is
bound but has no rule. -/
theorem contestedStates_actions :
    twoStates.Reachable ∧
      (∀ t ∈ ([2, 1, 2] : List TargetId), (contestedStates.target? t).isSome) ∧
      contestedStates.decision? 2 2 = some (.outputPort 3) ∧
      ∃ results, twoStates.compileServices contestedStates [2, 1, 2] = .ok results ∧
        ∀ rules : List Rule, rules.Perm (compiled results) →
          (RuleSet.mk rules).actionFor 1 1 = some (.named Name.sendToCpu) ∧
            (RuleSet.mk rules).actionFor 2 1 = some ⟨Name.forward, [⟨Name.port, ⟨[2]⟩⟩]⟩ ∧
            (RuleSet.mk rules).actionFor 2 0 = some (.named Name.drop) ∧
            (RuleSet.mk rules).actionFor 2 2 = none := by
  have hs : twoStates.Reachable := ⟨_, rfl⟩
  have hbalancer : (contestedStates.target? 2).isSome := by decide
  have hfirewall : (contestedStates.target? 1).isSome := by decide
  have ht : ∀ t ∈ ([2, 1, 2] : List TargetId), (contestedStates.target? t).isSome := by
    simp only [List.forall_mem_cons]
    exact ⟨hbalancer, hfirewall, hbalancer, by simp⟩
  refine ⟨hs, ht, by decide, ?_⟩
  obtain ⟨results, hresults, hrules⟩ :=
    action_table_runs_bound_decisions twoStates hs contestedStates [2, 1, 2] ht
  refine ⟨results, hresults, fun rules hp => ?_⟩
  obtain ⟨hactions, _⟩ := hrules rules hp
  exact ⟨(hactions 1 1).trans (by decide), (hactions 2 1).trans (by decide),
    (hactions 2 0).trans (by decide), (hactions 2 2).trans (by decide)⟩

end Schema
end StatefulPipeline
