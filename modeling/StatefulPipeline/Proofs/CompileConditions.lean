import StatefulPipeline.Proofs.RegisterBounds

/-! When rules compile. A value compiles exactly if its field, or its parameter, is declared with
room for it, and the rules of a selector compile exactly if all their values do, with a criterion at
least and no field twice; a repeated field is found before any value is looked at. An output port is
the one value that cannot make a rule fail: where there is no room for it the traffic is dropped,
and never sent to another port. -/

namespace StatefulPipeline

def CompileCall.selector? : CompileCall → Option Selector
  | .lookup selector _ _ _ | .forward selector _ => some selector
  | .transition _ | .action _ => none

theorem ActionSpec.WellFormed.param?_eq_some_iff {spec : ActionSpec} (h : spec.WellFormed)
    {name : String} {p : ParamSpec} :
    spec.param? name = some p ↔ p ∈ spec.params ∧ p.name = name :=
  find?_key_eq_some_iff ParamSpec.name h.names

namespace Selector

theorem firstRepeated_append {seen before : List FieldRef} (h : firstRepeated seen before = none)
    (rest : List FieldRef) :
    firstRepeated seen (before ++ rest) = firstRepeated (before.reverse ++ seen) rest := by
  induction before generalizing seen with
  | nil => rfl
  | cons f before ih =>
    rw [firstRepeated] at h
    split_ifs at h with hf
    rw [List.cons_append, firstRepeated, if_neg hf, ih h, List.reverse_cons, List.append_assoc]
    rfl

theorem firstRepeated_eq_some_iff {seen fs : List FieldRef} {f : FieldRef} :
    firstRepeated seen fs = some f ↔
      ∃ before after, fs = before ++ f :: after ∧ firstRepeated seen before = none ∧
        (f ∈ before ∨ f ∈ seen) := by
  constructor
  · intro h
    induction fs generalizing seen with
    | nil => cases h
    | cons g fs ih =>
      rw [firstRepeated] at h
      split_ifs at h with hg
      · obtain rfl : g = f := Option.some.inj h
        exact ⟨[], fs, rfl, rfl, .inr hg⟩
      · obtain ⟨before, after, rfl, hnone, hf⟩ := ih h
        refine ⟨g :: before, after, rfl, by rw [firstRepeated, if_neg hg, hnone], ?_⟩
        simpa only [List.mem_cons, or_left_comm, or_assoc] using hf
  · rintro ⟨before, after, rfl, hnone, hf⟩
    rw [firstRepeated_append hnone, firstRepeated, if_pos]
    simpa using hf

/-- The criterion is the first whose field occurred earlier. -/
def RepeatsFirst (s : Selector) (c : Criterion) : Prop :=
  ∃ before after, s.criteria = before ++ c :: after ∧
    (before.map Criterion.ref).Nodup ∧ c.ref ∈ before.map Criterion.ref

theorem repeated?_eq_some_iff {s : Selector} {f : FieldRef} :
    s.repeated? = some f ↔ ∃ c, s.RepeatsFirst c ∧ c.ref = f := by
  rw [repeated?, firstRepeated_eq_some_iff]
  constructor
  · rintro ⟨before, after, hrefs, hnone, hf⟩
    obtain ⟨before, rest, hcriteria, rfl, hrest⟩ := List.map_eq_append_iff.mp hrefs
    obtain ⟨c, after, rfl, rfl, rfl⟩ := List.map_eq_cons_iff.mp hrest
    have hnodup := (firstRepeated_eq_none_iff.mp hnone).1
    exact ⟨c, ⟨before, after, hcriteria, hnodup, by simpa using hf⟩, rfl⟩
  · rintro ⟨c, ⟨before, after, hcriteria, hnodup, hc⟩, rfl⟩
    refine ⟨before.map Criterion.ref, after.map Criterion.ref, ?_, ?_, .inl hc⟩
    · rw [refs, hcriteria, List.map_append, List.map_cons]
    · exact firstRepeated_eq_none_iff.mpr ⟨hnodup, by simp⟩

end Selector

namespace Schema

variable {schema : Schema}

/-- The schema declares the parameter of the action, with a width that admits the value. -/
def HasParamRoom (schema : Schema) (action param : String) (value : Nat) : Prop :=
  ∃ spec ∈ schema.actions.get? action, ∃ p ∈ spec.params,
    p.name = param ∧ value < 2 ^ p.width.toNat

instance (action param : String) (value : Nat) :
    Decidable (schema.HasParamRoom action param value) :=
  inferInstanceAs (Decidable (∃ spec ∈ schema.actions.get? action, _))

theorem WellFormed.exists_param_iff (hw : schema.WellFormed) {action name : String} {value : Nat} :
    (∃ p, schema.param action name value = .ok p) ↔ schema.HasParamRoom action name value := by
  constructor
  · rintro ⟨p, hp⟩
    obtain ⟨_, width, hwidth, hfit⟩ := param_eq_ok_iff.mp hp
    have hlt := (Encoded.exists_fit_iff (hw.validWidth hwidth)).mp ⟨_, hfit⟩
    obtain ⟨spec, hspec, d, hd, hname, rfl⟩ := paramWidth_eq_ok hwidth
    exact ⟨spec, hspec, d, hd, hname, hlt⟩
  · rintro ⟨spec, hspec, d, hd, hname, hlt⟩
    have hform := hw.actions _ (SortedMap.get?_eq_some_iff.mp hspec)
    have hwidth : schema.paramWidth action name = .ok d.width := by
      simp only [paramWidth, action_eq_ok_iff.mpr hspec, hform.param?_eq_some_iff.mpr ⟨hd, hname⟩]
    obtain ⟨e, hfit⟩ := (Encoded.exists_fit_iff (hw.validWidth hwidth)).mpr hlt
    exact ⟨⟨name, e⟩, param_eq_ok_iff.mpr ⟨rfl, _, hwidth, hfit⟩⟩

section Forwarding

variable (hw : schema.WellFormed) {port : Port}
include hw

theorem WellFormed.forwardTo_of_room
    (h : schema.HasParamRoom Name.forward Name.port port.toNat) :
    ∃ e, schema.forwardTo port = ⟨Name.forward, [⟨Name.port, e⟩]⟩ ∧ e.toNat = port.toNat := by
  obtain ⟨⟨name, e⟩, hp⟩ := hw.exists_param_iff.mpr h
  obtain ⟨hname, width, _, hfit⟩ := param_eq_ok_iff.mp hp
  obtain rfl : name = Name.port := hname
  refine ⟨e, ?_, Encoded.toNat_of_fit_natCast hfit⟩
  rw [forwardTo_eq, hp]

theorem WellFormed.forwardTo_of_no_room
    (h : ¬ schema.HasParamRoom Name.forward Name.port port.toNat) :
    schema.forwardTo port = .named Name.drop := by
  rw [forwardTo_eq]
  cases hp : schema.param Name.forward Name.port port.toNat with
  | error e => rfl
  | ok p => exact absurd (hw.exists_param_iff.mp ⟨p, hp⟩) h

end Forwarding

/-- What is decided in a state counts for the action of its rule only. -/
theorem compileAction_decision (schema : Schema) (target : TargetId) (state : StateId) :
    (∃ e, ∀ decision, schema.compileAction ⟨target, state, decision⟩ = .error e) ∨
      ∃ terms, ∀ decision, schema.compileAction ⟨target, state, decision⟩ =
        .ok ⟨.action, terms, schema.actionOf decision, defaultPriority⟩ := by
  cases hterms : schema.exactAll
      [(FieldRef.metadata Name.targetId, target.toNat),
        (FieldRef.metadata Name.nextState, state.toNat)] with
  | error e => exact .inl ⟨e, fun decision => by simp only [compileAction, hterms]⟩
  | ok terms => exact .inr ⟨terms, fun decision => by simp only [compileAction, hterms]⟩

/-- A port that does not fit is a drop, and never the reason why a rule fails to compile. -/
theorem forwarding_falls_back_to_drop_only (schema : Schema) (h : schema.Reachable) :
    (∀ (port : Port) (rest : List Instruction),
      schema.actionOfTreatment (.output port :: rest) = schema.actionOf (.outputPort port) ∧
      (schema.HasParamRoom Name.forward Name.port port.toNat →
        ∃ e, schema.actionOf (.outputPort port) = ⟨Name.forward, [⟨Name.port, e⟩]⟩ ∧
          e.toNat = port.toNat) ∧
      (¬ schema.HasParamRoom Name.forward Name.port port.toNat →
        schema.actionOf (.outputPort port) = .named Name.drop)) ∧
    ∀ target state decision decision',
      (∃ e, schema.compileAction ⟨target, state, decision⟩ = .error e ∧
        schema.compileAction ⟨target, state, decision'⟩ = .error e) ∨
      ∃ rule rule', schema.compileAction ⟨target, state, decision⟩ = .ok rule ∧
        schema.compileAction ⟨target, state, decision'⟩ = .ok rule' ∧
        rule' = { rule with action := schema.actionOf decision' } := by
  have hw := h.wellFormed
  refine ⟨fun port rest => ⟨rfl, hw.forwardTo_of_room, hw.forwardTo_of_no_room⟩, ?_⟩
  intro target state decision decision'
  rcases schema.compileAction_decision target state with ⟨e, he⟩ | ⟨terms, hterms⟩
  · exact .inl ⟨e, he decision, he decision'⟩
  · exact .inr ⟨_, _, hterms decision, hterms decision', rfl⟩

theorem twoStates_forwarding :
    twoStates.Reachable ∧
      twoStates.HasParamRoom Name.forward Name.port (3 : Port).toNat ∧
      ¬ twoStates.HasParamRoom Name.forward Name.port (4 : Port).toNat ∧
      (∃ e, twoStates.actionOfTreatment [.output 3, .meter 1] =
        ⟨Name.forward, [⟨Name.port, e⟩]⟩ ∧ e.toNat = 3) ∧
      twoStates.actionOf (.outputPort 4) = .named Name.drop ∧
      ∃ e, twoStates.compileAction ⟨1, 2, .drop⟩ = .error e ∧
        twoStates.compileAction ⟨1, 2, .outputPort 4⟩ = .error e := by
  have hr : twoStates.Reachable := ⟨_, rfl⟩
  have hthree : twoStates.HasParamRoom Name.forward Name.port (3 : Port).toNat := by decide
  have hfour : ¬ twoStates.HasParamRoom Name.forward Name.port (4 : Port).toNat := by decide
  obtain ⟨hports, hrules⟩ := forwarding_falls_back_to_drop_only twoStates hr
  refine ⟨hr, hthree, hfour, (hports 3 [.meter 1]).2.1 hthree, (hports 4 []).2.2 hfour, ?_⟩
  rcases hrules 1 2 .drop (.outputPort 4) with herror | ⟨rule, _, hok, _⟩
  · exact herror
  · cases hok

/-- The schema can match on every criterion: there is one, no two are for one field, and every field
is declared with room for its value. -/
structure CanMatch (schema : Schema) (selector : Selector) : Prop where
  nonempty : selector.criteria ≠ []
  distinct : (selector.criteria.map Criterion.ref).Nodup
  room : ∀ c ∈ selector.criteria, schema.HasRoom c.ref c.value

theorem WellFormed.exists_selectorTerms_iff (hw : schema.WellFormed) (selector : Selector)
    (table : Table) :
    (∃ ms, schema.selectorTerms selector table = .ok ms) ↔ schema.CanMatch selector := by
  have hroom : (∃ ms, schema.exactAll selector.terms = .ok ms) ↔
      ∀ c ∈ selector.criteria, schema.HasRoom c.ref c.value := by
    rw [exists_exactAll_iff, Selector.terms, List.forall_mem_map]
    simp only [Criterion.term, hw.exists_exact_iff]
  simp only [selectorTerms_eq_ok_iff, exists_and_left, hroom]
  constructor
  · rintro ⟨hne, hnodup, hall⟩
    exact ⟨hne, hnodup, hall⟩
  · rintro ⟨hne, hnodup, hall⟩
    exact ⟨hne, hnodup, hall⟩

theorem exists_paramAll_pair_iff {action a b : String} {m n : Int} :
    (∃ params, schema.paramAll action [(a, m), (b, n)] = .ok params) ↔
      (∃ p, schema.param action a m = .ok p) ∧ ∃ p, schema.param action b n = .ok p := by
  simp only [paramAll]
  cases schema.param action a m with
  | error e => simp
  | ok p => cases schema.param action b n <;> simp

theorem WellFormed.exists_compileLookup_iff (hw : schema.WellFormed) {selector : Selector}
    {action : String} {target : TargetId} {register : RegisterId} :
    (∃ rule, schema.compileLookup selector action target register = .ok rule) ↔
      schema.CanMatch selector ∧
        schema.HasParamRoom action Name.targetId target.toNat ∧
        schema.HasParamRoom action Name.registerId register.toNat := by
  rw [← hw.exists_selectorTerms_iff selector .state, ← hw.exists_param_iff,
    ← hw.exists_param_iff, ← exists_paramAll_pair_iff, compileLookup]
  cases schema.selectorTerms selector .state with
  | error e => simp
  | ok terms =>
    cases hspec : schema.action action with
    | error e =>
      -- An action that nobody declared has no parameters either.
      have hparam (name : String) (value : Int) :
          schema.param action name value = .error (.schema e) := by
        simp only [param, paramWidth, hspec]
      simp [paramAll, hparam]
    | ok spec =>
      dsimp only
      cases schema.paramAll action _ <;> simp

theorem WellFormed.exists_compileForward_iff (hw : schema.WellFormed) {selector : Selector}
    {port : Port} :
    (∃ rule, schema.compileForward selector port = .ok rule) ↔ schema.CanMatch selector := by
  rw [← hw.exists_selectorTerms_iff selector .forward, compileForward]
  cases schema.selectorTerms selector .forward <;> simp

theorem exact_ne_repeatedField {field f : FieldRef} {value : Int} :
    schema.exact field value ≠ .error (.repeatedField f) := by
  intro h
  unfold exact at h
  split at h
  · cases h
  · split at h <;> cases h

theorem exactAll_ne_repeatedField {terms : List (FieldRef × Int)} {f : FieldRef} :
    schema.exactAll terms ≠ .error (.repeatedField f) := by
  intro h
  rw [exactAll_eq_mapM] at h
  obtain ⟨t, _, ht⟩ := exists_of_mapM_eq_error h
  exact exact_ne_repeatedField ht

theorem param_ne_repeatedField {action name : String} {f : FieldRef} {value : Int} :
    schema.param action name value ≠ .error (.repeatedField f) := by
  intro h
  unfold param at h
  split at h
  · cases h
  · split at h <;> cases h

/-- A repeated field is looked for before any value, and nothing else is an error of that kind. -/
theorem selectorTerms_eq_repeatedField_iff {selector : Selector} {table : Table} {f : FieldRef} :
    schema.selectorTerms selector table = .error (.repeatedField f) ↔
      selector.repeated? = some f := by
  unfold selectorTerms
  split_ifs with hempty
  · have hnil : selector.refs = [] := by simpa [Selector.isEmpty, Selector.refs] using hempty
    simp [Selector.repeated?, hnil, Selector.firstRepeated]
  · cases selector.repeated? with
    | some g => simp
    | none => simp [exactAll_ne_repeatedField]

theorem compile_eq_repeatedField_iff {call : CompileCall} {f : FieldRef} :
    schema.compile call = .error (.repeatedField f) ↔
      ∃ s, call.selector? = some s ∧ s.repeated? = some f := by
  have hterms : schema.callTerms call = .error (.repeatedField f) ↔
      ∃ s, call.selector? = some s ∧ s.repeated? = some f := by
    cases call with
    | transition t => simp [callTerms, CompileCall.selector?, exactAll_ne_repeatedField]
    | action b => simp [callTerms, CompileCall.selector?, exactAll_ne_repeatedField]
    | lookup selector name target register =>
      simp [callTerms, CompileCall.selector?, selectorTerms_eq_repeatedField_iff]
    | forward selector port =>
      simp [callTerms, CompileCall.selector?, selectorTerms_eq_repeatedField_iff]
  constructor
  · intro h
    rcases compile_eq_error h with h | h
    · exact hterms.mp h
    · rcases callAction_eq_error h with ⟨action, name, value, hp⟩ | ⟨name, he⟩
      · exact absurd hp param_ne_repeatedField
      · cases he
  · intro h
    rw [compile_eq, hterms.mpr h]

/-- When the rules of a flow compile; a repeated field is reported before any other fault. -/
theorem selectors_compile_exactly_if_valid (schema : Schema) (h : schema.Reachable)
    (selector : Selector) :
    (∀ action target register,
      (∃ rule, schema.compileLookup selector action target register = .ok rule) ↔
        schema.CanMatch selector ∧
          schema.HasParamRoom action Name.targetId target.toNat ∧
          schema.HasParamRoom action Name.registerId register.toNat) ∧
    (∀ port, (∃ rule, schema.compileForward selector port = .ok rule) ↔
      schema.CanMatch selector) ∧
    (¬ (selector.criteria.map Criterion.ref).Nodup →
      ∃ c, selector.RepeatsFirst c ∧
        (∀ action target register,
          schema.compileLookup selector action target register =
            .error (.repeatedField c.ref)) ∧
        ∀ port, schema.compileForward selector port = .error (.repeatedField c.ref)) := by
  have hw := h.wellFormed
  refine ⟨fun _ _ _ => hw.exists_compileLookup_iff, fun _ => hw.exists_compileForward_iff, ?_⟩
  intro hrepeated
  cases hf : selector.repeated? with
  | none => exact absurd (Selector.repeated?_eq_none_iff.mp hf) hrepeated
  | some f =>
    obtain ⟨c, hc, rfl⟩ := Selector.repeated?_eq_some_iff.mp hf
    refine ⟨c, hc, ?_, ?_⟩
    · intro action target register
      exact (@compile_eq_repeatedField_iff schema (.lookup selector action target register) _).mpr
        ⟨selector, rfl, hf⟩
    · intro port
      exact (@compile_eq_repeatedField_iff schema (.forward selector port) _).mpr
        ⟨selector, rfl, hf⟩

/-- A field that nobody declared, a port, and the field of that port again with a value too wide. -/
def portTwice : Selector :=
  ⟨[.field ⟨"ipv6", "dstAddr"⟩ 1, .inPort 3, .field ⟨"standard_metadata", "ingress_port"⟩ 70000]⟩

theorem signedDelta_selectors :
    signedDelta.Reachable ∧
      (∃ rule, signedDelta.compileLookup falling Name.lookupByNothing 2 7 = .ok rule) ∧
      (¬ ∃ rule, signedDelta.compileLookup falling Name.lookupByNothing 2 70000 = .ok rule) ∧
      (∃ rule, signedDelta.compileForward falling 9 = .ok rule) ∧
      ¬ (portTwice.criteria.map Criterion.ref).Nodup ∧
      signedDelta.compileForward portTwice 9 =
        .error (.repeatedField ⟨"standard_metadata", "ingress_port"⟩) := by
  have hr : signedDelta.Reachable := ⟨_, rfl⟩
  have hfalling : signedDelta.CanMatch falling := by
    refine ⟨by decide, by decide, ?_⟩
    simp only [falling, List.forall_mem_cons]
    exact ⟨by decide, by decide, by simp⟩
  have htwice : ¬ (portTwice.criteria.map Criterion.ref).Nodup := by decide
  obtain ⟨hlookup, hforward, _⟩ := selectors_compile_exactly_if_valid signedDelta hr falling
  obtain ⟨c, hc, _, herror⟩ :=
    (selectors_compile_exactly_if_valid signedDelta hr portTwice).2.2 htwice
  have hport : portTwice.repeated? = some ⟨"standard_metadata", "ingress_port"⟩ := by decide
  have hfirst : portTwice.repeated? = some c.ref :=
    Selector.repeated?_eq_some_iff.mpr ⟨c, hc, rfl⟩
  refine ⟨hr, (hlookup _ 2 7).mpr ⟨hfalling, by decide, by decide⟩, ?_, (hforward 9).mpr hfalling,
    htwice, ?_⟩
  · intro hok
    exact absurd ((hlookup _ 2 70000).mp hok).2.2 (by decide)
  · rw [herror 9, Option.some.inj (hfirst.symm.trans hport)]

end Schema
end StatefulPipeline
