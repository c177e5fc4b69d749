import StatefulPipeline.Proofs.BindVerdicts

/-! What an output port does to a bind. The forward rule of a flow is compiled after its state rule,
from the same selector, and a port that does not fit is a drop; so once the state rule compiles, the
forward rule does too. A port then changes neither whether nor where a flow is bound: it is taken
down with the flow, and one rule more is installed. -/

namespace StatefulPipeline

namespace Schema

variable {schema : Schema}

/-- The state rule and the forward rule of a flow with a port; both match the same traffic. -/
structure FlowRules (schema : Schema) (target : Target) (register : RegisterId)
    (selector : Selector) (port : Port) (lookup forward : Rule) : Prop where
  lookup_compiled :
    schema.compileLookup selector target.lookupAction target.id register = .ok lookup
  forward_compiled : schema.compileForward selector port = .ok forward
  lookup_table : lookup.table = .state
  forward_table : forward.table = .forward
  same_terms : forward.terms = lookup.terms

theorem FlowRules.inInstallOrder {target : Target} {register : RegisterId} {selector : Selector}
    {port : Port} {lookup forward : Rule}
    (h : schema.FlowRules target register selector port lookup forward) :
    Rule.InInstallOrder [lookup, forward] := by
  have hle : Table.forward.id ≤ Table.state.id := by decide
  simp [Rule.InInstallOrder, h.lookup_table, h.forward_table, hle]

/-- With a port a flow compiles exactly if it does without, and has one rule more. -/
theorem compileFlow_port (schema : Schema) (target : Target) (register : RegisterId)
    (selector : Selector) (port : Port) :
    (∃ e, schema.compileFlow target register selector none = .error e ∧
        schema.compileFlow target register selector (some port) = .error e) ∨
      ∃ lookup forward, schema.FlowRules target register selector port lookup forward ∧
        schema.compileFlow target register selector none = .ok [lookup] ∧
        schema.compileFlow target register selector (some port) = .ok [lookup, forward] := by
  unfold compileFlow
  cases hl : schema.compileLookup selector target.lookupAction target.id register with
  | error e => exact .inl ⟨e, rfl, rfl⟩
  | ok lookup =>
    obtain ⟨htable, hterms⟩ := compileLookup_eq_ok hl
    -- What makes a selector fit for the state table makes it fit for the forward table.
    have hsame : schema.selectorTerms selector .forward = .ok lookup.terms :=
      selectorTerms_eq_ok_iff.mpr (selectorTerms_eq_ok_iff.mp hterms)
    have hforward : schema.compileForward selector port =
        .ok ⟨.forward, lookup.terms, schema.actionOf (.outputPort port), defaultPriority⟩ := by
      simp [compileForward, hsame]
    refine .inr ⟨lookup, _, ⟨hl, hforward, htable, rfl, rfl⟩, rfl, ?_⟩
    simp [hforward]

end Schema

namespace Controller

/-- The bind succeeds with the register and hands the rules to the device, one after the other. -/
def Attempts (c : Controller) (q : BindRequest) (register : RegisterId) (device : DeviceId)
    (rules : List Rule) : Prop :=
  ∃ report, (c.bind q).2 = .ok ⟨register, report⟩ ∧
    report.Faithful c.fabric (c.bind q).1.fabric device (rules.map .ok)

/-- The rules on the devices aside, the second controller has the port for the flow, and all else is
alike. -/
structure AlikeButPort (c c' : Controller) (flow : Allocation) (port : Port) : Prop where
  live : (c.slot flow.target).live.get? flow.register = some flow
  live_with : ∀ t r, (c'.slot t).live.get? r =
    if flow.target = t ∧ flow.register = r then some { flow with outputPort := some port }
    else (c.slot t).live.get? r
  next : ∀ t, (c'.slot t).next = (c.slot t).next
  owners : c'.owners = c.owners
  defaultDevice : c'.defaultDevice = c.defaultDevice
  schema : c'.schema = c.schema
  registry : c'.registry = c.registry
  fabric : { c'.fabric with placed := c.fabric.placed } = c.fabric

variable {c : Controller}

theorem attempts_of_verdict {q : BindRequest} {device : DeviceId} {slot : Slot} {flow : Allocation}
    {rules : List Rule} (h : c.verdict q = .bound device slot flow rules)
    (hordered : Rule.InInstallOrder rules) : c.Attempts q flow.register device rules := by
  rw [Attempts, bind_eq, h]
  exact ⟨_, rfl, c.fabric.installEach_sorted_faithful device hordered⟩

theorem verdict_port (c : Controller) (q : BindRequest) (port : Port) :
    (∃ e, (c.verdict { q with port := none }).answer c.fabric = .error e ∧
        c.verdict { q with port := some port } = c.verdict { q with port := none }) ∨
      ∃ target max register device slot lookup forward,
        c.Admits q target device max ∧
        (c.slot target.id).live.get? register = none ∧
        c.schema.FlowRules target register q.selector port lookup forward ∧
        c.verdict { q with port := none } =
          .bound device slot ⟨target.id, register, q.selector, none⟩ [lookup] ∧
        c.verdict { q with port := some port } =
          .bound device slot ⟨target.id, register, q.selector, some port⟩ [lookup, forward] := by
  have hadmission (p : Option Port) : c.admission { q with port := p } = c.admission q := rfl
  simp only [verdict, hadmission]
  cases ha : c.admission q with
  | error e => exact .inl ⟨e, rfl, rfl⟩
  | ok admitted =>
    obtain ⟨target, device, max⟩ := admitted
    dsimp only
    cases hclaim : claim (c.slot target.id) q.service max q.register with
    | mk slot result =>
      cases result with
      | error e => exact .inl ⟨e, rfl, rfl⟩
      | ok register =>
        have hfree := (claim_eq_ok (congrArg Prod.snd hclaim)).1
        dsimp only
        rcases c.schema.compileFlow_port target register q.selector port with
          ⟨e, hnone, hsome⟩ | ⟨lookup, forward, hrules, hnone, hsome⟩
        · rw [hnone, hsome]
          exact .inl ⟨.compile e, rfl, rfl⟩
        · rw [hnone, hsome]
          exact .inr ⟨target, max, register, device, slot, lookup, forward,
            admission_eq_ok_iff.mp ha, hfree, hrules, rfl, rfl⟩

theorem alikeButPort_enact (c : Controller) (device : DeviceId) (slot : Slot) (flow : Allocation)
    (rules rules' : List Rule) (port : Port) :
    AlikeButPort (c.enact (.bound device slot flow rules))
      (c.enact (.bound device slot { flow with outputPort := some port } rules')) flow port where
  live := by
    rw [enact_slot, Verdict.slotAt, if_pos rfl]
    simp [Slot.record]
  live_with t r := by
    rw [enact_slot, enact_slot, Verdict.slotAt, Verdict.slotAt]
    by_cases ht : flow.target = t
    · by_cases hr : flow.register = r
      · simp [Slot.record, ht, hr]
      · simp [Slot.record, ht, hr]
    · simp [ht]
  next t := by
    rw [enact_slot, enact_slot, Verdict.slotAt, Verdict.slotAt]
    split_ifs <;> rfl
  owners := rfl
  defaultDevice := rfl
  schema := rfl
  registry := rfl
  fabric := by simp only [enact, Fabric.installEach_fst]

/-- An output port adds one forward rule, tried after the state rule, and changes nothing else. -/
theorem output_port_only_adds_forward_rule (c : Controller) (q : BindRequest) (port : Port) :
    (∃ e, (c.bind { q with port := none }).2 = .error e ∧
        (c.bind { q with port := some port }).2 = .error e ∧
        (c.bind { q with port := some port }).1 = (c.bind { q with port := none }).1) ∨
      ∃ target register device lookup forward,
        c.target q.service = .ok target ∧ c.device? = some device ∧
        (c.slot target.id).live.get? register = none ∧
        c.schema.FlowRules target register q.selector port lookup forward ∧
        c.Attempts { q with port := none } register device [lookup] ∧
        c.Attempts { q with port := some port } register device [lookup, forward] ∧
        AlikeButPort (c.bind { q with port := none }).1 (c.bind { q with port := some port }).1
          ⟨target.id, register, q.selector, none⟩ port := by
  rcases c.verdict_port q port with ⟨e, herror, hsame⟩ |
    ⟨target, max, register, device, slot, lookup, forward, hadmits, hfree, hrules, hnone, hsome⟩
  · refine .inl ⟨e, ?_, ?_, ?_⟩
    · rw [bind_eq]
      exact herror
    · rw [bind_eq, hsame]
      exact herror
    · rw [bind_eq, bind_eq, hsame]
  · have hone : Rule.InInstallOrder [lookup] := List.pairwise_singleton _ _
    refine .inr ⟨target, register, device, lookup, forward, hadmits.service_known,
      hadmits.device_found, hfree, hrules, attempts_of_verdict hnone hone,
      attempts_of_verdict hsome hrules.inInstallOrder, ?_⟩
    rw [bind_eq, bind_eq, hnone, hsome]
    exact alikeButPort_enact _ device slot _ _ _ port

/-- Room for two states of an automaton and for one bit of a flow's address. -/
def oneBitFlows : Schema :=
  Schema.accept
    [.field (FieldRef.metadata Name.targetId) ⟨16, false⟩,
      .field (FieldRef.metadata Name.curState) ⟨8, false⟩,
      .field (FieldRef.metadata Name.nextState) ⟨1, false⟩,
      .field (FieldRef.metadata Name.trigger) ⟨16, false⟩, .field ⟨"ipv4", "srcAddr"⟩ ⟨1, false⟩,
      .action ⟨Name.stateTransfer, [⟨Name.nextState, 8⟩]⟩,
      .action ⟨Name.lookupByNothing, [⟨Name.targetId, 16⟩, ⟨Name.registerId, 2⟩]⟩]

/-- A device that takes neither edges nor the state rules of flows. -/
def halfFailing : Controller :=
  ((new oneBitFlows Registry.empty.installBalancer.1 ["s1#0"]).run
    [.failTable .stateTransfer, .failTable .state]).1

/-- The state rule fails with the port as without, and the forward rule is installed after it. -/
theorem halfFailing_port :
    ∃ lookup forward,
      halfFailing.schema.FlowRules Balancer.target 0 (source 1) 2 lookup forward ∧
      (halfFailing.bind ⟨"slb", none, source 1, none⟩).2 =
        .ok ⟨0, ⟨[], [.install .state (.rejected "s1#0" .state)]⟩⟩ ∧
      (halfFailing.bind ⟨"slb", none, source 1, some 2⟩).2 =
        .ok ⟨0, ⟨[forward], [.install .state (.rejected "s1#0" .state)]⟩⟩ ∧
      (halfFailing.bind ⟨"slb", none, source 1, some 2⟩).1.fabric.installed "s1#0" = [forward] := by
  have hregister : (halfFailing.bind ⟨"slb", none, source 1, none⟩).2.toOption.map
      BindOutcome.register = some 0 := by decide
  rcases output_port_only_adds_forward_rule halfFailing ⟨"slb", none, source 1, none⟩ 2 with
    ⟨e, herror, _⟩ | ⟨target, register, device, lookup, forward, ht, hd, _, hrules,
      ⟨report, hplain, hone⟩, ⟨report', hported, htwo⟩, _⟩
  · rw [herror] at hregister
    cases hregister
  · obtain rfl : Balancer.target = target := Except.ok.inj ht
    obtain rfl : "s1#0" = device := Option.some.inj hd
    rw [hplain] at hregister
    obtain rfl : register = 0 := Option.some.inj hregister
    have hrefused : halfFailing.fabric.refusal? "s1#0" .state =
        some (.rejected "s1#0" .state) := by decide
    have htaken : halfFailing.fabric.refusal? "s1#0" .forward = none := by decide
    have hempty : halfFailing.fabric.installed "s1#0" = [] := by decide
    have hdevice : "s1#0" ∈ halfFailing.fabric.devices := by decide
    have hstate : .state ∈ halfFailing.fabric.failing := by decide
    have hforward : .forward ∉ halfFailing.fabric.failing := by decide
    obtain ⟨installed, failures⟩ := report
    obtain ⟨installed', failures'⟩ := report'
    obtain rfl : installed = [] := by
      simpa [Schema.compiled, hrules.lookup_table, hstate] using hone.taken
    obtain rfl : failures = [.install .state (.rejected "s1#0" .state)] := by
      simpa [Fabric.failure?, hrules.lookup_table, hrefused] using hone.failed
    obtain rfl : installed' = [forward] := by
      simpa [Schema.compiled, hrules.lookup_table, hrules.forward_table, hdevice, hstate,
        hforward] using htwo.taken
    obtain rfl : failures' = [.install .state (.rejected "s1#0" .state)] := by
      simpa [Fabric.failure?, hrules.lookup_table, hrules.forward_table, hrefused, htaken]
        using htwo.failed
    have hheld := htwo.appended
    rw [hempty, List.nil_append] at hheld
    exact ⟨lookup, forward, hrules, hplain, hported, hheld⟩

end Controller
end StatefulPipeline
