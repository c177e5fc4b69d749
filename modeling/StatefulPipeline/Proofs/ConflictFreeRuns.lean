import StatefulPipeline.Proofs.CompileConditions
import StatefulPipeline.Proofs.OutputFormat

/-! A run of the program never meets with a conflict. It carries out one operation on a controller
that has bound nothing yet, so no register and no selector is taken; the device that it settles on
is always among those that it can reach, and no table fails there; and the options of a flow are for
different fields. What can go wrong is what the operation itself asks for, and whatever is installed
is on that one device. -/

namespace StatefulPipeline

/-- The error is about a device, a register or a selector that is not to be had, or about a selector
that has one field twice. -/
def ControlError.IsConflict : ControlError → Prop
  | .noDevice | .selectorInUse _ _ | .registerInUse _ _ | .registersExhausted _
  | .compile (.repeatedField _) => True
  | .unknownService _ | .invalidPort _ | .compile _ => False

/-- An operation met no conflict, and what it reports is what the device was given. -/
structure Status.SettledOn (status : Status) (c : Controller) (d : DeviceId) : Prop where
  failures : ∀ f ∈ status.report.failures, ∃ e, f = .compile e ∧ ∀ field, e ≠ .repeatedField field
  error : ∀ e, status.error = some e → ¬ e.IsConflict
  placed : c.fabric.placed = status.report.installed.map fun rule => (d, rule)

theorem Status.settledOn_failed {c : Controller} {d : DeviceId} {e : ControlError}
    (he : ¬ e.IsConflict) (hp : c.fabric.placed = []) : (failed e).SettledOn c d where
  failures _ hf := absurd hf List.not_mem_nil
  error _ h := Option.some.inj h ▸ he
  placed := hp

theorem BindText.read_cases (q : BindText) :
    (∃ text, q.read = .error (.invalidPort text)) ∨
      ∃ port, q.read = .ok ⟨q.service, q.register, q.selector, port⟩ := by
  unfold read
  split
  · exact .inr ⟨none, rfl⟩
  · rename_i text _
    cases Port.read? text with
    | none => exact .inl ⟨text, rfl⟩
    | some port => exact .inr ⟨some port, rfl⟩

namespace Controller

/-- Nothing is bound and no rule is placed yet; rules go to the given device, which can be reached,
and no table fails. -/
structure FreshOn (c : Controller) (d : DeviceId) : Prop where
  device : c.device? = some d
  reachable : d ∈ c.fabric.devices
  failing : c.fabric.failing = []
  placed : c.fabric.placed = []
  owners : c.owners = .empty
  slots : c.slots = .empty

theorem bindStatus_of_read {c : Controller} {q : BindText} {request : BindRequest}
    (h : q.read = .ok request) :
    c.bindStatus q = ((c.bind request).1,
      match (c.bind request).2 with
      | .ok o => .ok o.report (some o.register)
      | .error e => .failed e) := by
  simp only [bindStatus, h]
  rcases c.bind request with ⟨c', _ | _⟩ <;> rfl

theorem exists_claim_empty (service : String) (max : RegisterId) (requested : Option RegisterId) :
    ∃ slot register, claim .empty service max requested = (slot, .ok register) := by
  cases requested with
  | some register => exact ⟨_, register, rfl⟩
  | none =>
    have hle : Slot.empty.candidate ≤ max.toNat := Nat.zero_le _
    obtain ⟨r, hr, _⟩ := Slot.exists_draw_eq_some hle
    exact ⟨_, r, claim_of_drawn service hr⟩

theorem target_eq_error {c : Controller} {service : String} {e : ControlError}
    (h : c.target service = .error e) : e = .unknownService service := by
  unfold Controller.target at h
  split at h
  · cases h
  · exact (Except.error.inj h).symm

namespace FreshOn

variable {c : Controller} {d : DeviceId} (h : c.FreshOn d)
include h

theorem startStatus_settledOn (service : String) :
    (c.startStatus service).2.SettledOn (c.startStatus service).1 d := by
  cases ht : c.registry.targetNamed? service with
  | none =>
    rw [startStatus_of_unknown ht]
    exact Status.settledOn_failed not_false h.placed
  | some target =>
    rw [startStatus_eq ht h.device h.reachable h.failing]
    refine ⟨?_, fun e he => absurd he (by simp [Status.ok]), by simp [h.placed, Status.ok]⟩
    intro f hf
    obtain ⟨e, he, rfl⟩ := List.mem_map.mp hf
    refine ⟨e, rfl, ?_⟩
    rintro field rfl
    -- The rules of a service are compiled without a selector.
    rcases List.mem_append.mp (Schema.mem_refused.mp he) with hm | hm
    · obtain ⟨b, _, hb⟩ := List.mem_map.mp hm
      obtain ⟨s, hs, _⟩ := (@Schema.compile_eq_repeatedField_iff _ (.action b) _).mp hb
      cases hs
    · obtain ⟨t, _, ht⟩ := List.mem_map.mp hm
      obtain ⟨s, hs, _⟩ := (@Schema.compile_eq_repeatedField_iff _ (.transition t) _).mp ht
      cases hs

/-- A bind of a selector without repeated fields is turned away or refused for what it asks, or its
flow is bound on the device. -/
theorem verdict_cases {q : BindRequest} (hq : q.selector.refs.Nodup) :
    (∃ e, ¬ e.IsConflict ∧
        (c.verdict q = .turnedAway e ∨ ∃ t slot, c.verdict q = .refused t slot e)) ∨
      ∃ slot flow rules, c.verdict q = .bound d slot flow rules := by
  cases ht : c.target q.service with
  | error e =>
    obtain rfl := target_eq_error ht
    exact .inl ⟨.unknownService q.service, not_false,
      .inl (by simp only [verdict, admission, ht])⟩
  | ok target =>
    cases hm : c.schema.maxRegister target.lookupAction with
    | error e =>
      exact .inl ⟨.compile (.schema e), not_false,
        .inl (by simp only [verdict, admission, ht, h.device, hm])⟩
    | ok max =>
      have hfree : c.owners.get? q.selector.key = none := by rw [h.owners]; rfl
      have hadmits : c.Admits q target d max := ⟨ht, h.device, hm, hfree⟩
      have hslot : c.slot target.id = .empty := by rw [Controller.slot, h.slots]; rfl
      obtain ⟨slot, register, hclaim⟩ := exists_claim_empty q.service max q.register
      rw [← hslot] at hclaim
      cases hflow : c.schema.compileFlow target register q.selector q.port with
      | ok rules => exact .inr ⟨slot, _, rules, hadmits.verdict_of_flow_ok hclaim hflow⟩
      | error e =>
        refine .inl ⟨.compile e, ?_, .inr ⟨_, _, hadmits.verdict_of_flow_error hclaim hflow⟩⟩
        have hlookup : c.schema.compile
            (.lookup q.selector target.lookupAction target.id register) = .error e :=
          Schema.compileLookup_of_compileFlow_error hflow
        cases e with
        | repeatedField field =>
          obtain ⟨s, hs, hrepeated⟩ := Schema.compile_eq_repeatedField_iff.mp hlookup
          obtain rfl : q.selector = s := Option.some.inj hs
          rw [Selector.repeated?_eq_none_iff.mpr hq] at hrepeated
          cases hrepeated
        | _ => exact not_false

theorem bind_cases {q : BindRequest} (hq : q.selector.refs.Nodup) :
    (∃ e, ¬ e.IsConflict ∧ (c.bind q).2 = .error e ∧ (c.bind q).1.fabric.placed = []) ∨
      ∃ o, (c.bind q).2 = .ok o ∧ o.report.failures = [] ∧
        (c.bind q).1.fabric.placed = o.report.installed.map fun rule => (d, rule) := by
  have hplaced : (c.bind q).1.fabric.placed = (c.verdict q).placedOn c.fabric := by
    rw [bind_eq, enact_fabric]
    exact (congrArg (· ++ _) h.placed).trans (List.nil_append _)
  rw [hplaced, bind_eq]
  rcases h.verdict_cases hq with ⟨e, he, hv | ⟨t, slot, hv⟩⟩ | ⟨slot, flow, rules, hv⟩
  · rw [hv]
    exact .inl ⟨e, he, rfl, rfl⟩
  · rw [hv]
    exact .inl ⟨e, he, rfl, rfl⟩
  · rw [hv]
    refine .inr ⟨_, rfl, ?_, rfl⟩
    rw [Fabric.installEach_report h.reachable h.failing]
    simp [Schema.refused]

theorem bindStatus_settledOn {q : BindText} (hq : q.selector.refs.Nodup) :
    (c.bindStatus q).2.SettledOn (c.bindStatus q).1 d := by
  rcases q.read_cases with ⟨text, hread⟩ | ⟨port, hread⟩
  · rw [bindStatus, hread]
    exact Status.settledOn_failed not_false h.placed
  · have hbind := h.bind_cases (q := ⟨q.service, q.register, q.selector, port⟩) hq
    rw [bindStatus_of_read hread]
    rcases hbind with ⟨e, he, herror, hplaced⟩ | ⟨o, hok, hfailures, hplaced⟩
    · rw [herror]
      exact Status.settledOn_failed he hplaced
    · rw [hok]
      refine ⟨?_, fun e he => absurd he (by simp [Status.ok]), hplaced⟩
      intro f hf
      exact absurd (hfailures ▸ hf) List.not_mem_nil

end FreshOn
end Controller

namespace CommandLine

def flowFields : List FieldRef :=
  [⟨"ipv4", "dstAddr"⟩, ⟨"ipv4", "srcAddr"⟩, ⟨"ipv4", "protocol"⟩, ⟨"tcp", "srcPort"⟩,
    ⟨"tcp", "dstPort"⟩]

theorem refs_addressCriteria {name : String} {text : Option String} {criteria : List Criterion}
    (h : addressCriteria name text = .ok criteria) :
    (criteria.map Criterion.ref).Sublist [⟨"ipv4", name⟩] := by
  unfold addressCriteria at h
  split at h
  · obtain rfl := Except.ok.inj h
    exact List.nil_sublist _
  · split at h
    · obtain rfl := Except.ok.inj h
      exact List.Sublist.refl _
    · cases h

theorem refs_numberCriteria (scope name : String) (number : Option Nat) :
    ((numberCriteria scope name number).map Criterion.ref).Sublist [⟨scope, name⟩] := by
  cases number with
  | none => exact List.nil_sublist _
  | some n => exact List.Sublist.refl _

theorem Flow.refs_nodup {flow : Flow} {selector : Selector} (h : flow.selector = .ok selector) :
    selector.refs.Nodup := by
  have hsub : selector.refs.Sublist flowFields := by
    unfold Flow.selector at h
    split at h
    · cases h
    · rename_i dst hdst
      split at h
      · cases h
      · rename_i src hsrc
        obtain rfl := Except.ok.inj h
        simp only [Selector.refs, List.map_append]
        exact ((((refs_addressCriteria hdst).append (refs_addressCriteria hsrc)).append
          (refs_numberCriteria ..)).append (refs_numberCriteria ..)).append
          (refs_numberCriteria ..)
  exact hsub.nodup (by decide)

/-- The device that is asked for, or else the configured default, or else the last available one
whose id ends in `#1`, or else the first available one, or else the fallback. -/
def chosenDevice (config : Config) (device : Option String) : DeviceId :=
  let available := (config.devices.map DeviceConfig.available).getD []
  (((device.or (config.devices.bind DeviceConfig.default)).or
    (available.filter fun d => ['#', '1'].isSuffixOf d.toList).getLast?).or
      available.head?).getD fallbackDevice

section Devices

variable (config : Config) (device : Option String)

theorem preferredDevice?_eq :
    preferredDevice? config device = device.or (config.devices.bind DeviceConfig.default) := by
  cases device <;> rfl

theorem device?_controllerOf (schema : Schema) :
    (controllerOf config schema device).device? = some (chosenDevice config device) := by
  rw [controllerOf_eq, chosenDevice, ← preferredDevice?_eq, reachableDevices]
  cases preferredDevice? config device with
  | some d => rfl
  | none =>
    cases (config.devices.map DeviceConfig.available).getD [] with
    | nil =>
      -- The fallback is the only device then, and its id ends in `#1`.
      rfl
    | cons d ds =>
      dsimp only
      cases hl : ((d :: ds).filter fun d => ['#', '1'].isSuffixOf d.toList).getLast? <;>
        simp [Controller.device?, Controller.new, Fabric.new, hl]

theorem freshOn_controllerOf (schema : Schema) :
    (controllerOf config schema device).FreshOn (chosenDevice config device) := by
  obtain ⟨d, hmem, hd⟩ := exists_device config device schema
  have hchosen := device?_controllerOf config device schema
  obtain rfl : d = chosenDevice config device := Option.some.inj (hd.symm.trans hchosen)
  have hfabric := fabric_controllerOf config device schema
  exact
    { device := hchosen
      reachable := by rw [hfabric]; exact hmem
      failing := by rw [hfabric]; rfl
      placed := by rw [hfabric]; rfl
      owners := by rw [controllerOf_eq]; rfl
      slots := by rw [controllerOf_eq]; rfl }

end Devices

section Binds

variable {config : Config} {schema : Schema} (hs : config.toSchema = .ok schema)
  (device : Option String) {flow : Flow} (service : String) (output : Option String)
  (register : Option RegisterId) (json : Bool)
include hs

theorem execute_bind {selector : Selector} (hf : flow.selector = .ok selector) :
    execute config device json (.bind service flow output register) =
      statusOutput json "bind" service
        ((controllerOf config schema device).bindStatus
          ⟨service, register, selector, output⟩).2 := by
  simp only [execute, hs, bind, hf]

theorem execute_bind_of_unreadable {text : String} (hf : flow.selector = .error text) :
    execute config device json (.bind service flow output register) =
      .failed ("invalid IPv4 address: " ++ text ++
        "\n\nCaused by:\n    invalid IPv4 address syntax") := by
  simp only [execute, hs, bind, hf]

end Binds

/-- A single start or bind of the program fails for what it asks only, and reports what it installs.
-/
theorem program_never_meets_conflict (config : Config) (schema : Schema)
    (hs : config.toSchema = .ok schema) (device : Option String) :
    (∀ service, ∃ after, (controllerOf config schema device).startStatus service = after ∧
      after.2.SettledOn after.1 (chosenDevice config device) ∧
      ∀ json, execute config device json (.start service) =
        statusOutput json "start" service after.2) ∧
    ∀ (service : String) (flow : Flow) (output : Option String) (register : Option RegisterId),
      (∃ selector after, flow.selector = .ok selector ∧
        (controllerOf config schema device).bindStatus ⟨service, register, selector, output⟩ =
          after ∧
        after.2.SettledOn after.1 (chosenDevice config device) ∧
        ∀ json, execute config device json (.bind service flow output register) =
          statusOutput json "bind" service after.2) ∨
      ∃ text, flow.selector = .error text ∧
        ∀ json, execute config device json (.bind service flow output register) =
          .failed ("invalid IPv4 address: " ++ text ++
            "\n\nCaused by:\n    invalid IPv4 address syntax") := by
  have hfresh := freshOn_controllerOf config device schema
  constructor
  · intro service
    refine ⟨_, rfl, hfresh.startStatus_settledOn service, ?_⟩
    intro json
    exact execute_start hs device json
  · intro service flow output register
    cases hf : flow.selector with
    | error text =>
      exact .inr ⟨text, rfl, fun json =>
        execute_bind_of_unreadable hs device service output register json hf⟩
    | ok selector =>
      refine .inl ⟨selector, _, rfl, rfl, hfresh.bindStatus_settledOn (Flow.refs_nodup hf), ?_⟩
      intro json
      exact execute_bind hs device service output register json hf

def fourDevices : Config :=
  { Config.ofSchema "four" Controller.fourRegisters with
    devices := some ⟨none, ["s1#0", "s2#1", "s3#1", "s4#0"]⟩ }

def oneSource : Flow := ⟨none, some "10.0.0.7", none, none, none⟩

/-- The later of the two devices gets both rules of the flow, unless another one is asked for. -/
theorem fourDevices_settled :
    fourDevices.toSchema = .ok Controller.fourRegisters ∧
      chosenDevice fourDevices none = "s3#1" ∧ chosenDevice fourDevices (some "s9") = "s9" ∧
      ∃ selector after, oneSource.selector = .ok selector ∧
        (controllerOf fourDevices Controller.fourRegisters none).bindStatus
          ⟨"slb", none, selector, some " 3 "⟩ = after ∧
        after.2.register = some 0 ∧ after.2.report.installed.length = 2 ∧
        after.1.fabric.placed = after.2.report.installed.map fun rule => ("s3#1", rule) := by
  have hs : fourDevices.toSchema = .ok Controller.fourRegisters :=
    (Schema.accept_wellFormed _).toSchema_ofSchema "four"
  have hchosen : chosenDevice fourDevices none = "s3#1" := by decide
  refine ⟨hs, hchosen, by decide, ?_⟩
  rcases (program_never_meets_conflict fourDevices _ hs none).2 "slb" oneSource (some " 3 ") none
    with ⟨selector, after, hselector, hafter, hsettled, _⟩ | ⟨text, htext, _⟩
  · have hsource : oneSource.selector = .ok (Controller.source 167772167) := by rfl
    obtain rfl := Except.ok.inj (hsource.symm.trans hselector)
    refine ⟨_, after, hsource, hafter, ?_, ?_, hchosen ▸ hsettled.placed⟩
    · rw [← hafter]
      decide
    · rw [← hafter]
      decide
  · cases htext

end CommandLine
end StatefulPipeline
