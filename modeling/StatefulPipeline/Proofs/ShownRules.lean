import StatefulPipeline.CommandLine.Program
import StatefulPipeline.Proofs.ActionTable
import StatefulPipeline.Proofs.Installation
import StatefulPipeline.Proofs.JsonText
import StatefulPipeline.Proofs.SchemaBuilding

/-! What is shown of a service is what a start installs. The program's controller always has a
device to install on, and it is one of those that it can reach; no table fails there, so the only
rules that a start loses are those that do not compile, and these are the ones that are shown as
errors. Both commands then print the same lines, and JSON from which the same rules are read. -/

namespace StatefulPipeline

theorem Fabric.installEach_report {f : Fabric} {device : DeviceId} (hd : device ∈ f.devices)
    (hf : f.failing = []) (results : List (Except CompileError Rule)) :
    (f.installEach device results).2 =
      ⟨Schema.compiled results, (Schema.refused results).map .compile⟩ := by
  have hnone (table : Table) : f.refusal? device table = none := by
    simp [refusal?, hd, hf]
  have hfailure : results.filterMap (f.failure? device) =
      (Schema.refused results).map .compile := by
    rw [Schema.refused, List.map_filterMap]
    refine List.filterMap_congr fun result _ => ?_
    cases result with
    | error e => rfl
    | ok rule => simp [failure?, hnone]
  rw [installEach_snd, hfailure]
  simp [hnone]

def Schema.overviewOf (schema : Schema) (registry : Registry) (target : Target) : Overview where
  target := target
  transitions := registry.transitionsFor target.id
  bindings := registry.actionsFor target.id
  rules := compiled (schema.serviceResults registry target.id)
  errors := refused (schema.serviceResults registry target.id)

namespace Controller

/-- Of the devices that come up, the last one whose id ends in `#1` becomes the default. -/
theorem foldl_deviceInitialized (devices : List DeviceId) (c : Controller) :
    devices.foldl deviceInitialized c = { c with
      defaultDevice :=
        (devices.filter fun d => ['#', '1'].isSuffixOf d.toList).getLast?.or c.defaultDevice } := by
  induction devices generalizing c with
  | nil => rfl
  | cons d ds ih =>
    rw [List.foldl_cons, ih, deviceInitialized, List.filter_cons]
    split_ifs with hd
    · -- The device counts unless a later one ends in `#1` as well.
      rw [List.getLast?_cons]
      cases (ds.filter fun d => ['#', '1'].isSuffixOf d.toList).getLast? <;> rfl
    · rfl

theorem startStatus_eq {c : Controller} {service : String} {target : Target} {d : DeviceId}
    (ht : c.registry.targetNamed? service = some target) (hd : c.device? = some d)
    (hm : d ∈ c.fabric.devices) (hf : c.fabric.failing = []) :
    c.startStatus service =
      ({ c with
          defaultDevice := some d
          fabric := { c.fabric with
            placed := c.fabric.placed ++ (Schema.compiled
              (c.schema.serviceResults c.registry target.id)).map fun r => (d, r) } },
        .ok ⟨Schema.compiled (c.schema.serviceResults c.registry target.id),
          (Schema.refused (c.schema.serviceResults c.registry target.id)).map .compile⟩ none) := by
  rw [startStatus, start_eq_of_known (target_eq_ok_iff.mpr ht) hd, Fabric.installEach_fst,
    Fabric.installEach_report hm hf]

theorem startStatus_of_unknown {c : Controller} {service : String}
    (h : c.registry.targetNamed? service = none) :
    c.startStatus service = (c, .failed (.unknownService service)) := by
  simp [startStatus, start, Controller.target, h]

theorem overview_eq {c : Controller} {service : String} {target : Target}
    (ht : c.registry.targetNamed? service = some target) :
    c.overview target = .ok (c.schema.overviewOf c.registry target) := by
  have hs : c.schema.compileService c.registry target.id =
      .ok (c.schema.serviceResults c.registry target.id) :=
    Schema.compileService_eq_ok_iff.mpr ⟨Registry.isSome_target?_of_named ht, rfl⟩
  rw [overview, hs]
  rfl

end Controller

namespace CommandLine

section Devices

variable (config : Config) (device : Option String)

theorem reachableDevices_ne_nil : reachableDevices config device ≠ [] := by
  simp only [reachableDevices]
  split_ifs with h
  · simp
  · exact h

theorem mem_reachableDevices_of_preferred {d : DeviceId}
    (h : preferredDevice? config device = some d) : d ∈ reachableDevices config device := by
  simp only [reachableDevices, h]
  by_cases hin : d ∈ (config.devices.map DeviceConfig.available).getD []
  · rw [if_pos hin, if_neg (List.ne_nil_of_mem hin)]
    exact hin
  · simp [hin]

theorem controllerOf_eq (schema : Schema) :
    controllerOf config schema device =
      { Controller.new schema Registry.defaults (reachableDevices config device) with
        defaultDevice := (preferredDevice? config device).or
          ((reachableDevices config device).filter fun d =>
            ['#', '1'].isSuffixOf d.toList).getLast? } := by
  unfold controllerOf
  cases preferredDevice? config device with
  | some d => rfl
  | none => simp [Controller.foldl_deviceInitialized, Controller.new]

@[simp] theorem registry_controllerOf (schema : Schema) :
    (controllerOf config schema device).registry = Registry.defaults := by
  rw [controllerOf_eq]
  rfl

@[simp] theorem schema_controllerOf (schema : Schema) :
    (controllerOf config schema device).schema = schema := by
  rw [controllerOf_eq]
  rfl

@[simp] theorem fabric_controllerOf (schema : Schema) :
    (controllerOf config schema device).fabric = .new (reachableDevices config device) := by
  rw [controllerOf_eq]
  rfl

/-- The program always has a device to install on, and can reach it. -/
theorem exists_device (schema : Schema) : ∃ d ∈ reachableDevices config device,
    (controllerOf config schema device).device? = some d := by
  rw [controllerOf_eq]
  cases hp : preferredDevice? config device with
  | some d => exact ⟨d, mem_reachableDevices_of_preferred config device hp, rfl⟩
  | none =>
    cases hl : ((reachableDevices config device).filter fun d =>
        ['#', '1'].isSuffixOf d.toList).getLast? with
    | some d =>
      have hm := List.mem_of_getLast? hl
      exact ⟨d, List.mem_of_mem_filter hm, rfl⟩
    | none =>
      obtain ⟨d, ds, he⟩ := List.exists_cons_of_ne_nil (reachableDevices_ne_nil config device)
      refine ⟨d, he ▸ List.mem_cons_self, ?_⟩
      simp [Controller.device?, Controller.new, Fabric.new, he]

theorem overview_controllerOf (schema : Schema) {service : String} {target : Target}
    (ht : Registry.defaults.targetNamed? service = some target) :
    (controllerOf config schema device).overview target =
      .ok (schema.overviewOf Registry.defaults target) := by
  rw [← registry_controllerOf config device schema] at ht
  rw [Controller.overview_eq ht, schema_controllerOf, registry_controllerOf]

end Devices

section Commands

variable {config : Config} {schema : Schema} (hs : config.toSchema = .ok schema)
  (device : Option String) {service : String}
include hs

theorem execute_inspect {target : Target}
    (ht : Registry.defaults.targetNamed? service = some target) (json : Bool) :
    execute config device json (.inspect service) =
      overviewOutput json (schema.overviewOf Registry.defaults target) := by
  simp only [execute, hs, inspect, registry_controllerOf, ht,
    overview_controllerOf config device schema ht]

theorem execute_inspect_of_unknown (hnone : Registry.defaults.targetNamed? service = none)
    (json : Bool) :
    execute config device json (.inspect service) =
      ⟨.failure, "", "unknown service: " ++ service ++ "\n"⟩ := by
  simp only [execute, hs, inspect, registry_controllerOf, hnone]

theorem execute_start (json : Bool) :
    execute config device json (.start service) =
      statusOutput json "start" service
        ((controllerOf config schema device).startStatus service).2 := by
  simp only [execute, hs, start]

end Commands

def reportLines (report : Report) : List String :=
  report.installed.map ruleLine ++ report.failures.map fun f => failureLine f.message

/-- What is shown of a target before its rules. -/
def automatonLines (target : Target) : List String :=
  [targetLine target, "Transitions:"] ++
    (Registry.defaults.transitionsFor target.id).map transitionLine ++
    "Actions:" :: (Registry.defaults.actionsFor target.id).map bindingLine

/-- One JSON value alone has this text, and under the two names it has the rules of the report and
the messages of its failures. -/
def ListsReport (stdout rulesName failuresName : String) (report : Report) : Prop :=
  ∃ j : Json, (∀ k : Json, stdout = k.toText ++ "\n" ↔ k = j) ∧
    (∀ rules : List Rule,
      j.member? rulesName = some (.array (rules.map Rule.json)) ↔ rules = report.installed) ∧
    ∀ messages : List String,
      j.member? failuresName = some (.array (messages.map .text)) ↔
        messages = report.failures.map RuleFailure.message

theorem listsReport_ofJson {code : ExitCode} {j : Json} {rulesName failuresName : String}
    {report : Report}
    (hrules : j.member? rulesName = some (.array (report.installed.map Rule.json)))
    (hfailures : j.member? failuresName =
      some (.array ((report.failures.map RuleFailure.message).map .text))) :
    ListsReport (Output.ofJson code j).stdout rulesName failuresName report := by
  refine ⟨j, fun k => ⟨fun h => ?_, fun h => h ▸ rfl⟩, fun rules => ?_, fun messages => ?_⟩
  · exact (Json.toText_injective ((String.append_left_inj "\n").mp h)).symm
  · rw [hrules, Option.some.injEq, Json.array.injEq]
    have hinj := List.map_injective_iff.mpr Rule.json_injective
    exact ⟨fun h => (hinj h).symm, fun h => h ▸ rfl⟩
  · rw [hfailures, Option.some.injEq, Json.array.injEq]
    have hinj := List.map_injective_iff.mpr fun _ _ => Json.text.inj
    exact ⟨fun h => (hinj h).symm, fun h => h ▸ rfl⟩

/-- Both commands print the rules and the failures of the report, in its order. -/
structure PrintReport (config : Config) (device : Option String) (service : String)
    (target : Target) (report : Report) : Prop where
  heading : "Rules:" ∉ automatonLines target
  shown : (execute config device false (.inspect service)).stdout =
    String.join ((automatonLines target ++ "Rules:" :: reportLines report).map (· ++ "\n"))
  started : (execute config device false (.start service)).stdout =
    String.join ((s!"✓ {service}: started" :: reportLines report).map (· ++ "\n"))
  shown_json :
    ListsReport (execute config device true (.inspect service)).stdout "rules" "errors" report
  started_json :
    ListsReport (execute config device true (.start service)).stdout "installed" "failures" report

theorem rules_notMem_automatonLines (target : Target) : "Rules:" ∉ automatonLines target := by
  intro h
  simp only [automatonLines, List.mem_append, List.mem_cons, List.mem_map, List.not_mem_nil,
    or_false] at h
  rcases h with ((h | h) | ⟨t, _, h⟩) | h | ⟨b, _, h⟩
  · have hclose : (toString ")").toList.getLast? = some ')' := rfl
    have hlast := congrArg (fun line => line.toList.getLast?) h
    simp [targetLine, hclose] at hlast
  · exact absurd h (by decide)
  · have hfirst := congrArg (fun line => line.toList.head?) h
    simp [transitionLine] at hfirst
  · exact absurd h (by decide)
  · have hfirst := congrArg (fun line => line.toList.head?) h
    simp [bindingLine] at hfirst

theorem printReport {config : Config} {schema : Schema} (hs : config.toSchema = .ok schema)
    {device : Option String} {service : String} {target : Target} {report : Report}
    (ht : Registry.defaults.targetNamed? service = some target)
    (hstart : ((controllerOf config schema device).startStatus service).2 = .ok report none)
    (hrules : (schema.overviewOf Registry.defaults target).rules = report.installed)
    (herrors : (schema.overviewOf Registry.defaults target).errors.map CompileError.message =
      report.failures.map RuleFailure.message) :
    PrintReport config device service target report where
  heading := rules_notMem_automatonLines target
  shown := by
    have hlines : (schema.overviewOf Registry.defaults target).errors.map
        (fun e => failureLine e.message) = report.failures.map fun f => failureLine f.message := by
      simpa [Function.comp_def] using congrArg (List.map failureLine) herrors
    rw [execute_inspect hs device ht, reportLines, ← hrules, ← hlines]
    simp [overviewOutput, Output.ofLines, Output.printed, automatonLines, Schema.overviewOf]
  started := by
    rw [execute_start hs, hstart]
    rfl
  shown_json := by
    rw [execute_inspect hs device ht]
    refine listsReport_ofJson ?_ ?_
    · rw [← hrules]
      rfl
    · rw [← herrors, List.map_map]
      rfl
  started_json := by
    rw [execute_start hs, hstart]
    refine listsReport_ofJson rfl ?_
    rw [List.map_map]
    rfl

/-- What is shown of a service is what a start of it installs and reports. -/
theorem shown_rules_are_those_installed (config : Config) (schema : Schema)
    (hs : config.toSchema = .ok schema) (device : Option String) (service : String) :
    (∀ target, Registry.defaults.targetNamed? service = some target →
      ∃ overview report d,
        (controllerOf config schema device).device? = some d ∧
        (controllerOf config schema device).overview target = .ok overview ∧
        ((controllerOf config schema device).startStatus service).2 = .ok report none ∧
        ((controllerOf config schema device).startStatus service).1.fabric.placed =
          report.installed.map (fun rule => (d, rule)) ∧
        overview.rules = report.installed ∧
        overview.errors.map CompileError.message = report.failures.map RuleFailure.message ∧
        PrintReport config device service target report) ∧
    (Registry.defaults.targetNamed? service = none →
      (∀ json,
        (execute config device json (.inspect service)).code.toNat = 1 ∧
        (execute config device json (.start service)).code.toNat = 1) ∧
      ((controllerOf config schema device).startStatus service).1.fabric.placed = []) := by
  constructor
  · intro target ht
    have hreg :
        (controllerOf config schema device).registry.targetNamed? service = some target := by
      rw [registry_controllerOf, ht]
    obtain ⟨d, hmem, hd⟩ := exists_device config device schema
    have hstart := Controller.startStatus_eq hreg hd
      (by rw [fabric_controllerOf]; exact hmem) (by rw [fabric_controllerOf]; rfl)
    simp only [schema_controllerOf, registry_controllerOf, fabric_controllerOf] at hstart
    have hoverview := overview_controllerOf config device schema ht
    have herrors : (schema.overviewOf Registry.defaults target).errors.map CompileError.message =
        ((Schema.refused (schema.serviceResults Registry.defaults target.id)).map
          RuleFailure.compile).map RuleFailure.message := by
      simp [Schema.overviewOf, RuleFailure.message, Function.comp_def]
    refine ⟨_, _, d, hd, hoverview, congrArg Prod.snd hstart, ?_, rfl, herrors, ?_⟩
    · rw [hstart]
      rfl
    · exact printReport hs ht (congrArg Prod.snd hstart) rfl herrors
  · intro hnone
    have hstart :
        (controllerOf config schema device).startStatus service =
          (controllerOf config schema device, .failed (.unknownService service)) := by
      apply Controller.startStatus_of_unknown
      rw [registry_controllerOf, hnone]
    refine ⟨fun json => ⟨?_, ?_⟩, ?_⟩
    · rw [execute_inspect_of_unknown hs device hnone]
      rfl
    · rw [execute_start hs, hstart]
      cases json <;> rfl
    · rw [hstart, fabric_controllerOf]
      rfl

/-- Room for two states and for none of the edges, and two devices of which the second becomes the
default. -/
def twoStatesConfig : Config :=
  { Config.ofSchema "two states" Schema.twoStates with
    devices := some ⟨none, ["s1#0", "s2#1"]⟩ }

/-- Of the balancer's six rules four do not compile here; what is printed of them. -/
theorem twoStatesConfig_shown :
    twoStatesConfig.toSchema = .ok Schema.twoStates ∧
      Registry.defaults.targetNamed? "slb" = some Balancer.target ∧
      Registry.defaults.targetNamed? "nat" = none ∧
      (∃ report,
        report.installed.length = 2 ∧
        ((controllerOf twoStatesConfig Schema.twoStates none).startStatus "slb").1.fabric.placed =
          report.installed.map (fun rule => ("s2#1", rule)) ∧
        reportLines report =
          ["  action_table           state_metadata.target_id=0x02 " ++
              "state_metadata.next_state=0x00 -> _drop()",
            "  action_table           state_metadata.target_id=0x02 " ++
              "state_metadata.next_state=0x01 -> forward(port=0x02)",
            "  ✗ cannot encode state_metadata.next_state: " ++
              "value 2 does not fit in 2 bits (signed: true)",
            "  ✗ schema error: unknown field: state_metadata.cur_state",
            "  ✗ schema error: unknown field: state_metadata.cur_state",
            "  ✗ schema error: unknown field: state_metadata.cur_state"] ∧
        (execute twoStatesConfig none false (.start "slb")).stdout =
          String.join (("✓ slb: started" :: reportLines report).map (· ++ "\n")) ∧
        (execute twoStatesConfig none false (.inspect "slb")).stdout =
          String.join
            ((["slb (target 2, lookup get_state_with_nothing)", "Transitions:",
                "    0 --[0x0000]--> 1", "    1 --[0x0000]--> 2", "    2 --[0x0000]--> 1",
                "Actions:", "    0 => drop", "    1 => output port 2", "    2 => output port 3",
                "Rules:"] ++ reportLines report).map (· ++ "\n")) ∧
        ListsReport (execute twoStatesConfig none true (.inspect "slb")).stdout "rules" "errors"
          report ∧
        ListsReport (execute twoStatesConfig none true (.start "slb")).stdout "installed" "failures"
          report) ∧
      ∀ json,
        (execute twoStatesConfig none json (.inspect "nat")).code.toNat = 1 ∧
        (execute twoStatesConfig none json (.start "nat")).code.toNat = 1 := by
  have hs : twoStatesConfig.toSchema = .ok Schema.twoStates :=
    (Schema.accept_wellFormed _).toSchema_ofSchema "two states"
  have hbalancer : Registry.defaults.targetNamed? "slb" = some Balancer.target := by decide
  have hnat : Registry.defaults.targetNamed? "nat" = none := by decide
  obtain ⟨_, report, d, hd, _, hstart, hplaced, _, _, hprint⟩ :=
    (shown_rules_are_those_installed twoStatesConfig _ hs none "slb").1 _ hbalancer
  have hreport : report =
      ((controllerOf twoStatesConfig Schema.twoStates none).startStatus "slb").2.report := by
    rw [hstart]
    rfl
  have hdevice : (controllerOf twoStatesConfig Schema.twoStates none).device? = some "s2#1" := by
    decide +kernel
  obtain rfl : "s2#1" = d := Option.some.inj (hdevice.symm.trans hd)
  have hautomaton : automatonLines Balancer.target =
      ["slb (target 2, lookup get_state_with_nothing)", "Transitions:",
        "    0 --[0x0000]--> 1", "    1 --[0x0000]--> 2", "    2 --[0x0000]--> 1",
        "Actions:", "    0 => drop", "    1 => output port 2", "    2 => output port 3"] := by
    decide +kernel
  refine ⟨hs, hbalancer, hnat, ⟨report, ?_, hplaced, ?_, hprint.started, ?_, hprint.shown_json,
    hprint.started_json⟩, ?_⟩
  · rw [hreport]
    decide +kernel
  · rw [hreport]
    decide +kernel
  · rw [hprint.shown, hautomaton]
    rfl
  · exact ((shown_rules_are_those_installed twoStatesConfig _ hs none "nat").2 hnat).1

end CommandLine
end StatefulPipeline
