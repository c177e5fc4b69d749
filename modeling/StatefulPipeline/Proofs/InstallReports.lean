import StatefulPipeline.Proofs.OutputPorts

/-! Reports of installation. Rules go to a device one by one, and what becomes of one depends on its
table and on the device alone; so a report accounts for every result that it was given, whatever
became of those before it. Main statement: after a start or a bind, the device that was chosen holds
what the report lists and nothing else is new, and rules of later tables came first. -/

namespace StatefulPipeline

theorem Schema.compileFlow_ordered {schema : Schema} {target : Target} {register : RegisterId}
    {selector : Selector} {port : Option Port} {rules : List Rule}
    (h : schema.compileFlow target register selector port = .ok rules) :
    rules.length = (if port.isSome then 2 else 1) ∧ Rule.InInstallOrder rules := by
  rcases schema.compileFlow_port target register selector (port.getD 0) with
    ⟨e, hnone, hsome⟩ | ⟨lookup, forward, hrules, hnone, hsome⟩
  · cases port with
    | none => cases h.symm.trans hnone
    | some p => cases h.symm.trans hsome
  · cases port with
    | none =>
      obtain rfl := Except.ok.inj (h.symm.trans hnone)
      exact ⟨rfl, List.pairwise_singleton _ _⟩
    | some p =>
      obtain rfl := Except.ok.inj (h.symm.trans hsome)
      exact ⟨rfl, hrules.inInstallOrder⟩

namespace Controller

variable {c : Controller}

theorem known_of_started {service : String} {report : Report}
    (h : (c.start service).2 = .ok report) :
    ∃ target device, c.target service = .ok target ∧ c.device? = some device := by
  cases ht : c.target service with
  | error e => simp [start, ht] at h
  | ok target =>
    cases hd : c.device? with
    | none => simp [start, ht, hd] at h
    | some device => exact ⟨target, device, rfl, rfl⟩

/-- A report accounts for every rule of a start or bind, and the device holds what it lists. -/
theorem reports_are_faithful (c : Controller) :
    (∀ service report, (c.start service).2 = .ok report →
      ∃ target device results,
        c.target service = .ok target ∧ c.device? = some device ∧
        c.schema.compileService c.registry target.id = .ok results ∧
        results.length = (c.registry.actionsFor target.id).length +
          (c.registry.transitionsFor target.id).length ∧
        report.Faithful c.fabric (c.start service).1.fabric device results) ∧
      ∀ q o, (c.bind q).2 = .ok o →
        ∃ target device rules,
          c.target q.service = .ok target ∧ c.device? = some device ∧
          c.schema.compileFlow target o.register q.selector q.port = .ok rules ∧
          rules.length = (if q.port.isSome then 2 else 1) ∧
          o.report.Faithful c.fabric (c.bind q).1.fabric device (rules.map .ok) := by
  constructor
  · intro service report h
    obtain ⟨target, device, ht, hd⟩ := known_of_started h
    have hstart := start_eq_of_known ht hd
    rw [hstart] at h ⊢
    obtain rfl := Except.ok.inj h
    refine ⟨target, device, _, ht, hd, Schema.compileService_eq_ok_iff.mpr ⟨?_, rfl⟩, ?_, ?_⟩
    · exact Registry.isSome_target?_of_named (target_eq_ok_iff.mp ht)
    · simp [Schema.serviceResults]
    · exact c.fabric.installEach_faithful device
        (c.schema.serviceResults_inInstallOrder c.registry target.id)
  · intro q o h
    obtain ⟨target, device, max, rules, ha, _, hflow, hafter, hreport⟩ := bind_eq_ok h
    obtain ⟨hlength, hordered⟩ := Schema.compileFlow_ordered hflow
    refine ⟨target, device, rules, ha.service_known, ha.device_found, hflow, hlength, ?_⟩
    rw [hreport, hafter]
    exact c.fabric.installEach_sorted_faithful device hordered

/-- What does not compile or is rejected does not hold up what comes after it. -/
theorem halfFailing_reports :
    (∃ report, (halfFailing.start "slb").2 = .ok report ∧
        report.installed.map Rule.table = [.action, .action] ∧ report.failures.length = 4 ∧
        (halfFailing.start "slb").1.fabric.installed "s1#0" = report.installed) ∧
      ∃ o, (halfFailing.bind ⟨"slb", none, source 1, some 2⟩).2 = .ok o ∧
        o.report.installed.map Rule.table = [.forward] ∧ o.report.failures.length = 1 := by
  obtain ⟨hstart, hbind⟩ := reports_are_faithful halfFailing
  have hdevice : halfFailing.device? = some "s1#0" := by decide
  have hempty : halfFailing.fabric.installed "s1#0" = [] := by decide
  constructor
  · obtain ⟨report, hreport⟩ : ∃ report, (halfFailing.start "slb").2 = .ok report := ⟨_, rfl⟩
    have htables : (halfFailing.start "slb").2.toOption.map (fun r => r.installed.map Rule.table) =
        some [.action, .action] := by decide
    obtain ⟨target, device, results, ht, hd, _, hlength, hfaithful⟩ := hstart "slb" report hreport
    obtain rfl : Balancer.target = target := Except.ok.inj ht
    obtain rfl : "s1#0" = device := Option.some.inj (hdevice.symm.trans hd)
    rw [hreport] at htables
    have htaken := Option.some.inj htables
    have hsix : results.length = 6 := hlength
    have htwo : report.installed.length = 2 := by simpa using congrArg List.length htaken
    have hall := hfaithful.accounted
    have hafter := hfaithful.appended
    rw [hempty, List.nil_append] at hafter
    exact ⟨report, hreport, htaken, by omega, hafter⟩
  · obtain ⟨o, ho⟩ : ∃ o, (halfFailing.bind ⟨"slb", none, source 1, some 2⟩).2 = .ok o := ⟨_, rfl⟩
    have htables : (halfFailing.bind ⟨"slb", none, source 1, some 2⟩).2.toOption.map
        (fun o => o.report.installed.map Rule.table) = some [.forward] := by decide
    obtain ⟨_, _, rules, _, _, _, hlength, hfaithful⟩ := hbind _ o ho
    rw [ho] at htables
    have htaken := Option.some.inj htables
    have hone : o.report.installed.length = 1 := by simpa using congrArg List.length htaken
    have hall := hfaithful.accounted
    simp only [List.length_map, hlength, Option.isSome_some, if_true] at hall
    exact ⟨o, ho, htaken, by omega⟩

end Controller
end StatefulPipeline
