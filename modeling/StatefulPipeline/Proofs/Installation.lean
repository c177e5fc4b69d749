import Mathlib.Data.List.Nodup
import StatefulPipeline.Proofs.ControllerRuns
import StatefulPipeline.Proofs.InstallOrder

/-! What reaches the devices. Rules are only ever appended, one by one and without those that fail;
so whatever an operation places is part of the rules of one service or of one flow, and what has
been placed stays. A start whose report has no failures places every rule of its service. -/

namespace StatefulPipeline

namespace Fabric

variable {f f' : Fabric} {device : DeviceId} {rule : Rule}

/-- Why a device would not take a rule for a table. -/
def refusal? (f : Fabric) (device : DeviceId) (table : Table) : Option InstallError :=
  if device ∈ f.devices then
    if table ∈ f.failing then some (.rejected device table) else none
  else some (.deviceUnavailable device)

theorem install_singleton (f : Fabric) (device : DeviceId) (rule : Rule) :
    f.install device [rule] =
      match f.refusal? device rule.table with
      | some e => .error e
      | none => .ok { f with placed := f.placed ++ [(device, rule)] } := by
  rw [install, refusal?]
  split_ifs with hd hf
  · simp [hf]
  · simp [hf]
  · rfl

theorem install_singleton_eq_ok (h : f.install device [rule] = .ok f') :
    f' = { f with placed := f.placed ++ [(device, rule)] } := by
  rw [install_singleton] at h
  split at h
  · cases h
  · exact (Except.ok.inj h).symm

section Steps

variable {rest : List (Except CompileError Rule)}

theorem installEach_refused (e : CompileError) :
    f.installEach device (.error e :: rest) =
      ((f.installEach device rest).1,
        { (f.installEach device rest).2 with
          failures := .compile e :: (f.installEach device rest).2.failures }) := by
  simp [installEach]

theorem installEach_installed (h : f.install device [rule] = .ok f') :
    f.installEach device (.ok rule :: rest) =
      ((f'.installEach device rest).1,
        { (f'.installEach device rest).2 with
          installed := rule :: (f'.installEach device rest).2.installed }) := by
  simp [installEach, h]

theorem installEach_rejected {e : InstallError} (h : f.install device [rule] = .error e) :
    f.installEach device (.ok rule :: rest) =
      ((f.installEach device rest).1,
        { (f.installEach device rest).2 with
          failures := .install rule.table e :: (f.installEach device rest).2.failures }) := by
  simp [installEach, h]

end Steps

theorem installEach_fst (f : Fabric) (device : DeviceId)
    (results : List (Except CompileError Rule)) :
    (f.installEach device results).1 = { f with
      placed := f.placed ++
        (f.installEach device results).2.installed.map fun r => (device, r) } := by
  induction results generalizing f with
  | nil => simp [installEach, Report.empty]
  | cons result rest ih =>
    cases result with
    | error e => exact ih f
    | ok rule =>
      cases hi : f.install device [rule] with
      | error e =>
        rw [installEach_rejected hi]
        exact ih f
      | ok f' =>
        rw [installEach_installed hi, ih f', install_singleton_eq_ok hi]
        simp

def failure? (f : Fabric) (device : DeviceId) : Except CompileError Rule → Option RuleFailure
  | .error e => some (.compile e)
  | .ok rule => (f.refusal? device rule.table).map (.install rule.table)

/-- Every result has its place in the report, whatever became of those before it. -/
theorem installEach_snd (f : Fabric) (device : DeviceId)
    (results : List (Except CompileError Rule)) :
    (f.installEach device results).2 =
      ⟨(Schema.compiled results).filter fun r => (f.refusal? device r.table).isNone,
        results.filterMap (f.failure? device)⟩ := by
  induction results generalizing f with
  | nil => rfl
  | cons result rest ih =>
    cases result with
    | error e =>
      rw [installEach_refused, ih f]
      rfl
    | ok rule =>
      have hc : Schema.compiled (.ok rule :: rest) = rule :: Schema.compiled rest := rfl
      have hi := f.install_singleton device rule
      rw [hc, List.filter_cons, List.filterMap_cons, failure?]
      cases hr : f.refusal? device rule.table with
      | some e =>
        rw [hr] at hi
        rw [installEach_rejected hi, ih f]
        rfl
      | none =>
        rw [hr] at hi
        rw [installEach_installed hi, ih]
        rfl

theorem installEach_sublist (f : Fabric) (device : DeviceId)
    (results : List (Except CompileError Rule)) :
    (f.installEach device results).2.installed.Sublist (Schema.compiled results) := by
  rw [installEach_snd]
  exact List.filter_sublist

theorem eq_installed_of_no_failures {results : List (Except CompileError Rule)}
    (h : (f.installEach device results).2.failures = []) :
    results = (f.installEach device results).2.installed.map .ok := by
  induction results generalizing f with
  | nil => rfl
  | cons result rest ih =>
    cases result with
    | error e => exact absurd h (List.cons_ne_nil _ _)
    | ok rule =>
      cases hi : f.install device [rule] with
      | error e =>
        rw [installEach_rejected hi] at h
        exact absurd h (List.cons_ne_nil _ _)
      | ok f' =>
        rw [installEach_installed hi] at h ⊢
        exact congrArg (Except.ok rule :: ·) (ih h)

theorem mem_installed {f : Fabric} {device : DeviceId} {rule : Rule} :
    rule ∈ f.installed device ↔ (device, rule) ∈ f.placed := by
  simp only [installed, List.mem_filterMap]
  constructor
  · rintro ⟨⟨d, r⟩, hm, hr⟩
    split_ifs at hr with hd
    obtain rfl : d = device := hd
    obtain rfl : r = rule := Option.some.inj hr
    exact hm
  · intro hm
    exact ⟨(device, rule), hm, if_pos rfl⟩

theorem installed_place (f : Fabric) (device d : DeviceId) (rules : List Rule) :
    ({ f with placed := f.placed ++ rules.map fun r => (device, r) } : Fabric).installed d =
      f.installed d ++ if device = d then rules else [] := by
  simp only [installed, List.filterMap_append, List.filterMap_map]
  split_ifs with h
  · simp [h]
  · simp [h]

theorem isNone_refusal?_iff {f : Fabric} {device : DeviceId} {table : Table} :
    (f.refusal? device table).isNone = true ↔ device ∈ f.devices ∧ table ∉ f.failing := by
  rw [refusal?]
  split_ifs with hd hf
  · simp [hf]
  · simp [hd, hf]
  · simp [hd]

/-- Each result is a rule that is taken or a failure, and not both. -/
theorem length_taken_add_failed (f : Fabric) (device : DeviceId)
    (results : List (Except CompileError Rule)) :
    ((Schema.compiled results).filter fun r => (f.refusal? device r.table).isNone).length +
      (results.filterMap (f.failure? device)).length = results.length := by
  induction results with
  | nil => rfl
  | cons result rest ih =>
    cases result with
    | error e =>
      have hc : Schema.compiled (.error e :: rest) = Schema.compiled rest := rfl
      rw [hc, List.filterMap_cons, failure?, List.length_cons, List.length_cons, ← ih,
        Nat.add_assoc]
    | ok rule =>
      have hc : Schema.compiled (.ok rule :: rest) = rule :: Schema.compiled rest := rfl
      rw [hc, List.filter_cons, List.filterMap_cons, failure?, List.length_cons, ← ih]
      cases f.refusal? device rule.table with
      | none => simp [Nat.add_right_comm]
      | some e => simp [Nat.add_assoc]

end Fabric

/-- What a report says of results that were handed to a device one by one. -/
structure Report.Faithful (report : Report) (before after : Fabric) (device : DeviceId)
    (results : List (Except CompileError Rule)) : Prop where
  appended : after.installed device = before.installed device ++ report.installed
  elsewhere : ∀ d, d ≠ device → after.installed d = before.installed d
  taken : report.installed = (Schema.compiled results).filter fun r =>
    device ∈ before.devices ∧ r.table ∉ before.failing
  failed : report.failures = results.filterMap (before.failure? device)
  accounted : report.installed.length + report.failures.length = results.length
  ordered : report.installed.Pairwise fun a b => b.table.id ≤ a.table.id

theorem Fabric.installEach_faithful (f : Fabric) (device : DeviceId)
    {results : List (Except CompileError Rule)}
    (h : Rule.InInstallOrder (Schema.compiled results)) :
    (f.installEach device results).2.Faithful f (f.installEach device results).1 device
      results where
  appended := by rw [installEach_fst, installed_place, if_pos rfl]
  elsewhere d hd := by rw [installEach_fst, installed_place, if_neg (Ne.symm hd), List.append_nil]
  taken := by
    rw [installEach_snd]
    apply List.filter_congr
    intro rule _
    rw [Bool.eq_iff_iff, isNone_refusal?_iff, decide_eq_true_eq]
  failed := by rw [installEach_snd]
  accounted := by
    rw [installEach_snd]
    exact f.length_taken_add_failed device results
  ordered := List.Pairwise.sublist (f.installEach_sublist device results) h

theorem Schema.compiled_map_ok (rules : List Rule) : compiled (rules.map .ok) = rules := by
  simp [compiled, List.filterMap_map]

/-- Rules that come in the order of installation are handed over as they come. -/
theorem Fabric.installEach_sorted_faithful (f : Fabric) (device : DeviceId) {rules : List Rule}
    (h : Rule.InInstallOrder rules) :
    (f.installEach device ((Rule.sortForInstall rules).map .ok)).2.Faithful f
      (f.installEach device ((Rule.sortForInstall rules).map .ok)).1 device (rules.map .ok) := by
  rw [h.sortForInstall_eq]
  apply installEach_faithful
  rw [Schema.compiled_map_ok]
  exact h

theorem Schema.compileFlow_eq_ok {schema : Schema} {target : Target} {register : RegisterId}
    {selector : Selector} {port : Option Port} {rules : List Rule}
    (h : schema.compileFlow target register selector port = .ok rules) :
    (rules.map Rule.table).Nodup ∧ ∀ rule ∈ rules,
      rule.OfFlow ∧ schema.exactAll selector.terms = .ok rule.terms := by
  unfold compileFlow at h
  split at h
  · exact absurd h (by simp)
  · rename_i lookup hlookup
    obtain ⟨hstate, hterms⟩ := compileLookup_eq_ok hlookup
    have hl := (selectorTerms_eq_ok_iff.mp hterms).2.2
    cases port with
    | none =>
      obtain rfl := Except.ok.inj h
      simp [Rule.OfFlow, hstate, hl]
    | some p =>
      simp only at h
      split at h
      · exact absurd h (by simp)
      · rename_i forward hforward
        obtain ⟨hport, hterms'⟩ := compileForward_eq_ok hforward
        have hf := (selectorTerms_eq_ok_iff.mp hterms').2.2
        obtain rfl := Except.ok.inj h
        refine ⟨by simp [hstate, hport], ?_⟩
        simp only [List.forall_mem_cons]
        exact ⟨⟨.inl hstate, hl⟩, ⟨.inr hport, hf⟩, by simp⟩

theorem Registry.isSome_target?_of_named {r : Registry} {name : String} {target : Target}
    (h : r.targetNamed? name = some target) : (r.target? target.id).isSome := by
  obtain ⟨m, hm, rfl⟩ := Option.map_eq_some_iff.mp h
  have hmem := List.mem_of_find?_eq_some hm
  rw [target?, Option.isSome_map, machine?, List.find?_isSome]
  exact ⟨m, hmem, by simp⟩

/-- A start that went ahead: of which target, on which device, and what became of its rules. -/
structure Start where
  target : TargetId
  device : DeviceId
  report : Report
deriving DecidableEq, Repr

namespace Controller

variable (c : Controller)

/-- The start that an operation makes: of a known service, with a device at hand. -/
def start? : ControlRequest → Option Start
  | .start service =>
    match c.target service, c.device?, (c.start service).2 with
    | .ok target, some device, .ok report => some ⟨target.id, device, report⟩
    | _, _, _ => none
  | _ => none

/-- What an operation can append to the rules on the devices. -/
inductive Places (q : ControlRequest) : List (DeviceId × Rule) → Prop
  | nothing : Places q []
  | service {s : Start} :
      c.start? q = some s → Places q (s.report.installed.map fun r => (s.device, r))
  | flow {b : BindRequest} {target : Target} {d : DeviceId} {register : RegisterId}
      {rules placed : List Rule} :
      q = .bind b →
      c.owners.get? b.selector.key = none →
      (c.bind b).1.owners.get? b.selector.key = some (target.id, register) →
      c.schema.compileFlow target register b.selector b.port = .ok rules →
      placed.Sublist (Rule.sortForInstall rules) →
      Places q (placed.map fun r => (d, r))

variable {c}

theorem start_eq_of_known {service : String} {target : Target} {d : DeviceId}
    (ht : c.target service = .ok target) (hd : c.device? = some d) :
    c.start service =
      ({ c with
          defaultDevice := some d
          fabric := (c.fabric.installEach d (c.schema.serviceResults c.registry target.id)).1 },
        .ok (c.fabric.installEach d (c.schema.serviceResults c.registry target.id)).2) := by
  have hs : c.schema.compileService c.registry target.id =
      .ok (c.schema.serviceResults c.registry target.id) :=
    Schema.compileService_eq_ok_iff.mpr
      ⟨Registry.isSome_target?_of_named (target_eq_ok_iff.mp ht), rfl⟩
  simp [start, ht, hd, hs, withDefaultDevice]

theorem start?_eq_some {q : ControlRequest} {s : Start} (h : c.start? q = some s) :
    s.report =
        (c.fabric.installEach s.device (c.schema.serviceResults c.registry s.target)).2 ∧
      (c.handle q).1.fabric.placed =
        c.fabric.placed ++ s.report.installed.map fun r => (s.device, r) := by
  cases q with
  | start service =>
    simp only [start?] at h
    split at h
    · rename_i target device report ht hd hreport
      obtain rfl := Option.some.inj h
      have hstart := start_eq_of_known ht hd
      obtain rfl := Except.ok.inj ((congrArg Prod.snd hstart).symm.trans hreport)
      exact ⟨rfl, by rw [handle, hstart, Fabric.installEach_fst]⟩
    · exact absurd h (by simp)
  | _ => exact absurd h (by simp [start?])

theorem ok_mem_of_installed {q : ControlRequest} {s : Start} (h : c.start? q = some s)
    {rule : Rule} (hm : rule ∈ s.report.installed) :
    .ok rule ∈ c.schema.serviceResults c.registry s.target := by
  rw [(start?_eq_some h).1] at hm
  exact Schema.mem_compiled.mp ((Fabric.installEach_sublist _ _ _).subset hm)

theorem places_of_start (c : Controller) (service : String) :
    ∃ new, (c.handle (.start service)).1.fabric.placed = c.fabric.placed ++ new ∧
      c.Places (.start service) new := by
  cases hs : c.start? (.start service) with
  | some s => exact ⟨_, (start?_eq_some hs).2, .service hs⟩
  | none =>
    refine ⟨[], ?_, .nothing⟩
    cases ht : c.target service with
    | error e => simp [handle, start, ht]
    | ok target =>
      cases hd : c.device? with
      | none => simp [handle, start, ht, hd]
      | some d => simp [start?, ht, hd, start_eq_of_known ht hd] at hs

theorem places_of_bind (c : Controller) (b : BindRequest) :
    ∃ new, (c.bind b).1.fabric.placed = c.fabric.placed ++ new ∧ c.Places (.bind b) new := by
  cases hresult : (c.bind b).2 with
  | error e =>
    have hend := c.bindEnd b
    rw [hresult] at hend
    have hfabric : (c.bind b).1.fabric = c.fabric := by rw [hend.error_frame]
    exact ⟨[], by rw [hfabric, List.append_nil], .nothing⟩
  | ok o =>
    obtain ⟨target, d, max, rules, ha, _, hflow, hafter, _⟩ := bind_eq_ok hresult
    have hsub := c.fabric.installEach_sublist d ((Rule.sortForInstall rules).map .ok)
    rw [Schema.compiled_map_ok] at hsub
    have howner : (c.bind b).1.owners.get? b.selector.key = some (target.id, o.register) := by
      rw [hafter, afterBind_owners, SortedMap.get?_insert, if_pos rfl]
    refine ⟨_, ?_, .flow (d := d) rfl ha.selector_free howner hflow hsub⟩
    rw [hafter, afterBind, Fabric.installEach_fst]

/-- Every operation appends to the rules on the devices, and nothing else happens to them. -/
theorem handle_places (c : Controller) (q : ControlRequest) :
    ∃ new, (c.handle q).1.fabric.placed = c.fabric.placed ++ new ∧ c.Places q new := by
  cases q with
  | deviceInitialized device =>
    refine ⟨[], ?_, .nothing⟩
    simp only [handle, deviceInitialized]
    split_ifs <;> simp [withDefaultDevice]
  | failTable table => exact ⟨[], (List.append_nil _).symm, .nothing⟩
  | start service => exact c.places_of_start service
  | stop service => exact ⟨[], (List.append_nil _).symm, .nothing⟩
  | bind b => exact c.places_of_bind b

end Controller
end StatefulPipeline
