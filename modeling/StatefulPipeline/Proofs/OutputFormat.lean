import StatefulPipeline.Proofs.FormatReading
import StatefulPipeline.Proofs.ShownRules

/-! The output format and the exit code. The format does not change the exit code, with one
exception: an automaton that is shown with rules that do not compile is a failure as text and a
success as JSON. -/

namespace StatefulPipeline

theorem Schema.mem_refused {results : List (Except CompileError Rule)} {e : CompileError} :
    e ∈ refused results ↔ .error e ∈ results := by
  unfold refused
  rw [List.mem_filterMap]
  constructor
  · rintro ⟨result, hmem, he⟩
    cases result with
    | ok rule => simp at he
    | error e' =>
      rw [← Option.some.inj he]
      exact hmem
  · intro hmem
    exact ⟨.error e, hmem, rfl⟩

namespace CommandLine

@[simp] theorem code_statusOutput (json : Bool) (operation service : String) (status : Status) :
    (statusOutput json operation service status).code = status.code := by
  cases json with
  | true => rfl
  | false =>
    rw [statusOutput]
    cases status.error <;> rfl

theorem code_overviewOutput (json : Bool) (o : Overview) :
    (overviewOutput json o).code =
      if json = false ∧ o.errors ≠ [] then .failure else .ok := by
  cases json with
  | true => rfl
  | false => by_cases h : o.errors = [] <;> simp [overviewOutput, Output.ofLines, Output.printed, h]

/-- The invocation shows a registered service of which some rule does not compile. -/
def Invocation.ShowsRefused (inv : Invocation) (file : Option ByteArray) : Prop :=
  ∃ config schema service target results e,
    inv.load file = .ok config ∧ config.toSchema = .ok schema ∧
    inv.command = .inspect service ∧ Registry.defaults.targetNamed? service = some target ∧
    schema.compileService Registry.defaults target.id = .ok results ∧ .error e ∈ results

theorem code_execute_of_ne_inspect (config : Config) (device : Option String) {command : Command}
    (h : ∀ service, command ≠ .inspect service) (json json' : Bool) :
    (execute config device json command).code = (execute config device json' command).code := by
  rw [execute, execute]
  cases config.toSchema with
  | error e => rfl
  | ok schema =>
    cases command with
    | start service => simp [start]
    | stop service => cases json <;> cases json' <;> rfl
    | bind service flow output register =>
      simp only [bind]
      cases flow.selector with
      | error text => rfl
      | ok selector => simp
    | inspect service => exact absurd rfl (h service)
    | schema => cases json <;> cases json' <;> rfl

namespace Invocation

variable {inv : Invocation} {file : Option ByteArray}

def code (inv : Invocation) (file : Option ByteArray) (json : Bool) : ExitCode :=
  ({ inv with json := json }.run file).code

theorem code_of_load {config : Config} (h : inv.load file = .ok config) (json : Bool) :
    inv.code file json = (execute config inv.device json inv.command).code := by
  have hload : { inv with json := json }.load file = .ok config := h
  rw [code, run, hload]

theorem code_of_showsRefused (h : inv.ShowsRefused file) :
    inv.code file true = .ok ∧ inv.code file false = .failure := by
  obtain ⟨config, schema, service, target, results, e, hl, hs, hc, ht, hresults, he⟩ := h
  obtain ⟨_, rfl⟩ := Schema.compileService_eq_ok_iff.mp hresults
  have herrors : (schema.overviewOf Registry.defaults target).errors ≠ [] :=
    List.ne_nil_of_mem (Schema.mem_refused.mpr he)
  have hcode (json : Bool) : inv.code file json = if json = false then .failure else .ok := by
    rw [code_of_load hl, hc, execute_inspect hs inv.device ht, code_overviewOutput]
    simp [herrors]
  exact ⟨hcode true, hcode false⟩

theorem code_of_not_showsRefused (h : ¬ inv.ShowsRefused file) (json json' : Bool) :
    inv.code file json = inv.code file json' := by
  cases hl : inv.load file with
  | error path =>
    have hload (b : Bool) : { inv with json := b }.load file = .error path := hl
    rw [code, code, run, run, hload, hload]
  | ok config =>
    rw [code_of_load hl, code_of_load hl]
    by_cases hi : ∃ service, inv.command = .inspect service
    · obtain ⟨service, hc⟩ := hi
      rw [hc]
      cases hs : config.toSchema with
      | error e => simp [execute, hs]
      | ok schema =>
        cases ht : Registry.defaults.targetNamed? service with
        | none =>
          rw [execute_inspect_of_unknown hs inv.device ht,
            execute_inspect_of_unknown hs inv.device ht]
        | some target =>
          have hresults : schema.compileService Registry.defaults target.id =
              .ok (schema.serviceResults Registry.defaults target.id) :=
            Schema.compileService_eq_ok_iff.mpr ⟨Registry.isSome_target?_of_named ht, rfl⟩
          have herrors : (schema.overviewOf Registry.defaults target).errors = [] := by
            refine List.eq_nil_iff_forall_not_mem.mpr fun e he => h ?_
            exact ⟨config, schema, service, target, _, e, hl, hs, hc, ht, hresults,
              Schema.mem_refused.mp he⟩
          rw [execute_inspect hs inv.device ht, execute_inspect hs inv.device ht,
            code_overviewOutput, code_overviewOutput]
          simp [herrors]
    · exact code_execute_of_ne_inspect config inv.device (not_exists.mp hi) json json'

end Invocation

/-- The format matters to the exit code only where rules are shown that do not compile. -/
theorem format_decides_code_only_for_refused_rules (dir : Directory) :
    (∀ inv : Invocation,
      (inv.ShowsRefused (inv.config.bind dir.read?) →
        inv.code (inv.config.bind dir.read?) true = .ok ∧
        inv.code (inv.config.bind dir.read?) false = .failure) ∧
      (¬ inv.ShowsRefused (inv.config.bind dir.read?) →
        inv.code (inv.config.bind dir.read?) true = inv.code (inv.config.bind dir.read?) false)) ∧
    ∀ args : List String,
      (runIn dir ("--format" :: "json" :: args)).map Output.code ≠
          (runIn dir ("--format" :: "text" :: args)).map Output.code ↔
        ∃ inv : Invocation,
          Request.read ("--format" :: "json" :: args) = .run { inv with json := true } ∧
          Request.read ("--format" :: "text" :: args) = .run { inv with json := false } ∧
          inv.ShowsRefused (inv.config.bind dir.read?) := by
  refine ⟨fun inv => ⟨Invocation.code_of_showsRefused, ?_⟩, fun args => ⟨fun hne => ?_, ?_⟩⟩
  · intro h
    exact Invocation.code_of_not_showsRefused h true false
  · rcases read_format_cases args with hsame | ⟨inv, hinv, hinv'⟩
    · exact absurd (by rw [runIn, runIn, hsame]) hne
    · refine ⟨inv, hinv, hinv', ?_⟩
      by_contra hshows
      apply hne
      rw [runIn, runIn, hinv, hinv']
      exact congrArg some (Invocation.code_of_not_showsRefused hshows true false)
  · rintro ⟨inv, hinv, hinv', hshows⟩ heq
    obtain ⟨hok, hfailure⟩ := Invocation.code_of_showsRefused hshows
    rw [runIn, runIn, hinv, hinv'] at heq
    have hcodes : inv.code (inv.config.bind dir.read?) true =
        inv.code (inv.config.bind dir.read?) false := Option.some.inj heq
    rw [hok, hfailure] at hcodes
    cases hcodes

/-- A configuration that declares no field, so that no rule compiles. -/
def bareFile : ByteArray := "[pipeline]\nname = \"bare\"\n".toUTF8

theorem bareFile_codes_differ :
    (runIn [("sfp4.toml", bareFile)]
      ["--format", "json", "--config", "sfp4.toml", "show", "slb"]).map Output.code = some .ok ∧
    (runIn [("sfp4.toml", bareFile)]
      ["--format", "text", "--config", "sfp4.toml", "show", "slb"]).map Output.code =
        some .failure := by
  decide +kernel

end CommandLine
end StatefulPipeline
