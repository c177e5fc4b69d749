import Mathlib.Data.List.Forall2
import StatefulPipeline.Compile
import StatefulPipeline.Proofs.Encoding
import StatefulPipeline.Proofs.TableLookup

/-! What compiled rules ask of a key and what they write. Automaton metadata is never negative, so
the terms of a compiled edge, read back, are the very key of the edge, whatever widths and signs
the schema gives its fields; and its parameter, read back, is the next state. -/

namespace StatefulPipeline

def FieldMatch.entry (m : FieldMatch) : FieldRef × Nat := (m.field, m.value.toNat)

theorem Rule.matchesKey_iff_subset {rule : Rule} {key : PacketKey} :
    rule.matchesKey key = true ↔ rule.terms.map FieldMatch.entry ⊆ key := by
  rw [matchesKey_iff]
  exact List.forall_mem_map.symm

theorem Rule.matchesKey_of_entries {rule : Rule} {key : PacketKey}
    (h : rule.terms.map FieldMatch.entry = key) : rule.matchesKey key = true := by
  rw [matchesKey_iff_subset, h]
  exact List.Subset.refl key

/-- A rule for traffic as a bind installs it: of the state table or of the forward table. -/
def Rule.OfFlow (rule : Rule) : Prop := rule.table = .state ∨ rule.table = .forward

namespace Selector

theorem firstRepeated_eq_none_iff {seen fs : List FieldRef} :
    firstRepeated seen fs = none ↔ fs.Nodup ∧ ∀ f ∈ fs, f ∉ seen := by
  induction fs generalizing seen with
  | nil => simp [firstRepeated]
  | cons f fs ih =>
    rw [firstRepeated, List.nodup_cons, List.forall_mem_cons]
    split_ifs with hf
    · simp [hf]
    · rw [ih]
      constructor
      · rintro ⟨hn, hs⟩
        refine ⟨⟨fun hm => hs f hm List.mem_cons_self, hn⟩, hf, ?_⟩
        intro g hg hseen
        exact hs g hg (List.mem_cons_of_mem f hseen)
      · rintro ⟨⟨hm, hn⟩, _, hs⟩
        refine ⟨hn, ?_⟩
        intro g hg hseen
        rcases List.mem_cons.mp hseen with rfl | hseen
        · exact hm hg
        · exact hs g hg hseen

theorem repeated?_eq_none_iff {s : Selector} : s.repeated? = none ↔ s.refs.Nodup := by
  simp [repeated?, firstRepeated_eq_none_iff]

end Selector

namespace Schema

variable {schema : Schema}

theorem exact_eq_ok_iff {field : FieldRef} {value : Int} {m : FieldMatch} :
    schema.exact field value = .ok m ↔
      m.field = field ∧ ∃ spec, schema.field field = .ok spec ∧
        Encoded.fitAs spec.signed value spec.width.toNat = .ok m.value := by
  obtain ⟨ref, encoded⟩ := m
  unfold exact
  cases schema.field field with
  | error e => simp
  | ok spec =>
    cases hf : Encoded.fitAs spec.signed value spec.width.toNat with
    | error e => simp [hf]
    | ok written => simp [hf, eq_comm]

theorem exactAll_eq_ok_iff {terms : List (FieldRef × Int)} {ms : List FieldMatch} :
    schema.exactAll terms = .ok ms ↔
      List.Forall₂ (fun t m => schema.exact t.1 t.2 = .ok m) terms ms := by
  induction terms generalizing ms with
  | nil => simp [exactAll, eq_comm]
  | cons t ts ih =>
    cases ht : schema.exact t.1 t.2 with
    | error e => simp [exactAll, ht, List.forall₂_cons_left_iff]
    | ok m =>
      cases hts : schema.exactAll ts with
      | error e =>
        have hnone (rest : List FieldMatch) :
            ¬ List.Forall₂ (fun t m => schema.exact t.1 t.2 = .ok m) ts rest := by
          rw [← ih, hts]
          simp
        simp [exactAll, ht, hts, List.forall₂_cons_left_iff, hnone]
      | ok ms' =>
        have hrest (rest : List FieldMatch) :
            List.Forall₂ (fun t m => schema.exact t.1 t.2 = .ok m) ts rest ↔ ms' = rest := by
          rw [← ih, hts, Except.ok.injEq]
        simp [exactAll, ht, hts, List.forall₂_cons_left_iff, hrest, @eq_comm _ ms]

theorem exactAll_covers {terms : List (FieldRef × Int)} {ms : List FieldMatch}
    (h : schema.exactAll terms = .ok ms) :
    (∀ t ∈ terms, ∃ m ∈ ms, schema.exact t.1 t.2 = .ok m) ∧
      ∀ m ∈ ms, ∃ t ∈ terms, schema.exact t.1 t.2 = .ok m := by
  rw [exactAll_eq_ok_iff] at h
  induction h with
  | nil => simp
  | @cons t m terms ms ht _ ih =>
    constructor
    · rw [List.forall_mem_cons]
      refine ⟨⟨m, List.mem_cons_self, ht⟩, fun u hu => ?_⟩
      obtain ⟨n, hn, he⟩ := ih.1 u hu
      exact ⟨n, List.mem_cons_of_mem m hn, he⟩
    · rw [List.forall_mem_cons]
      refine ⟨⟨t, List.mem_cons_self, ht⟩, fun n hn => ?_⟩
      obtain ⟨u, hu, he⟩ := ih.2 n hn
      exact ⟨u, List.mem_cons_of_mem t hu, he⟩

theorem exactAll_entries {key : PacketKey} {ms : List FieldMatch}
    (h : schema.exactAll (key.map fun e => (e.1, (e.2 : Int))) = .ok ms) :
    ms.map FieldMatch.entry = key := by
  rw [exactAll_eq_ok_iff, List.forall₂_map_left_iff] at h
  induction h with
  | nil => rfl
  | @cons e m key ms he _ ih =>
    obtain ⟨hf, spec, _, hv⟩ := exact_eq_ok_iff.mp he
    have hn : m.value.toNat = e.2 := Encoded.toNat_of_fitAs_natCast hv
    rw [List.map_cons, ih]
    exact congrArg (· :: key) (Prod.ext hf hn)

theorem selectorTerms_eq_ok_iff {selector : Selector} {table : Table} {ms : List FieldMatch} :
    schema.selectorTerms selector table = .ok ms ↔
      selector.criteria ≠ [] ∧ selector.refs.Nodup ∧ schema.exactAll selector.terms = .ok ms := by
  have he : selector.isEmpty = true ↔ selector.criteria = [] := by simp [Selector.isEmpty]
  unfold selectorTerms
  split_ifs with hs
  · simp [he.mp hs]
  · cases hr : selector.repeated? with
    | some field =>
      have hd : ¬ selector.refs.Nodup := by
        rw [← Selector.repeated?_eq_none_iff, hr]
        simp
      simp [hd]
    | none => simp [Selector.repeated?_eq_none_iff.mp hr, mt he.mpr hs]

theorem param_eq_ok_iff {action name : String} {value : Int} {p : ActionParam} :
    schema.param action name value = .ok p ↔
      p.name = name ∧ ∃ width, schema.paramWidth action name = .ok width ∧
        Encoded.fit value width.toNat = .ok p.value := by
  obtain ⟨ref, encoded⟩ := p
  unfold param
  cases schema.paramWidth action name with
  | error e => simp
  | ok width =>
    cases hf : Encoded.fit value width.toNat with
    | error e => simp [hf]
    | ok written => simp [hf, eq_comm]

/-- A compiled edge asks for the key of the edge and writes its next state. -/
theorem compileTransition_eq_ok {t : Transition} {rule : Rule}
    (h : schema.compileTransition t = .ok rule) :
    rule.table = .stateTransfer ∧
      rule.terms.map FieldMatch.entry = RuleSet.transferKey t.target t.current t.trigger ∧
      RuleSet.writtenState? rule.action = some t.next := by
  unfold compileTransition at h
  split at h
  · exact absurd h (by simp)
  · rename_i terms hterms
    split at h
    · exact absurd h (by simp)
    · rename_i next hnext
      obtain rfl := Except.ok.inj h
      obtain ⟨hname, width, _, hfit⟩ := param_eq_ok_iff.mp hnext
      have hv : next.value.toNat = t.next.toNat := Encoded.toNat_of_fit_natCast hfit
      have hb : t.next.toNat < 256 := t.next.toNat_lt
      refine ⟨rfl, exactAll_entries hterms, ?_⟩
      simp [RuleSet.writtenState?, Action.param?, hname, RuleSet.stateOf?, hv, hb]

theorem compileAction_eq_ok {b : ActionBinding} {rule : Rule}
    (h : schema.compileAction b = .ok rule) :
    rule.table = .action ∧
      rule.terms.map FieldMatch.entry = RuleSet.actionKey b.target b.state ∧
      rule.action = schema.actionOf b.decision := by
  unfold compileAction at h
  split at h
  · exact absurd h (by simp)
  · rename_i terms hterms
    obtain rfl := Except.ok.inj h
    exact ⟨rfl, exactAll_entries hterms, rfl⟩

theorem compileLookup_eq_ok {selector : Selector} {action : String} {target : TargetId}
    {register : RegisterId} {rule : Rule}
    (h : schema.compileLookup selector action target register = .ok rule) :
    rule.table = .state ∧ schema.selectorTerms selector .state = .ok rule.terms := by
  unfold compileLookup at h
  split at h
  · exact absurd h (by simp)
  · rename_i terms hterms
    split at h
    · exact absurd h (by simp)
    · split at h
      · exact absurd h (by simp)
      · obtain rfl := Except.ok.inj h
        exact ⟨rfl, hterms⟩

theorem compileForward_eq_ok {selector : Selector} {port : Port} {rule : Rule}
    (h : schema.compileForward selector port = .ok rule) :
    rule.table = .forward ∧ schema.selectorTerms selector .forward = .ok rule.terms := by
  unfold compileForward at h
  split at h
  · exact absurd h (by simp)
  · rename_i terms hterms
    obtain rfl := Except.ok.inj h
    exact ⟨rfl, hterms⟩

theorem mem_compiled {results : List (Except CompileError Rule)} {rule : Rule} :
    rule ∈ compiled results ↔ .ok rule ∈ results := by
  unfold compiled
  rw [List.mem_filterMap]
  constructor
  · rintro ⟨result, hmem, hr⟩
    cases result with
    | error e => simp at hr
    | ok rule' =>
      rw [← Option.some.inj hr]
      exact hmem
  · intro hmem
    exact ⟨.ok rule, hmem, rfl⟩

def serviceResults (schema : Schema) (registry : Registry) (target : TargetId) :
    List (Except CompileError Rule) :=
  (registry.actionsFor target).map schema.compileAction ++
    (registry.transitionsFor target).map schema.compileTransition

theorem ok_mem_serviceResults {registry : Registry} {target : TargetId} {rule : Rule} :
    .ok rule ∈ schema.serviceResults registry target ↔
      (∃ b ∈ registry.actionsFor target, schema.compileAction b = .ok rule) ∨
        ∃ e ∈ registry.transitionsFor target, schema.compileTransition e = .ok rule := by
  simp [serviceResults]

theorem compileService_eq_ok_iff {registry : Registry} {target : TargetId}
    {results : List (Except CompileError Rule)} :
    schema.compileService registry target = .ok results ↔
      (registry.target? target).isSome ∧ results = schema.serviceResults registry target := by
  unfold compileService serviceResults
  cases registry.target? target with
  | none => simp
  | some t => simp [eq_comm]

/-- The compilation of several targets one after the other; all of them have to be registered. -/
def compileServices (schema : Schema) (registry : Registry) :
    List TargetId → Except CompileError (List (Except CompileError Rule))
  | [] => .ok []
  | t :: ts =>
    match schema.compileService registry t with
    | .error e => .error e
    | .ok own =>
      match schema.compileServices registry ts with
      | .error e => .error e
      | .ok rest => .ok (own ++ rest)

theorem compileServices_eq_ok {registry : Registry} {targets : List TargetId}
    (h : ∀ t ∈ targets, (registry.target? t).isSome) :
    schema.compileServices registry targets =
      .ok (targets.flatMap (schema.serviceResults registry)) := by
  induction targets with
  | nil => rfl
  | cons t ts ih =>
    have ht : schema.compileService registry t = .ok (schema.serviceResults registry t) :=
      compileService_eq_ok_iff.mpr ⟨h t List.mem_cons_self, rfl⟩
    have hts := ih fun u hu => h u (List.mem_cons_of_mem t hu)
    rw [compileServices, ht, hts, List.flatMap_cons]

theorem mem_compiled_services {registry : Registry} {targets : List TargetId} {rule : Rule} :
    rule ∈ compiled (targets.flatMap (schema.serviceResults registry)) ↔
      ∃ t ∈ targets,
        (∃ b ∈ registry.actionsFor t, schema.compileAction b = .ok rule) ∨
          ∃ e ∈ registry.transitionsFor t, schema.compileTransition e = .ok rule := by
  simp [mem_compiled, ok_mem_serviceResults]

end Schema
end StatefulPipeline
