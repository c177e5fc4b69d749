import StatefulPipeline.Predefined
import StatefulPipeline.Proofs.CompiledRules

/-! The order of installation. Sorting puts the rules of later tables first and keeps those of one
table as they came; a lookup compares rules of one table only, so no table can tell a sorted list
from the one that was sorted. Main statement: sorting never changes what the tables do, and the
rules of a service are compiled in the order that it gives. -/

namespace StatefulPipeline
namespace Rule

/-- From one rule to the next the table stays or goes back towards the start of the pipeline. -/
def InInstallOrder (rules : List Rule) : Prop := rules.Pairwise fun a b => b.table.id ≤ a.table.id

def ofTable (table : Table) (rules : List Rule) : List Rule := rules.filter fun r => r.table = table

variable {rule : Rule} {rules : List Rule} {table : Table}

theorem mem_ofTable : rule ∈ ofTable table rules ↔ rule ∈ rules ∧ rule.table = table := by
  simp [ofTable]

theorem inInstallOrder_of_table (h : ∀ rule ∈ rules, rule.table = table) :
    InInstallOrder rules := by
  apply List.pairwise_of_forall_mem_list
  intro a ha b hb
  rw [h a ha, h b hb]
  exact UInt8.le_refl _

theorem ofTable_ofTable (table table' : Table) (rules : List Rule) :
    ofTable table (ofTable table' rules) = if table' = table then ofTable table rules else [] := by
  split_ifs with h
  · rw [h]
    simp [ofTable]
  · rw [List.eq_nil_iff_forall_not_mem]
    intro rule hr
    obtain ⟨hr, ht⟩ := mem_ofTable.mp hr
    exact h ((mem_ofTable.mp hr).2.symm.trans ht)

theorem sortForInstall_eq_append (rules : List Rule) :
    sortForInstall rules = ofTable .action rules ++ ofTable .stateTransfer rules ++
      ofTable .state rules ++ ofTable .forward rules ++ ofTable .controller rules := by
  simp [sortForInstall, Table.all, ofTable]

theorem ofTable_sortForInstall (table : Table) (rules : List Rule) :
    ofTable table (sortForInstall rules) = ofTable table rules := by
  have happend (xs ys : List Rule) :
      ofTable table (xs ++ ys) = ofTable table xs ++ ofTable table ys := List.filter_append ..
  simp only [sortForInstall_eq_append, happend, ofTable_ofTable]
  cases table <;> simp

theorem sortForInstall_perm (rules : List Rule) : (sortForInstall rules).Perm rules := by
  rw [List.perm_iff_count]
  intro rule
  have hcount (rules : List Rule) : (ofTable rule.table rules).count rule = rules.count rule :=
    List.count_filter (by simp)
  rw [← hcount, ofTable_sortForInstall, hcount]

theorem sortForInstall_inInstallOrder (rules : List Rule) :
    InInstallOrder (sortForInstall rules) := by
  rw [InInstallOrder, sortForInstall, List.pairwise_flatMap]
  constructor
  · intro t _
    exact inInstallOrder_of_table fun rule hr => (mem_ofTable.mp hr).2
  · have htables : Table.all.reverse.Pairwise fun t u => u.id ≤ t.id := by decide
    apply htables.imp
    intro t u hle a ha b hb
    rw [(mem_ofTable.mp ha).2, (mem_ofTable.mp hb).2]
    exact hle

/-- A rule that no later rule has to pass stays in front. -/
theorem sortForInstall_cons (h : ∀ later ∈ rules, later.table.id ≤ rule.table.id) :
    sortForInstall (rule :: rules) = rule :: sortForInstall rules := by
  have hnone (t : Table) (ht : rule.table.id < t.id) : ofTable t rules = [] := by
    rw [List.eq_nil_iff_forall_not_mem]
    intro later hl
    obtain ⟨hmem, rfl⟩ := mem_ofTable.mp hl
    exact absurd (h later hmem) (UInt8.not_le.mpr ht)
  have hcons (t : Table) : ofTable t (rule :: rules) =
      if rule.table = t then rule :: ofTable t rules else ofTable t rules := by
    simp [ofTable, List.filter_cons]
  simp only [sortForInstall_eq_append, hcons]
  -- The tables after that of the rule have nothing to put in front of it.
  cases ht : rule.table <;> rw [ht] at hnone <;> simp (disch := decide) [hnone]

theorem InInstallOrder.sortForInstall_eq (h : InInstallOrder rules) :
    sortForInstall rules = rules := by
  induction rules with
  | nil => rfl
  | cons rule rules ih =>
    obtain ⟨hle, hrest⟩ := List.pairwise_cons.mp h
    rw [sortForInstall_cons hle, ih hrest]

end Rule

namespace RuleSet

/-- A lookup sees the rules of its table only. -/
theorem lookup_eq_of_ofTable_eq {rules rules' : List Rule} {table : Table}
    (h : Rule.ofTable table rules = Rule.ofTable table rules') (key : PacketKey) :
    lookup ⟨rules⟩ table key = lookup ⟨rules'⟩ table key := by
  have hcandidates (rules : List Rule) : candidates ⟨rules⟩ table key =
      (Rule.ofTable table rules).filter fun r => r.matchesKey key = true := by
    simp [candidates, Rule.ofTable, List.filter_filter, Bool.and_comm]
  rw [lookup, lookup, hcandidates, hcandidates, h]

end RuleSet

namespace Schema

theorem compiled_append (results results' : List (Except CompileError Rule)) :
    compiled (results ++ results') = compiled results ++ compiled results' :=
  List.filterMap_append ..

theorem serviceResults_inInstallOrder (schema : Schema) (registry : Registry) (target : TargetId) :
    Rule.InInstallOrder (compiled (schema.serviceResults registry target)) := by
  have hactions : ∀ rule ∈ compiled ((registry.actionsFor target).map schema.compileAction),
      rule.table = .action := by
    intro rule hr
    obtain ⟨b, _, hb⟩ := List.mem_map.mp (mem_compiled.mp hr)
    exact (compileAction_eq_ok hb).1
  have hedges : ∀ rule ∈ compiled ((registry.transitionsFor target).map schema.compileTransition),
      rule.table = .stateTransfer := by
    intro rule hr
    obtain ⟨e, _, he⟩ := List.mem_map.mp (mem_compiled.mp hr)
    exact (compileTransition_eq_ok he).1
  rw [serviceResults, compiled_append]
  refine List.pairwise_append.mpr
    ⟨Rule.inInstallOrder_of_table hactions, Rule.inInstallOrder_of_table hedges, ?_⟩
  intro a ha b hb
  rw [hactions a ha, hedges b hb]
  decide

end Schema

namespace Rule

/-- Sorting for installation is stable, and no lookup can tell it was done. -/
theorem sorting_keeps_what_tables_do (rules : List Rule) :
    (sortForInstall rules).Perm rules ∧
      (sortForInstall rules).Pairwise (fun a b => b.table.id ≤ a.table.id) ∧
      (∀ table, (sortForInstall rules).filter (fun r => r.table = table) =
        rules.filter fun r => r.table = table) ∧
      (∀ table key, RuleSet.lookup ⟨sortForInstall rules⟩ table key =
        RuleSet.lookup ⟨rules⟩ table key) ∧
      sortForInstall (sortForInstall rules) = sortForInstall rules ∧
      ∀ (schema : Schema) (registry : Registry) (target : TargetId),
        (registry.target? target).isSome →
        ∃ results, schema.compileService registry target = .ok results ∧
          sortForInstall (Schema.compiled results) = Schema.compiled results := by
  have hordered := sortForInstall_inInstallOrder rules
  refine ⟨sortForInstall_perm rules, hordered,
    fun table => ofTable_sortForInstall table rules, ?_, hordered.sortForInstall_eq, ?_⟩
  · intro table key
    exact RuleSet.lookup_eq_of_ofTable_eq (ofTable_sortForInstall table rules) key
  · intro schema registry target hregistered
    refine ⟨_, Schema.compileService_eq_ok_iff.mpr ⟨hregistered, rfl⟩, ?_⟩
    exact (schema.serviceResults_inInstallOrder registry target).sortForInstall_eq

def interleaved : List Rule :=
  [⟨.forward, [], .named Name.forward, 1⟩, ⟨.stateTransfer, [], .named Name.stateTransfer, 1⟩,
    ⟨.state, [], .named Name.lookupByNothing, 1⟩, ⟨.action, [], .named Name.drop, 1⟩,
    ⟨.stateTransfer, [], .named Name.alert, 1⟩]

theorem interleaved_sorted :
    (sortForInstall interleaved).map (fun r => r.action.name) =
        [Name.drop, Name.stateTransfer, Name.alert, Name.lookupByNothing, Name.forward] ∧
      RuleSet.lookup ⟨sortForInstall interleaved⟩ .stateTransfer [] =
        some ⟨.stateTransfer, [], .named Name.stateTransfer, 1⟩ ∧
      (Registry.defaults.target? 2).isSome ∧
      ∃ results, Schema.stateful.compileService Registry.defaults 2 = .ok results ∧
        sortForInstall (Schema.compiled results) = Schema.compiled results := by
  obtain ⟨_, _, _, hlookup, _, hservice⟩ := sorting_keeps_what_tables_do interleaved
  have hregistered : (Registry.defaults.target? 2).isSome := by decide
  refine ⟨by decide, ?_, hregistered, hservice _ _ 2 hregistered⟩
  rw [hlookup]
  decide

end Rule
end StatefulPipeline
