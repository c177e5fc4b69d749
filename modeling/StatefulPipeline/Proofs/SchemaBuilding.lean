import StatefulPipeline.Config
import StatefulPipeline.Proofs.SortedMaps

/-! Schemas that declarations build, and the configurations that describe them. A declaration is
accepted exactly if its widths can be encoded and its names are new, so a schema holds valid
declarations only, each under its own name. Main statement: the configuration that lists a built
schema builds that schema again. -/

namespace StatefulPipeline

namespace SortedMap

variable {κ ν : Type} [Key κ]

theorem mem_insert {m : SortedMap κ ν} {k : κ} {v : ν} {e : κ × ν}
    (h : e ∈ (m.insert k v).toList) : e = (k, v) ∨ e ∈ m.toList :=
  mem_put h

theorem put_eq_append {k : κ} {v : ν} {es : List (κ × ν)}
    (h : ∀ e ∈ es, Key.before e.1 k = true) : put k v es = es ++ [(k, v)] := by
  induction es with
  | nil => rfl
  | cons e es ih =>
    obtain ⟨he, hes⟩ := List.forall_mem_cons.mp h
    simp [put, he, ih hes]

theorem get?_eq_none_of_before [DecidableEq κ] {m : SortedMap κ ν} {k : κ}
    (h : ∀ e ∈ m.toList, Key.before e.1 k = true) : m.get? k = none :=
  seek_eq_none fun e he => Key.ne_of_before (h e he)

end SortedMap

structure ActionSpec.WellFormed (spec : ActionSpec) : Prop where
  widths : ∀ p ∈ spec.params, Encoded.ValidWidth p.width.toNat
  names : (spec.params.map ParamSpec.name).Nodup

namespace Schema

theorem checkWidth_eq_ok_iff {name : String} {width : Width} :
    checkWidth name width = .ok () ↔ Encoded.ValidWidth width.toNat := by
  unfold checkWidth
  split_ifs with h <;> simp [h]

theorem checkParams_eq_ok_iff {action : String} {seen : List String} {ps : List ParamSpec} :
    checkParams action seen ps = .ok () ↔
      (∀ p ∈ ps, Encoded.ValidWidth p.width.toNat) ∧ (ps.map ParamSpec.name).Nodup ∧
        ∀ p ∈ ps, p.name ∉ seen := by
  induction ps generalizing seen with
  | nil => simp [checkParams]
  | cons p ps ih =>
    rw [checkParams]
    by_cases hw : Encoded.ValidWidth p.width.toNat
    · rw [checkWidth_eq_ok_iff.mpr hw]
      by_cases hs : p.name ∈ seen
      · simp [hs]
      · simp only [hs, if_false]
        rw [ih, List.forall_mem_cons, List.forall_mem_cons, List.map_cons, List.nodup_cons]
        constructor
        · rintro ⟨hwidths, hnodup, hseen⟩
          have hnew : p.name ∉ ps.map ParamSpec.name := by
            intro hm
            obtain ⟨q, hq, he⟩ := List.mem_map.mp hm
            exact hseen q hq (he ▸ List.mem_cons_self)
          refine ⟨⟨hw, hwidths⟩, ⟨hnew, hnodup⟩, hs, ?_⟩
          intro q hq hm
          exact hseen q hq (List.mem_cons_of_mem _ hm)
        · rintro ⟨⟨_, hwidths⟩, ⟨hnew, hnodup⟩, _, hseen⟩
          refine ⟨hwidths, hnodup, fun q hq hm => ?_⟩
          rcases List.mem_cons.mp hm with he | hm
          · exact hnew (he ▸ List.mem_map_of_mem hq)
          · exact hseen q hq hm
    · have he : checkWidth (action ++ "." ++ p.name) p.width =
          .error (.invalidWidth (action ++ "." ++ p.name) p.width) := if_neg hw
      simp [he, hw]

theorem declare_field_eq_ok_iff {schema next : Schema} {field : FieldRef} {spec : FieldSpec} :
    schema.declare (.field field spec) = .ok next ↔
      Encoded.ValidWidth spec.width.toNat ∧ schema.fields.get? field = none ∧
        next = { schema with fields := schema.fields.insert field spec } := by
  rw [declare]
  by_cases hw : Encoded.ValidWidth spec.width.toNat
  · rw [checkWidth_eq_ok_iff.mpr hw]
    cases hc : schema.fields.contains field with
    | true =>
      have hsome : schema.fields.get? field ≠ none := by
        intro hnone
        simp [SortedMap.contains_eq_false_iff.mpr hnone] at hc
      simp [hsome]
    | false => simp [hw, SortedMap.contains_eq_false_iff.mp hc, eq_comm]
  · have he : checkWidth field.path spec.width = .error (.invalidWidth field.path spec.width) :=
      if_neg hw
    simp [he, hw]

theorem declare_action_eq_ok_iff {schema next : Schema} {spec : ActionSpec} :
    schema.declare (.action spec) = .ok next ↔
      schema.actions.get? spec.name = none ∧ spec.WellFormed ∧
        next = { schema with actions := schema.actions.insert spec.name spec } := by
  rw [declare]
  cases hc : schema.actions.contains spec.name with
  | true =>
    have hsome : schema.actions.get? spec.name ≠ none := by
      intro hnone
      simp [SortedMap.contains_eq_false_iff.mpr hnone] at hc
    simp [hsome]
  | false =>
    have hnone := SortedMap.contains_eq_false_iff.mp hc
    cases hp : checkParams spec.name [] spec.params with
    | error e =>
      have hbad : ¬ spec.WellFormed := by
        intro hw
        have hok : checkParams spec.name [] spec.params = .ok () :=
          checkParams_eq_ok_iff.mpr ⟨hw.widths, hw.names, by simp⟩
        rw [hp] at hok
        exact absurd hok (by simp)
      simp [hbad]
    | ok u =>
      obtain ⟨hwidths, hnames, _⟩ := checkParams_eq_ok_iff.mp hp
      have hw : spec.WellFormed := ⟨hwidths, hnames⟩
      simp [hnone, hw, eq_comm]

/-- Every field has a width that can be encoded, and every action is well-formed and stands under
its own name. -/
structure WellFormed (schema : Schema) : Prop where
  fields : ∀ e ∈ schema.fields.toList, Encoded.ValidWidth e.2.width.toNat
  names : ∀ e ∈ schema.actions.toList, e.2.name = e.1
  actions : ∀ e ∈ schema.actions.toList, e.2.WellFormed

theorem empty_wellFormed : empty.WellFormed := by
  constructor <;> simp [empty, SortedMap.empty, SortedMap.toList]

theorem WellFormed.declare {schema next : Schema} (h : schema.WellFormed) {d : Declaration}
    (hd : schema.declare d = .ok next) : next.WellFormed := by
  cases d with
  | field field spec =>
    obtain ⟨hw, _, rfl⟩ := declare_field_eq_ok_iff.mp hd
    refine ⟨?_, h.names, h.actions⟩
    intro e he
    rcases SortedMap.mem_insert he with rfl | he
    · exact hw
    · exact h.fields e he
  | action spec =>
    obtain ⟨_, hw, rfl⟩ := declare_action_eq_ok_iff.mp hd
    refine ⟨h.fields, ?_, ?_⟩
    · intro e he
      rcases SortedMap.mem_insert he with rfl | he
      · rfl
      · exact h.names e he
    · intro e he
      rcases SortedMap.mem_insert he with rfl | he
      · exact hw
      · exact h.actions e he

theorem WellFormed.tryDeclare {schema : Schema} (h : schema.WellFormed) (d : Declaration) :
    (schema.tryDeclare d).WellFormed := by
  rw [Schema.tryDeclare]
  cases hd : schema.declare d with
  | error e => exact h
  | ok next => exact h.declare hd

theorem WellFormed.foldl_tryDeclare (ds : List Declaration) {schema : Schema}
    (h : schema.WellFormed) : (ds.foldl Schema.tryDeclare schema).WellFormed := by
  induction ds generalizing schema with
  | nil => exact h
  | cons d ds ih => exact ih (h.tryDeclare d)

theorem accept_wellFormed (ds : List Declaration) : (accept ds).WellFormed :=
  empty_wellFormed.foldl_tryDeclare ds

/-- Some list of declarations makes the schema, refused ones passed over. -/
def Reachable (schema : Schema) : Prop := ∃ declarations, accept declarations = schema

theorem Reachable.wellFormed {schema : Schema} (h : schema.Reachable) : schema.WellFormed := by
  obtain ⟨declarations, rfl⟩ := h
  exact accept_wellFormed declarations

theorem stateful_wellFormed : stateful.WellFormed := accept_wellFormed statefulDeclarations

theorem declareAll_append {schema next : Schema} {ds : List Declaration} (ds' : List Declaration)
    (h : schema.declareAll ds = .ok next) :
    schema.declareAll (ds ++ ds') = next.declareAll ds' := by
  induction ds generalizing schema with
  | nil =>
    obtain rfl : schema = next := by simpa [declareAll] using h
    rfl
  | cons d ds ih =>
    rw [List.cons_append, declareAll]
    rw [declareAll] at h
    cases hd : schema.declare d with
    | error e => simp [hd] at h
    | ok mid =>
      rw [hd] at h
      exact ih h

/-- Acceptable entries in ascending order of their keys are appended to one of the two maps. -/
theorem declareAll_entries {κ ν : Type} [Key κ] [DecidableEq κ] (store : SortedMap κ ν → Schema)
    (declaration : κ × ν → Declaration) (es : List (κ × ν)) (m : SortedMap κ ν)
    (hsorted : (m.entries ++ es).Pairwise fun a b => Key.before a.1 b.1 = true)
    (haccept : ∀ e ∈ es, ∀ m : SortedMap κ ν, m.get? e.1 = none →
      (store m).declare (declaration e) = .ok (store (m.insert e.1 e.2))) :
    (store m).declareAll (es.map declaration) = .ok (store ⟨m.entries ++ es, hsorted⟩) := by
  induction es generalizing m with
  | nil => simp [declareAll]
  | cons e es ih =>
    obtain ⟨he, hes⟩ := List.forall_mem_cons.mp haccept
    have hbefore : ∀ x ∈ m.toList, Key.before x.1 e.1 = true := by
      intro x hx
      exact (List.pairwise_append.mp hsorted).2.2 x hx e List.mem_cons_self
    have hentries : (m.insert e.1 e.2).entries = m.entries ++ [e] :=
      SortedMap.put_eq_append hbefore
    have hnext : ((m.insert e.1 e.2).entries ++ es).Pairwise
        fun a b => Key.before a.1 b.1 = true := by
      rw [hentries, List.append_assoc]
      exact hsorted
    rw [List.map_cons, declareAll, he m (SortedMap.get?_eq_none_of_before hbefore)]
    simp only [ih (m.insert e.1 e.2) hnext hes, hentries, List.append_assoc, List.singleton_append]

theorem WellFormed.toSchema_ofSchema {schema : Schema} (h : schema.WellFormed) (name : String) :
    (Config.ofSchema name schema).toSchema = .ok schema := by
  have hfields : empty.declareAll (schema.fieldList.map fun f => .field f.1 f.2) =
      .ok ⟨schema.fields, .empty⟩ := by
    refine declareAll_entries (fun m => ⟨m, .empty⟩) (fun e => .field e.1 e.2) schema.fieldList
      .empty schema.fields.sorted ?_
    intro e he m hnew
    exact declare_field_eq_ok_iff.mpr ⟨h.fields e he, hnew, rfl⟩
  have hactions : declareAll ⟨schema.fields, .empty⟩ (schema.actionList.map .action) =
      .ok schema := by
    rw [actionList, SortedMap.values, List.map_map]
    refine declareAll_entries (fun m => ⟨schema.fields, m⟩) (fun e => .action e.2)
      schema.actions.toList .empty schema.actions.sorted ?_
    intro e he m hnew
    rw [← h.names e he] at hnew ⊢
    exact declare_action_eq_ok_iff.mpr ⟨hnew, h.actions e he, rfl⟩
  exact (declareAll_append _ hfields).trans hactions

/-- Adds a declaration without looking at it; it replaces an earlier one with its name. -/
def enter (schema : Schema) : Declaration → Schema
  | .field field spec => { schema with fields := schema.fields.insert field spec }
  | .action spec => { schema with actions := schema.actions.insert spec.name spec }

/-- What the stateful pipeline declares would have been accepted throughout. -/
theorem foldl_enter_stateful : statefulDeclarations.foldl enter empty = stateful := by
  decide +kernel

/-- A built schema is built again by its own configuration. -/
theorem schema_survives_its_configuration (declarations : List Declaration) (name : String) :
    (Config.ofSchema name (accept declarations)).toSchema = .ok (accept declarations) ∧
      (Config.ofSchema name (statefulDeclarations.foldl enter empty)).toSchema =
        .ok (statefulDeclarations.foldl enter empty) := by
  refine ⟨(accept_wellFormed declarations).toSchema_ofSchema name, ?_⟩
  rewrite [foldl_enter_stateful]
  exact stateful_wellFormed.toSchema_ofSchema name

end Schema
end StatefulPipeline
