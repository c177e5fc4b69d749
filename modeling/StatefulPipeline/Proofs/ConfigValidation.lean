import Mathlib.Data.String.Basic
import StatefulPipeline.Proofs.DeclarationHistory

/-! Valid configurations. Declarations are checked one after another, each against those before it;
yet the verdict is a condition on all of them at once: every one is well-formed, and no two have one
place. The condition does not know their order, and neither does the schema, which holds them all.
Main statement: a configuration is accepted exactly if it is valid, in whatever order it declares,
and its schema lists its own declarations in ascending order. -/

namespace StatefulPipeline

namespace Key

theorem listBefore_iff_lt {as bs : List Char} : listBefore as bs = true ↔ as < bs := by
  induction as generalizing bs with
  | nil => cases bs <;> simp [listBefore]
  | cons a as ih =>
    cases bs with
    | nil => simp [listBefore]
    | cons b bs =>
      have hab : before a b = true ↔ a < b := decide_eq_true_iff
      rw [listBefore_cons_iff, List.cons_lt_cons_iff, ih, hab]

theorem before_text_iff_lt {a b : String} : before a b = true ↔ a < b :=
  listBefore_iff_lt.trans String.lt_iff_toList_lt.symm

theorem before_ref_iff {a b : FieldRef} :
    before a b = true ↔ a.scope < b.scope ∨ a.scope = b.scope ∧ a.name < b.name := by
  rw [← before_text_iff_lt, ← before_text_iff_lt]
  exact pairBefore_iff

end Key

theorem SortedMap.toList_nodup {κ ν : Type} [Key κ] (m : SortedMap κ ν) : m.toList.Nodup :=
  m.sorted.imp fun hab he => Key.ne_of_before hab (congrArg Prod.fst he)

namespace Schema

theorem declareAll_cons_eq_ok_iff {schema next : Schema} {d : Declaration}
    {ds : List Declaration} :
    schema.declareAll (d :: ds) = .ok next ↔
      ∃ mid, schema.declare d = .ok mid ∧ mid.declareAll ds = .ok next := by
  rw [declareAll]
  cases schema.declare d <;> simp

theorem WellFormed.declareAll {schema next : Schema} (h : schema.WellFormed)
    {ds : List Declaration} (hd : schema.declareAll ds = .ok next) : next.WellFormed := by
  induction ds generalizing schema with
  | nil =>
    obtain rfl : schema = next := by simpa [Schema.declareAll] using hd
    exact h
  | cons d ds ih =>
    obtain ⟨mid, hmid, hrest⟩ := declareAll_cons_eq_ok_iff.mp hd
    exact ih (h.declare hmid) hrest

theorem holds_of_declareAll {schema next : Schema} {ds : List Declaration}
    (hd : schema.declareAll ds = .ok next) (x : Declaration) :
    next.Holds x ↔ x ∈ ds ∨ schema.Holds x := by
  induction ds generalizing schema with
  | nil =>
    obtain rfl : schema = next := by simpa [declareAll] using hd
    simp
  | cons d ds ih =>
    obtain ⟨mid, hmid, hrest⟩ := declareAll_cons_eq_ok_iff.mp hd
    rw [ih hrest, holds_of_declare hmid, List.mem_cons]
    exact or_left_comm.trans or_assoc.symm

theorem clear_of_declare {schema mid : Schema} {d : Declaration}
    (hmid : schema.declare d = .ok mid) (ds : List Declaration) :
    (∀ e ∈ ds, ∀ x, mid.Holds x → x.place ≠ e.place) ↔
      d.place ∉ ds.map Declaration.place ∧
        ∀ e ∈ ds, ∀ x, schema.Holds x → x.place ≠ e.place := by
  simp only [holds_of_declare hmid, List.mem_map, not_exists, not_and]
  constructor
  · intro hall
    refine ⟨fun e he hp => ?_, fun e he x hx => ?_⟩
    · exact hall e he d (.inl rfl) hp.symm
    · exact hall e he x (.inr hx)
  · rintro ⟨hnew, hall⟩ e he x (rfl | hx)
    · exact fun hp => hnew e he hp.symm
    · exact hall e he x hx

/-- Declarations are accepted one after another exactly if all are well-formed, no two have one
place, and none has the place of something that is there already. -/
theorem WellFormed.exists_declareAll_iff {schema : Schema} (h : schema.WellFormed)
    (ds : List Declaration) :
    (∃ next, schema.declareAll ds = .ok next) ↔
      (∀ d ∈ ds, d.WellFormed) ∧ (ds.map Declaration.place).Nodup ∧
        ∀ d ∈ ds, ∀ x, schema.Holds x → x.place ≠ d.place := by
  induction ds generalizing schema with
  | nil => simp [Schema.declareAll]
  | cons d ds ih =>
    rw [List.forall_mem_cons, List.forall_mem_cons, List.map_cons, List.nodup_cons]
    constructor
    · rintro ⟨next, hd⟩
      obtain ⟨mid, hmid, hrest⟩ := declareAll_cons_eq_ok_iff.mp hd
      obtain ⟨hfirst, hfree⟩ := h.exists_declare_iff.mp ⟨mid, hmid⟩
      obtain ⟨hw, hn, hclear⟩ := (ih (h.declare hmid)).mp ⟨next, hrest⟩
      obtain ⟨hnew, hclear⟩ := (clear_of_declare hmid ds).mp hclear
      exact ⟨⟨hfirst, hw⟩, ⟨hnew, hn⟩, hfree, hclear⟩
    · rintro ⟨⟨hfirst, hw⟩, ⟨hnew, hn⟩, hfree, hclear⟩
      obtain ⟨mid, hmid⟩ := h.exists_declare_iff.mpr ⟨hfirst, hfree⟩
      obtain ⟨next, hrest⟩ := (ih (h.declare hmid)).mpr
        ⟨hw, hn, (clear_of_declare hmid ds).mpr ⟨hnew, hclear⟩⟩
      exact ⟨next, declareAll_cons_eq_ok_iff.mpr ⟨mid, hmid, hrest⟩⟩

theorem exists_build_iff (ds : List Declaration) :
    (∃ schema, build ds = .ok schema) ↔
      (∀ d ∈ ds, d.WellFormed) ∧ (ds.map Declaration.place).Nodup := by
  rw [build, empty_wellFormed.exists_declareAll_iff]
  simp [not_holds_empty]

theorem holds_of_build {ds : List Declaration} {schema : Schema} (h : build ds = .ok schema)
    (d : Declaration) : schema.Holds d ↔ d ∈ ds := by
  rw [holds_of_declareAll h, or_iff_left (not_holds_empty d)]

theorem build_of_perm {ds es : List Declaration} (hp : ds.Perm es) {schema : Schema}
    (h : build ds = .ok schema) : build es = .ok schema := by
  obtain ⟨hw, hn⟩ := (exists_build_iff ds).mp ⟨schema, h⟩
  obtain ⟨schema', h'⟩ : ∃ schema', build es = .ok schema' := by
    rw [exists_build_iff]
    exact ⟨fun d hd => hw d (hp.mem_iff.mpr hd), (hp.map _).nodup_iff.mp hn⟩
  have he : schema' = schema := by
    apply (empty_wellFormed.declareAll h').eq_of_holds_iff (empty_wellFormed.declareAll h)
    intro d
    rw [holds_of_build h', holds_of_build h, hp.mem_iff]
  rw [h', he]

theorem mem_fieldList_iff {schema : Schema} {f : FieldRef × FieldSpec} :
    f ∈ schema.fieldList ↔ schema.Holds (.field f.1 f.2) :=
  SortedMap.get?_eq_some_iff.symm

theorem fieldList_sorted (schema : Schema) : schema.fieldList.Pairwise fun a b =>
    a.1.scope < b.1.scope ∨ a.1.scope = b.1.scope ∧ a.1.name < b.1.name :=
  schema.fields.sorted.imp Key.before_ref_iff.mp

namespace WellFormed

variable {schema : Schema} (h : schema.WellFormed)
include h

theorem mem_actionList_iff {a : ActionSpec} :
    a ∈ schema.actionList ↔ schema.Holds (.action a) := by
  rw [Holds, SortedMap.get?_eq_some_iff, actionList, SortedMap.values, List.mem_map]
  constructor
  · rintro ⟨⟨name, spec⟩, he, rfl⟩
    obtain rfl : spec.name = name := h.names _ he
    exact he
  · intro he
    exact ⟨_, he, rfl⟩

theorem actionList_sorted : schema.actionList.Pairwise fun a b => a.name < b.name := by
  rw [actionList, SortedMap.values, List.pairwise_map]
  refine schema.actions.sorted.imp_of_mem ?_
  intro a b ha hb hab
  rw [h.names a ha, h.names b hb]
  exact Key.before_text_iff_lt.mp hab

end WellFormed

end Schema

namespace Config

/-- What makes a configuration acceptable, said without building its schema. -/
structure Valid (c : Config) : Prop where
  fieldWidths : ∀ f ∈ c.fields, 1 ≤ f.2.width.toNat ∧ f.2.width.toNat ≤ 128
  paramWidths : ∀ a ∈ c.actions, ∀ p ∈ a.params, 1 ≤ p.width.toNat ∧ p.width.toNat ≤ 128
  references : (c.fields.map fun f => (f.1.scope, f.1.name)).Nodup
  actionNames : (c.actions.map ActionSpec.name).Nodup
  paramNames : ∀ a ∈ c.actions, (a.params.map ParamSpec.name).Nodup

theorem place_declarations (c : Config) :
    c.declarations.map Declaration.place =
      (c.fields.map Prod.fst).map Sum.inl ++ (c.actions.map ActionSpec.name).map Sum.inr := by
  simp [declarations, Declaration.place, Function.comp_def]

theorem nodup_place_iff (c : Config) :
    (c.declarations.map Declaration.place).Nodup ↔
      (c.fields.map fun f => (f.1.scope, f.1.name)).Nodup ∧
        (c.actions.map ActionSpec.name).Nodup := by
  have hpair : Function.Injective fun f : FieldRef => (f.scope, f.name) := by
    rintro ⟨s, n⟩ ⟨s', n'⟩ he
    obtain ⟨rfl, rfl⟩ := Prod.mk.inj he
    rfl
  have hrefs : (c.fields.map fun f => (f.1.scope, f.1.name)).Nodup ↔
      (c.fields.map Prod.fst).Nodup := by
    rw [← List.nodup_map_iff hpair, List.map_map]
    rfl
  rw [place_declarations, List.nodup_append, List.nodup_map_iff Sum.inl_injective,
    List.nodup_map_iff Sum.inr_injective, hrefs]
  simp

theorem mem_declarations_iff {c : Config} {d : Declaration} :
    d ∈ c.declarations ↔
      (∃ f ∈ c.fields, .field f.1 f.2 = d) ∨ ∃ a ∈ c.actions, .action a = d := by
  simp [declarations]

theorem exists_toSchema_iff (c : Config) : (∃ schema, c.toSchema = .ok schema) ↔ c.Valid := by
  rw [toSchema, Schema.exists_build_iff, nodup_place_iff]
  constructor
  · rintro ⟨hw, hrefs, hnames⟩
    have hfield (f) (hf : f ∈ c.fields) : (Declaration.field f.1 f.2).WellFormed :=
      hw _ (mem_declarations_iff.mpr (.inl ⟨f, hf, rfl⟩))
    have haction (a) (ha : a ∈ c.actions) : a.WellFormed :=
      hw _ (mem_declarations_iff.mpr (.inr ⟨a, ha, rfl⟩))
    exact ⟨hfield, fun a ha => (haction a ha).widths, hrefs, hnames,
      fun a ha => (haction a ha).names⟩
  · intro h
    refine ⟨?_, h.references, h.actionNames⟩
    intro d hd
    rcases mem_declarations_iff.mp hd with ⟨f, hf, rfl⟩ | ⟨a, ha, rfl⟩
    · exact h.fieldWidths f hf
    · exact ⟨h.paramWidths a ha, h.paramNames a ha⟩

theorem declarations_perm {c c' : Config} (hf : c'.fields.Perm c.fields)
    (ha : c'.actions.Perm c.actions) : c'.declarations.Perm c.declarations :=
  (hf.map _).append (ha.map _)

section Listing

variable {c : Config} {schema : Schema} (h : c.toSchema = .ok schema)
include h

theorem fieldList_perm : schema.fieldList.Perm c.fields := by
  have hvalid : c.Valid := c.exists_toSchema_iff.mp ⟨schema, h⟩
  have hlisted : schema.fieldList.Nodup := schema.fields.toList_nodup
  refine (List.perm_ext_iff_of_nodup hlisted (hvalid.references.of_map _)).mpr ?_
  intro f
  rw [Schema.mem_fieldList_iff, Schema.holds_of_build h, mem_declarations_iff]
  simp

theorem actionList_perm : schema.actionList.Perm c.actions := by
  have hvalid : c.Valid := c.exists_toSchema_iff.mp ⟨schema, h⟩
  have hw : schema.WellFormed := Schema.empty_wellFormed.declareAll h
  have hlisted : schema.actionList.Nodup := hw.actionList_sorted.imp fun hab he => by
    rw [he] at hab
    exact lt_irrefl _ hab
  refine (List.perm_ext_iff_of_nodup hlisted (hvalid.actionNames.of_map _)).mpr ?_
  intro a
  rw [hw.mem_actionList_iff, Schema.holds_of_build h, mem_declarations_iff]
  simp

end Listing

/-- Exactly the valid configurations are accepted, and the order of their entries does not matter.
-/
theorem validation_is_exact_and_orderless (c : Config) :
    ((∃ schema, c.toSchema = .ok schema) ↔ c.Valid) ∧
      (∀ fields actions, fields.Perm c.fields → actions.Perm c.actions → ∀ schema,
        ({ c with fields := fields, actions := actions } : Config).toSchema = .ok schema ↔
          c.toSchema = .ok schema) ∧
      (∀ schema name, c.toSchema = .ok schema →
        (ofSchema name schema).fields.Perm c.fields ∧
          ((ofSchema name schema).fields.Pairwise fun a b =>
            a.1.scope < b.1.scope ∨ a.1.scope = b.1.scope ∧ a.1.name < b.1.name) ∧
          (ofSchema name schema).actions.Perm c.actions ∧
          (ofSchema name schema).actions.Pairwise fun a b => a.name < b.name) := by
  refine ⟨c.exists_toSchema_iff, ?_, ?_⟩
  · intro fields actions hf ha schema
    have hp : ({ c with fields := fields, actions := actions } : Config).declarations.Perm
        c.declarations := declarations_perm hf ha
    exact ⟨Schema.build_of_perm hp, Schema.build_of_perm hp.symm⟩
  · intro schema name h
    exact ⟨fieldList_perm h, schema.fieldList_sorted, actionList_perm h,
      (Schema.empty_wellFormed.declareAll h).actionList_sorted⟩

def descending : Config where
  name := "descending"
  description := none
  fields := [(⟨"ipv4", "ttl"⟩, ⟨8, false⟩), (⟨"ipv4", "srcAddr"⟩, ⟨32, false⟩),
    (⟨"ethernet", "delta"⟩, ⟨128, true⟩)]
  actions := [⟨"forward", [⟨"port", 9⟩, ⟨"class", 1⟩]⟩, ⟨"drop", []⟩]
  devices := none

theorem descending_listed : ∃ schema,
    descending.toSchema = .ok schema ∧
      ({ descending with fields := descending.fields.reverse,
                         actions := descending.actions.reverse } : Config).toSchema = .ok schema ∧
      (ofSchema "ascending" schema).fields.Perm descending.fields ∧
      (ofSchema "ascending" schema).actions.Perm descending.actions := by
  obtain ⟨hvalid, hperm, hlisted⟩ := validation_is_exact_and_orderless descending
  obtain ⟨schema, h⟩ := hvalid.mpr
    ⟨by decide, by decide, by decide, by decide, by decide⟩
  have hrev := (hperm _ _ (List.reverse_perm _) (List.reverse_perm _) schema).mpr h
  obtain ⟨hfields, _, hactions, _⟩ := hlisted schema "ascending" h
  exact ⟨schema, h, hrev, hfields, hactions⟩

end Config
end StatefulPipeline
