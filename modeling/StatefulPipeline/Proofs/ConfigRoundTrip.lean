import StatefulPipeline.ConfigText
import StatefulPipeline.Proofs.TomlLines

/-! A configuration is read back from the text it is written as. The lines of the text are those
that were written, so what remains is the tree: a list of records becomes an array of tables that
grows by one element with each header, and the parameters of an action grow an array inside the
last element of another. A list that is empty is written as an array of its own. -/

namespace StatefulPipeline
namespace Toml

namespace Entries

theorem get?_set (key key' : String) (n : Node) (es : Entries) :
    get? key' (set key n es) = if key = key' then some n else get? key' es := by
  induction es with
  | nil => rfl
  | cons e es ih =>
    by_cases he : e.1 = key
    · subst he
      by_cases hk : e.1 = key' <;> simp [set, get?, hk]
    · rw [set, if_neg he, get?, get?, ih]
      by_cases hk : e.1 = key'
      · have hne : ¬ key = key' := fun h => he (hk.trans h.symm)
        rw [if_pos hk, if_neg hne, if_pos hk]
      · rw [if_neg hk, if_neg hk]

theorem set_set (key : String) (m n : Node) (es : Entries) :
    set key n (set key m es) = set key n es := by
  induction es with
  | nil => simp [set]
  | cons e es ih => by_cases he : e.1 = key <;> simp [set, he, ih]

theorem get?_eq_none {key : String} {es : Entries} (h : key ∉ es.map Prod.fst) :
    get? key es = none := by
  induction es with
  | nil => rfl
  | cons e es ih =>
    rw [List.map_cons, List.mem_cons, not_or] at h
    simp [get?, Ne.symm h.1, ih h.2]

theorem set_eq_append {key : String} {es : Entries} (n : Node) (h : key ∉ es.map Prod.fst) :
    set key n es = es ++ [(key, n)] := by
  induction es with
  | nil => rfl
  | cons e es ih =>
    rw [List.map_cons, List.mem_cons, not_or] at h
    simp [set, Ne.symm h.1, ih h.2]

def pairs (es : Entries) : List (List String × Node) := es.map fun e => ([e.1], e.2)

theorem setPaths_pairs_append {done es : Entries} (h : ((done ++ es).map Prod.fst).Nodup) :
    setPaths es.pairs done = some (done ++ es) := by
  induction es generalizing done with
  | nil => simp [pairs, setPaths]
  | cons e es ih =>
    have hfresh : e.1 ∉ done.map Prod.fst := by
      rw [List.map_append, List.nodup_append] at h
      intro hmem
      exact h.2.2 e.1 hmem e.1 (by simp) rfl
    have hset : setPath [e.1] e.2 done = some (done ++ [e]) := by
      simp [setPath, setNew, get?_eq_none hfresh, set_eq_append e.2 hfresh]
    have hrec := @ih (done ++ [e]) (by simpa using h)
    rw [pairs, List.map_cons, setPaths, hset]
    simpa [pairs] using hrec

theorem setPaths_pairs {es : Entries} (h : (es.map Prod.fst).Nodup) :
    setPaths es.pairs [] = some es := by
  have hset := @setPaths_pairs_append [] es h
  rwa [List.nil_append] at hset

/-- An array of tables; it is not there before its first element. -/
def withTables (key : String) (elements : List Entries) (es : Entries) : Entries :=
  match elements with
  | [] => es
  | _ :: _ => set key (.tables elements) es

theorem withTables_concat (key : String) (elements : List Entries) (e es : Entries) :
    withTables key (elements ++ [e]) es = set key (.tables (elements ++ [e])) es := by
  cases elements <;> rfl

theorem get?_withTables_of_ne {key key' : String} (h : key ≠ key') (elements : List Entries)
    (es : Entries) : get? key' (withTables key elements es) = get? key' es := by
  cases elements with
  | nil => rfl
  | cons e elements => simp [withTables, get?_set, h]

end Entries

open Entries

/-- A list of tables as a value: if it is empty, it is an array like any other. -/
def Node.ofTables : List Entries → Node
  | [] => .array []
  | e :: es => .tables (e :: es)

theorem get?_withTables_self {key : String} {elements : List Entries} {es : Entries}
    (h : elements = [] → get? key es = some (.array [])) :
    get? key (withTables key elements es) = some (Node.ofTables elements) := by
  cases elements with
  | nil => exact h rfl
  | cons e elements => simp [withTables, get?_set, Node.ofTables]

theorem updateLast_concat {α : Type} (f : α → Option α) (as : List α) (a : α) :
    updateLast f (as ++ [a]) = (f a).map fun b => as ++ [b] := by
  induction as with
  | nil => rfl
  | cons a' as ih =>
    cases as with
    | nil => cases h : f a <;> simp [updateLast, h]
    | cons a'' as =>
      rw [List.cons_append, List.cons_append, updateLast, ← List.cons_append, ih, Option.map_map]
      rfl

/-! Sections. -/

def Section.lines (s : Section) : List Line :=
  .header s.kind s.path :: s.pairs.map fun p => .pair p.1 p.2

theorem sections_lines (ps : List (List String × Node)) (ss : List Section) :
    sections ((ps.map fun p => Line.pair p.1 p.2) ++ ss.flatMap Section.lines) = (ps, ss) := by
  have hpairs (ls : List Line) (ps : List (List String × Node)) :
      sections ((ps.map fun p => Line.pair p.1 p.2) ++ ls) =
        (ps ++ (sections ls).1, (sections ls).2) := by
    induction ps with
    | nil => rfl
    | cons p ps ih => simp [sections, ih]
  have hsections : sections (ss.flatMap Section.lines) = ([], ss) := by
    induction ss with
    | nil => rfl
    | cons s ss ih => simp [Section.lines, sections, hpairs, ih]
  simp [hpairs, hsections]

theorem addSections_append (ss ts : List Section) (root : Entries) :
    addSections (ss ++ ts) root = (addSections ss root).bind (addSections ts) := by
  induction ss generalizing root with
  | nil => rfl
  | cons s ss ih =>
    rw [List.cons_append, addSections, addSections]
    cases addSection root s with
    | none => rfl
    | some root' => exact ih root'

/-- If the sections of each record append its entries to an array, those of all the records append
all of them. -/
theorem addSections_flatMap {α : Type} {sectionsOf : α → List Section} {entriesOf : α → Entries}
    (tree : List Entries → Entries)
    (h : ∀ a done, addSections (sectionsOf a) (tree done) = some (tree (done ++ [entriesOf a])))
    (as : List α) (done : List Entries) :
    addSections (as.flatMap sectionsOf) (tree done) = some (tree (done ++ as.map entriesOf)) := by
  induction as generalizing done with
  | nil => simp [addSections]
  | cons a as ih => simp [addSections_append, h, ih]

theorem openSection_element {key : String} {root es : Entries} (hroot : get? key root = none)
    (hes : (es.map Prod.fst).Nodup) (elements : List Entries) :
    openSection .element key es.pairs (withTables key elements root) =
      some (withTables key (elements ++ [es]) root) := by
  rw [withTables_concat]
  cases elements with
  | nil => simp [withTables, openSection, hroot, setPaths_pairs hes]
  | cons e elements =>
    simp [withTables, openSection, get?_set, set_set, setPaths_pairs hes]

theorem addSection_table {key : String} {root es : Entries} (hroot : get? key root = none)
    (hes : (es.map Prod.fst).Nodup) :
    addSection root ⟨.table, [key], es.pairs⟩ = some (set key (.table .header es) root) := by
  simp [addSection, descend, openSection, hroot, setPaths_pairs hes]

theorem addSection_element {key : String} {root es : Entries} (hroot : get? key root = none)
    (hes : (es.map Prod.fst).Nodup) (elements : List Entries) :
    addSection (withTables key elements root) ⟨.element, [key], es.pairs⟩ =
      some (withTables key (elements ++ [es]) root) :=
  openSection_element hroot hes elements

theorem addSection_nested {outer inner : String} {last es : Entries}
    (hlast : get? inner last = none) (hes : (es.map Prod.fst).Nodup)
    (before elements : List Entries) (root : Entries) :
    addSection (withTables outer (before ++ [withTables inner elements last]) root)
        ⟨.element, [outer, inner], es.pairs⟩ =
      some (withTables outer (before ++ [withTables inner (elements ++ [es]) last]) root) := by
  have hopen := openSection_element hlast hes elements
  simp [addSection, withTables_concat, descend, get?_set, updateLast_concat, hopen, set_set]

theorem addSections_tables {α : Type} {sectionsOf : α → List Section} {entriesOf : α → Entries}
    {key : String} {root : Entries} {as : List α} (hroot : as ≠ [] → get? key root = none)
    (h : get? key root = none → ∀ a done, addSections (sectionsOf a) (withTables key done root) =
      some (withTables key (done ++ [entriesOf a]) root)) :
    addSections (as.flatMap sectionsOf) root = some (withTables key (as.map entriesOf) root) := by
  by_cases has : as = []
  · subst has
    rfl
  · exact addSections_flatMap (withTables key · root) (h (hroot has)) as []

theorem map_line_flatMap {α : Type} {linesOf : α → List Written} {sectionsOf : α → List Section}
    (h : ∀ a, (linesOf a).map Written.line = (sectionsOf a).flatMap Section.lines) (as : List α) :
    (as.flatMap linesOf).map Written.line = (as.flatMap sectionsOf).flatMap Section.lines := by
  induction as with
  | nil => rfl
  | cons a as ih => simp [h, ih]

/-! Reading the tree. -/

theorem readAll_map {α : Type} {read : Node → Option α} (node : α → Node)
    (h : ∀ a, read (node a) = some a) (as : List α) :
    Node.readAll read (as.map node) = some as := by
  induction as with
  | nil => rfl
  | cons a as ih => simp [Node.readAll, h, ih]

theorem list?_ofTables {α : Type} {read : Node → Option α} {entriesOf : α → Entries}
    (h : ∀ a, read (.table .header (entriesOf a)) = some a) (as : List α) :
    Node.list? read (Node.ofTables (as.map entriesOf)) = some as := by
  cases as with
  | nil => rfl
  | cons a as =>
    simpa [Node.ofTables, Node.list?, Function.comp_def] using readAll_map _ h (a :: as)

theorem required_of_get? {α : Type} {key : String} {es : Entries} {n : Node}
    {read : Node → Option α} {a : α} (index : Nat) (hget : get? key es = some n)
    (hread : read n = some a) :
    (Record.named es).required index key read = some a := by
  simp only [Record.required, Record.entry?, hget, hread]

theorem width?_toNat (w : Width) : Node.width? (.integer w.toNat) = some w := by
  have hw : (w.toNat : Int) < UInt32.size := by exact_mod_cast w.toNat_lt_size
  rw [Node.width?, if_pos ⟨Int.natCast_nonneg _, hw⟩]
  simp

end Toml

namespace Config

open Toml Toml.Entries

/-! The tree of a configuration, record by record. -/

def fieldEntries (f : FieldRef × FieldSpec) : Entries :=
  [("scope", .text f.1.scope), ("name", .text f.1.name), ("width", .integer f.2.width.toNat),
    ("signed", .boolean f.2.signed)]

def fieldSections (f : FieldRef × FieldSpec) : List Section :=
  [⟨.element, ["fields"], (fieldEntries f).pairs⟩]

def paramEntries (p : ParamSpec) : Entries :=
  [("name", .text p.name), ("width", .integer p.width.toNat)]

def paramSections (p : ParamSpec) : List Section :=
  [⟨.element, ["actions", "params"], (paramEntries p).pairs⟩]

def actionEntries (a : ActionSpec) : Entries :=
  [("name", .text a.name), ("params", Node.ofTables (a.params.map paramEntries))]

/-- Parameters have sections of their own after that of their action. -/
def actionSections (a : ActionSpec) : List Section :=
  if a.params.isEmpty then [⟨.element, ["actions"], (actionEntries a).pairs⟩]
  else ⟨.element, ["actions"], pairs [("name", .text a.name)]⟩ :: a.params.flatMap paramSections

def deviceEntries (d : DeviceConfig) : Entries :=
  (d.default.map fun s => ("default", Node.text s)).toList ++
    [("available", .array (d.available.map .text))]

def deviceSections (d : DeviceConfig) : List Section :=
  [⟨.table, ["devices"], (deviceEntries d).pairs⟩]

def pipelineEntries (c : Config) : Entries :=
  ("name", .text c.name) :: (c.description.map fun s => ("description", Node.text s)).toList

def openingEntries (c : Config) : Entries :=
  (if c.fields.isEmpty then [("fields", .array [])] else []) ++
    if c.actions.isEmpty then [("actions", .array [])] else []

def writtenSections (c : Config) : List Section :=
  ⟨.table, ["pipeline"], c.pipelineEntries.pairs⟩ :: (c.fields.flatMap fieldSections ++
    c.actions.flatMap actionSections ++ c.devices.toList.flatMap deviceSections)

theorem map_line_fieldLines (f : FieldRef × FieldSpec) :
    (fieldLines f).map Written.line = (fieldSections f).flatMap Section.lines := rfl

theorem map_line_paramLines (p : ParamSpec) :
    (paramLines p).map Written.line = (paramSections p).flatMap Section.lines := rfl

theorem map_line_actionLines (a : ActionSpec) :
    (actionLines a).map Written.line = (actionSections a).flatMap Section.lines := by
  obtain ⟨name, params⟩ := a
  cases params with
  | nil => rfl
  | cons p ps =>
    have hparams := map_line_flatMap map_line_paramLines (p :: ps)
    simpa [actionLines, actionSections, Section.lines, pairs, Written.line, Setting.node] using
      hparams

theorem map_line_deviceLines (d : DeviceConfig) :
    (deviceLines d).map Written.line = (deviceSections d).flatMap Section.lines := by
  obtain ⟨default, available⟩ := d
  cases default <;> rfl

theorem map_line_written (c : Config) :
    c.written.map Written.line =
      (c.openingEntries.pairs.map fun p => Line.pair p.1 p.2) ++
        c.writtenSections.flatMap Section.lines := by
  have hopening : ((if c.fields.isEmpty then [Written.setting "fields" (.list [])] else []) ++
      if c.actions.isEmpty then [Written.setting "actions" (.list [])] else []).map Written.line =
        c.openingEntries.pairs.map fun p => Line.pair p.1 p.2 := by
    cases hf : c.fields.isEmpty <;> cases ha : c.actions.isEmpty <;>
      simp [openingEntries, pairs, hf, ha, Written.line, Setting.node]
  have hpipeline : (c.description.map fun s => Written.setting "description" (.text s)).toList.map
      Written.line = ((c.description.map fun s => ("description", Node.text s)).toList.map
        fun e => Line.pair [e.1] e.2) := by
    cases c.description <;> rfl
  have hfields := map_line_flatMap map_line_fieldLines c.fields
  have hactions := map_line_flatMap map_line_actionLines c.actions
  have hdevices := map_line_flatMap map_line_deviceLines c.devices.toList
  rw [written, List.map_append, hopening]
  simp only [List.map_cons, List.map_append, hpipeline, hfields, hactions, hdevices]
  simp [writtenSections, Section.lines, pipelineEntries, pairs, Written.line, Setting.node]

theorem addSections_fields {root : Entries} {fields : List (FieldRef × FieldSpec)}
    (hroot : fields ≠ [] → get? "fields" root = none) :
    addSections (fields.flatMap fieldSections) root =
      some (withTables "fields" (fields.map fieldEntries) root) := by
  refine addSections_tables hroot fun hnone f done => ?_
  have hkeys : ((fieldEntries f).map Prod.fst).Nodup := by simp [fieldEntries]
  simp [fieldSections, addSections, addSection_element hnone hkeys]

/-- The sections of an action append one element, however many parameters it has. -/
theorem addSections_action {root : Entries} (hroot : get? "actions" root = none) (a : ActionSpec)
    (done : List Entries) :
    addSections (actionSections a) (withTables "actions" done root) =
      some (withTables "actions" (done ++ [actionEntries a]) root) := by
  obtain ⟨name, params⟩ := a
  cases params with
  | nil =>
    have hkeys : ((actionEntries ⟨name, []⟩).map Prod.fst).Nodup := by simp [actionEntries]
    simp [actionSections, addSections, addSection_element hroot hkeys]
  | cons p ps =>
    have hfirst : addSection (withTables "actions" done root)
        ⟨.element, ["actions"], pairs [("name", .text name)]⟩ =
          some (withTables "actions" (done ++ [withTables "params" [] [("name", .text name)]])
            root) :=
      addSection_element hroot (by simp) done
    have hparams : addSections ((p :: ps).flatMap paramSections)
        (withTables "actions" (done ++ [withTables "params" [] [("name", .text name)]]) root) =
          some (withTables "actions" (done ++ [withTables "params"
            ([] ++ (p :: ps).map paramEntries) [("name", .text name)]]) root) := by
      refine addSections_flatMap (fun elements => withTables "actions"
        (done ++ [withTables "params" elements [("name", .text name)]]) root) ?_ (p :: ps) []
      intro p elements
      have hkeys : ((paramEntries p).map Prod.fst).Nodup := by simp [paramEntries]
      have hnone : get? "params" [("name", Node.text name)] = none := by simp [get?]
      simp [paramSections, addSections, addSection_nested hnone hkeys]
    have hlast : withTables "params" ([] ++ (p :: ps).map paramEntries) [("name", .text name)] =
        actionEntries ⟨name, p :: ps⟩ := by
      simp [withTables, Entries.set, actionEntries, Node.ofTables]
    rw [actionSections, if_neg (by simp), addSections, hfirst]
    rw [hlast] at hparams
    exact hparams

def pipelineTree (c : Config) : Entries :=
  withTables "actions" (c.actions.map actionEntries)
    (withTables "fields" (c.fields.map fieldEntries)
      (set "pipeline" (.table .header c.pipelineEntries) c.openingEntries))

def tree (c : Config) : Entries :=
  match c.devices with
  | none => c.pipelineTree
  | some d => set "devices" (.table .header (deviceEntries d)) c.pipelineTree

theorem get?_openingEntries (c : Config) (key : String) :
    get? key c.openingEntries =
      if ("fields" = key ∧ c.fields = []) ∨ ("actions" = key ∧ c.actions = []) then
        some (.array []) else none := by
  by_cases hf : c.fields = [] <;> by_cases ha : c.actions = [] <;>
    by_cases hkf : "fields" = key <;> by_cases hka : "actions" = key <;>
      simp [openingEntries, get?, hf, ha, hkf, hka]

theorem get?_pipelineTree (c : Config) :
    get? "pipeline" c.pipelineTree = some (.table .header c.pipelineEntries) ∧
      get? "fields" c.pipelineTree = some (Node.ofTables (c.fields.map fieldEntries)) ∧
      get? "actions" c.pipelineTree = some (Node.ofTables (c.actions.map actionEntries)) ∧
      get? "devices" c.pipelineTree = none := by
  refine ⟨?_, ?_, ?_, ?_⟩
  · simp [pipelineTree, get?_withTables_of_ne, get?_set]
  · rw [pipelineTree, get?_withTables_of_ne (by decide)]
    refine get?_withTables_self fun h => ?_
    simp [get?_set, get?_openingEntries, List.map_eq_nil_iff.mp h]
  · refine get?_withTables_self fun h => ?_
    simp [get?_withTables_of_ne, get?_set, get?_openingEntries, List.map_eq_nil_iff.mp h]
  · simp [pipelineTree, get?_withTables_of_ne, get?_set, get?_openingEntries]

theorem assemble_written (c : Config) : assemble (c.written.map Written.line) = some c.tree := by
  have hopening : setPaths c.openingEntries.pairs [] = some c.openingEntries := by
    refine setPaths_pairs ?_
    cases hf : c.fields.isEmpty <;> cases ha : c.actions.isEmpty <;> simp [openingEntries, hf, ha]
  have hkeys : (c.pipelineEntries.map Prod.fst).Nodup := by
    cases hd : c.description <;> simp [pipelineEntries, hd]
  have hpipeline := addSection_table (get?_openingEntries c "pipeline") hkeys
  have hfields := @addSections_fields
    (set "pipeline" (.table .header c.pipelineEntries) c.openingEntries) c.fields fun h => by
      simp [get?_set, get?_openingEntries, h]
  have hactions : addSections (c.actions.flatMap actionSections)
      (withTables "fields" (c.fields.map fieldEntries)
        (set "pipeline" (.table .header c.pipelineEntries) c.openingEntries)) =
          some c.pipelineTree :=
    addSections_tables (fun h => by
      simp [get?_withTables_of_ne, get?_set, get?_openingEntries, h]) addSections_action
  have hdevices : addSections (c.devices.toList.flatMap deviceSections) c.pipelineTree =
      some c.tree := by
    have hnone := (get?_pipelineTree c).2.2.2
    rw [tree]
    cases c.devices with
    | none => rfl
    | some d =>
      have hkeys : ((deviceEntries d).map Prod.fst).Nodup := by
        cases hd : d.default <;> simp [deviceEntries, hd]
      simp [deviceSections, addSections, addSection_table hnone hkeys]
  rw [map_line_written, assemble, sections_lines]
  simp only [hopening, writtenSections, addSections, hpipeline, addSections_append, hfields,
    hactions, hdevices, Option.bind_some]

/-! Reading the records of the tree. -/

/-- Stated of any record: at the entries of a field, checking the proof would compute the width. -/
theorem field?_of_record {n : Node} {r : Record} {scope name : String} {width : Width}
    {signed : Bool} (hr : Record.of? n = some r)
    (hscope : r.required 0 "scope" Node.text? = some scope)
    (hname : r.required 1 "name" Node.text? = some name)
    (hwidth : r.required 2 "width" Node.width? = some width)
    (hsigned : r.withDefault 3 "signed" false Node.flag? = some signed) :
    Node.field? n = some (⟨scope, name⟩, ⟨width, signed⟩) := by
  simp only [Node.field?, hr, hscope, hname, hwidth, hsigned]

theorem param?_of_record {n : Node} {r : Record} {name : String} {width : Width}
    (hr : Record.of? n = some r) (hname : r.required 0 "name" Node.text? = some name)
    (hwidth : r.required 1 "width" Node.width? = some width) :
    Node.param? n = some ⟨name, width⟩ := by
  simp only [Node.param?, hr, hname, hwidth]

theorem field?_fieldEntries (f : FieldRef × FieldSpec) :
    Node.field? (.table .header (fieldEntries f)) = some f := by
  have hscope : (Record.named (fieldEntries f)).required 0 "scope" Node.text? = some f.1.scope := by
    simp [Record.required, Record.entry?, fieldEntries, get?, Node.text?]
  have hname : (Record.named (fieldEntries f)).required 1 "name" Node.text? = some f.1.name := by
    simp [Record.required, Record.entry?, fieldEntries, get?, Node.text?]
  have hwidth : (Record.named (fieldEntries f)).required 2 "width" Node.width? =
      some f.2.width := by
    refine required_of_get? 2 ?_ (width?_toNat f.2.width)
    simp [fieldEntries, get?]
  have hsigned : (Record.named (fieldEntries f)).withDefault 3 "signed" false Node.flag? =
      some f.2.signed := by
    simp [Record.withDefault, Record.entry?, fieldEntries, get?, Node.flag?]
  exact field?_of_record rfl hscope hname hwidth hsigned

theorem param?_paramEntries (p : ParamSpec) :
    Node.param? (.table .header (paramEntries p)) = some p := by
  have hname : (Record.named (paramEntries p)).required 0 "name" Node.text? = some p.name := by
    simp [Record.required, Record.entry?, paramEntries, get?, Node.text?]
  have hwidth : (Record.named (paramEntries p)).required 1 "width" Node.width? = some p.width := by
    refine required_of_get? 1 ?_ (width?_toNat p.width)
    simp [paramEntries, get?]
  exact param?_of_record rfl hname hwidth

theorem action?_actionEntries (a : ActionSpec) :
    Node.action? (.table .header (actionEntries a)) = some a := by
  simp [Node.action?, Record.of?, Record.required, Record.withDefault, Record.entry?,
    actionEntries, get?, Node.text?, list?_ofTables param?_paramEntries]

theorem devices?_deviceEntries (d : DeviceConfig) :
    Node.devices? (.table .header (deviceEntries d)) = some d := by
  have havailable : Node.list? Node.text? (.array (d.available.map .text)) = some d.available :=
    readAll_map Node.text (fun _ => rfl) d.available
  obtain ⟨default, available⟩ := d
  cases default <;>
    simp [Node.devices?, Record.of?, Record.optional, Record.withDefault, Record.entry?,
      deviceEntries, get?, Node.text?, havailable]

theorem pipeline?_pipelineEntries (c : Config) :
    Node.pipeline? (.table .header c.pipelineEntries) = some (c.name, c.description) := by
  cases hd : c.description <;>
    simp [Node.pipeline?, Record.of?, Record.required, Record.optional, Record.entry?,
      pipelineEntries, get?, Node.text?, hd]

theorem ofEntries_tree (c : Config) : ofEntries c.tree = some c := by
  obtain ⟨hpipeline, hfields, hactions, hdevices⟩ := get?_pipelineTree c
  have hreadFields := list?_ofTables field?_fieldEntries c.fields
  have hreadActions := list?_ofTables action?_actionEntries c.actions
  obtain ⟨name, description, fields, actions, devices⟩ := c
  cases devices with
  | none =>
    simp [ofEntries, tree, Record.required, Record.withDefault, Record.optional, Record.entry?,
      hpipeline, hfields, hactions, hdevices, pipeline?_pipelineEntries, hreadFields, hreadActions]
  | some d =>
    simp [ofEntries, tree, Record.required, Record.withDefault, Record.optional, Record.entry?,
      get?_set, hpipeline, hfields, hactions, pipeline?_pipelineEntries, hreadFields,
      hreadActions, devices?_deviceEntries]

/-! Every line that is written can be read. -/

theorem number_isReadable (w : Width) : (Setting.number w.toNat).IsReadable :=
  Nat.lt_of_lt_of_le w.toNat_lt (by decide)

theorem fieldLines_isReadable (f : FieldRef × FieldSpec) : ∀ w ∈ fieldLines f, w.IsReadable := by
  simp only [fieldLines, List.forall_mem_cons]
  exact ⟨⟨by decide, by decide, by decide⟩, ⟨by decide, trivial⟩, ⟨by decide, trivial⟩,
    ⟨by decide, number_isReadable _⟩, ⟨by decide, trivial⟩, List.forall_mem_nil _⟩

theorem paramLines_isReadable (p : ParamSpec) : ∀ w ∈ paramLines p, w.IsReadable := by
  simp only [paramLines, List.forall_mem_cons]
  exact ⟨⟨by decide, by decide, by decide⟩, ⟨by decide, trivial⟩,
    ⟨by decide, number_isReadable _⟩, List.forall_mem_nil _⟩

theorem actionLines_isReadable (a : ActionSpec) : ∀ w ∈ actionLines a, w.IsReadable := by
  simp only [actionLines, List.forall_mem_cons]
  refine ⟨⟨by decide, by decide, by decide⟩, ⟨by decide, trivial⟩, ?_⟩
  split
  · exact List.forall_mem_singleton.mpr ⟨by decide, trivial⟩
  · exact List.forall_mem_flatMap.mpr fun p _ => paramLines_isReadable p

theorem deviceLines_isReadable (d : DeviceConfig) : ∀ w ∈ deviceLines d, w.IsReadable := by
  simp only [deviceLines, List.forall_mem_cons, List.forall_mem_append]
  refine ⟨⟨by decide, by decide, by decide⟩, ?_, ⟨by decide, trivial⟩, List.forall_mem_nil _⟩
  cases d.default with
  | none => exact List.forall_mem_nil _
  | some s => exact List.forall_mem_singleton.mpr ⟨by decide, trivial⟩

theorem written_isReadable (c : Config) : ∀ w ∈ c.written, w.IsReadable := by
  simp only [written, List.forall_mem_cons, List.forall_mem_append, List.forall_mem_flatMap]
  refine ⟨⟨?_, ?_⟩, ⟨by decide, by decide, by decide⟩, ⟨by decide, trivial⟩, ⟨⟨?_, ?_⟩, ?_⟩, ?_⟩
  · split
    · exact List.forall_mem_singleton.mpr ⟨by decide, trivial⟩
    · exact List.forall_mem_nil _
  · split
    · exact List.forall_mem_singleton.mpr ⟨by decide, trivial⟩
    · exact List.forall_mem_nil _
  · cases c.description with
    | none => exact List.forall_mem_nil _
    | some s => exact List.forall_mem_singleton.mpr ⟨by decide, trivial⟩
  · exact fun f _ => fieldLines_isReadable f
  · exact fun a _ => actionLines_isReadable a
  · exact fun d _ => deviceLines_isReadable d

theorem ofToml_toToml (c : Config) : ofToml c.toToml = .ok c := by
  have hlines := lines_writeAll (written_isReadable c)
  have hdocument : document c.toToml = some c.tree := by
    rw [document, toToml, String.toList_ofList, hlines]
    exact assemble_written c
  simp [ofToml, hdocument, ofEntries_tree]

/-- Every configuration survives its text and the bytes of its text. -/
theorem config_survives_its_text (c : Config) :
    ofToml c.toToml = .ok c ∧ ofBytes c.toToml.toUTF8 = .ok c := by
  refine ⟨ofToml_toToml c, ?_⟩
  have hbytes : String.fromUTF8? c.toToml.toUTF8 = some c.toToml := by
    have hvalid : c.toToml.toUTF8.IsValidUTF8 := c.toToml.isValidUTF8
    rw [String.fromUTF8?, dif_pos hvalid]
    rfl
  rw [ofBytes, hbytes]
  exact ofToml_toToml c

end Config

end StatefulPipeline
