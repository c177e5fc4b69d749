import Mathlib.Data.List.Induction
import StatefulPipeline.Proofs.SchemaBuilding

/-! Schemas and the declarations that made them. A declaration has a place in a schema, and it is
accepted exactly if it is well-formed and its place is free; so what a schema holds is what was
accepted, whatever was refused in between. The schema may as well be changed in place, by steps that
check as they go: a step writes only when nothing can fail any more, and one that fails leaves no
trace. -/

namespace StatefulPipeline

/-- Work on a schema that is changed in place: what a step has written when it fails stays. -/
abbrev Building := ExceptT SchemaError (StateM Schema)

namespace Building

def checkWidth (name : String) (width : Width) : Building Unit :=
  if width = 0 ∨ maxWidth < width.toNat then throw (.invalidWidth name width) else pure ()

def checkParams (action : String) (before : List ParamSpec) : List ParamSpec → Building Unit
  | [] => pure ()
  | p :: ps => do
    checkWidth (action ++ "." ++ p.name) p.width
    if before.any fun q => q.name = p.name then throw (.duplicate (action ++ "." ++ p.name))
    checkParams action (before ++ [p]) ps

def declare : Declaration → Building Unit
  | .field field spec => do
    checkWidth field.path spec.width
    if (← get).fields.contains field then throw (.duplicate field.path)
    modify fun s => { s with fields := s.fields.insert field spec }
  | .action spec => do
    if (← get).actions.contains spec.name then throw (.duplicate spec.name)
    checkParams spec.name [] spec.params
    modify fun s => { s with actions := s.actions.insert spec.name spec }

def step (d : Declaration) (schema : Schema) : Except SchemaError Unit × Schema :=
  (declare d).run.run schema

theorem run_bind {α β : Type} (x : Building α) (f : α → Building β) (s : Schema) :
    (x >>= f).run.run s =
      match x.run.run s with
      | (.ok a, s') => (f a).run.run s'
      | (.error e, s') => (.error e, s') := by
  rw [ExceptT.run_bind, StateT.run_bind]
  rcases x.run.run s with ⟨_ | _, _⟩
  · rfl
  · rfl

theorem run_get_bind {α : Type} (f : Schema → Building α) (s : Schema) :
    (get >>= f).run.run s = (f s).run.run s := rfl

theorem run_checkWidth (name : String) (width : Width) (s : Schema) :
    (checkWidth name width).run.run s = (Schema.checkWidth name width, s) := by
  have hbad : (width = 0 ∨ maxWidth < width.toNat) ↔ ¬ Encoded.ValidWidth width.toNat := by
    rw [Encoded.ValidWidth, ← UInt32.toNat_inj, UInt32.toNat_zero]
    omega
  rw [checkWidth, Schema.checkWidth]
  by_cases hw : Encoded.ValidWidth width.toNat
  · rw [if_neg (by rwa [hbad, not_not]), if_pos hw]
    rfl
  · rw [if_pos (hbad.mpr hw), if_neg hw]
    rfl

theorem run_checkParams {action : String} {before : List ParamSpec} {seen : List String}
    (h : ∀ name, name ∈ seen ↔ ∃ q ∈ before, q.name = name) (ps : List ParamSpec) (s : Schema) :
    (checkParams action before ps).run.run s = (Schema.checkParams action seen ps, s) := by
  induction ps generalizing before seen with
  | nil => rfl
  | cons p ps ih =>
    rw [checkParams, run_bind, run_checkWidth, Schema.checkParams]
    cases Schema.checkWidth (action ++ "." ++ p.name) p.width with
    | error e => rfl
    | ok _ =>
      have hseen : (before.any fun q => q.name = p.name) = true ↔ p.name ∈ seen := by
        simp [h]
      simp only [hseen]
      split_ifs with hp
      · rfl
      · refine ih ?_
        intro name
        rw [List.mem_cons, h]
        simp [or_comm, eq_comm]

/-- In place, a declaration answers as it does elsewhere, and one that fails has written nothing. -/
theorem step_eq (d : Declaration) (s : Schema) :
    step d s = ((s.declare d).map fun _ => (), s.tryDeclare d) := by
  cases d with
  | field field spec =>
    rw [step, declare, run_bind, run_checkWidth, Schema.tryDeclare, Schema.declare]
    cases Schema.checkWidth field.path spec.width with
    | error e => rfl
    | ok _ =>
      simp only [run_get_bind]
      split_ifs with hc
      · rfl
      · rfl
  | action spec =>
    have hparams := @run_checkParams spec.name [] [] (by simp) spec.params s
    rw [step, declare, run_get_bind, Schema.tryDeclare, Schema.declare]
    split_ifs with hc
    · rfl
    · rw [run_bind, hparams]
      cases Schema.checkParams spec.name [] spec.params with
      | error e => rfl
      | ok _ => rfl

end Building

namespace Declaration

/-- Where a schema keeps a declaration: a field under its reference, an action under its name. -/
def place : Declaration → FieldRef ⊕ String
  | field ref _ => .inl ref
  | action spec => .inr spec.name

def WellFormed : Declaration → Prop
  | field _ spec => Encoded.ValidWidth spec.width.toNat
  | action spec => spec.WellFormed

theorem place_eq_inl_iff {d : Declaration} {ref : FieldRef} :
    d.place = .inl ref ↔ ∃ spec, d = field ref spec := by
  cases d <;> simp [place]

theorem place_eq_inr_iff {d : Declaration} {name : String} :
    d.place = .inr name ↔ ∃ spec, d = action spec ∧ spec.name = name := by
  cases d <;> simp [place]

end Declaration

namespace Schema

def Holds (schema : Schema) : Declaration → Prop
  | .field field spec => schema.fields.get? field = some spec
  | .action spec => schema.actions.get? spec.name = some spec

theorem not_holds_empty (d : Declaration) : ¬ empty.Holds d := by
  cases d <;> simp [Holds, empty]

namespace WellFormed

variable {schema : Schema}

theorem name_of_get? (h : schema.WellFormed) {name : String} {spec : ActionSpec}
    (hs : schema.actions.get? name = some spec) : spec.name = name :=
  h.names _ (SortedMap.get?_eq_some_iff.mp hs)

theorem get?_action_iff (h : schema.WellFormed) {name : String} {spec : ActionSpec} :
    schema.actions.get? name = some spec ↔ spec.name = name ∧ schema.Holds (.action spec) := by
  constructor
  · intro hs
    obtain rfl := h.name_of_get? hs
    exact ⟨rfl, hs⟩
  · rintro ⟨rfl, hs⟩
    exact hs

theorem eq_of_holds_iff {schema' : Schema} (h : schema.WellFormed) (h' : schema'.WellFormed)
    (hd : ∀ d, schema.Holds d ↔ schema'.Holds d) : schema = schema' := by
  have hfields : schema.fields = schema'.fields := by
    apply SortedMap.ext_get?
    intro field
    apply Option.ext
    intro spec
    exact hd (.field field spec)
  have hactions : schema.actions = schema'.actions := by
    apply SortedMap.ext_get?
    intro name
    apply Option.ext
    intro spec
    rw [h.get?_action_iff, h'.get?_action_iff, hd]
  cases schema
  cases schema'
  simp only at hfields hactions
  rw [hfields, hactions]

theorem exists_declare_iff (h : schema.WellFormed) {d : Declaration} :
    (∃ next, schema.declare d = .ok next) ↔
      d.WellFormed ∧ ∀ x, schema.Holds x → x.place ≠ d.place := by
  cases d with
  | field field spec =>
    have hfree : schema.fields.get? field = none ↔
        ∀ x, schema.Holds x → x.place ≠ .inl field := by
      rw [Option.eq_none_iff_forall_ne_some]
      constructor
      · intro hnone x hx hp
        obtain ⟨earlier, rfl⟩ := Declaration.place_eq_inl_iff.mp hp
        exact hnone earlier hx
      · intro hall earlier hs
        exact hall (.field field earlier) hs rfl
    simp only [declare_field_eq_ok_iff, exists_and_left, exists_eq, and_true, hfree]
    rfl
  | action spec =>
    have hfree : schema.actions.get? spec.name = none ↔
        ∀ x, schema.Holds x → x.place ≠ .inr spec.name := by
      rw [Option.eq_none_iff_forall_ne_some]
      constructor
      · intro hnone x hx hp
        obtain ⟨earlier, rfl, hname⟩ := Declaration.place_eq_inr_iff.mp hp
        exact hnone earlier (h.get?_action_iff.mpr ⟨hname, hx⟩)
      · intro hall earlier hs
        obtain ⟨hname, hx⟩ := h.get?_action_iff.mp hs
        exact hall (.action earlier) hx (congrArg Sum.inr hname)
    simp only [declare_action_eq_ok_iff, exists_and_left, exists_eq, and_true, hfree]
    exact and_comm

end WellFormed

/-- An accepted declaration is added to those before it and takes none of them away. -/
theorem holds_of_declare {schema next : Schema} {d : Declaration}
    (hd : schema.declare d = .ok next) (x : Declaration) :
    next.Holds x ↔ x = d ∨ schema.Holds x := by
  cases d with
  | field field spec =>
    obtain ⟨_, hnew, rfl⟩ := declare_field_eq_ok_iff.mp hd
    cases x with
    | field field' spec' =>
      by_cases hf : field = field'
      · subst hf
        simp [Holds, hnew, eq_comm]
      · simp [Holds, hf, Ne.symm hf]
    | action spec' => simp [Holds]
  | action spec =>
    obtain ⟨hnew, _, rfl⟩ := declare_action_eq_ok_iff.mp hd
    cases x with
    | field field' spec' => simp [Holds]
    | action spec' =>
      by_cases hn : spec.name = spec'.name
      · rw [hn] at hnew
        simp [Holds, hn, hnew, eq_comm]
      · have hne : spec' ≠ spec := fun he => hn (congrArg ActionSpec.name he.symm)
        simp [Holds, hn, hne]

/-- Some step of the sequence made the declaration, and it was accepted there. -/
def Accepted (ds : List Declaration) (d : Declaration) : Prop :=
  ∃ before next, before ++ [d] <+: ds ∧ (accept before).declare d = .ok next

theorem accept_concat (ds : List Declaration) (d : Declaration) :
    accept (ds ++ [d]) = (accept ds).tryDeclare d := by
  simp [accept]

theorem accepted_concat_iff {ds : List Declaration} {d x : Declaration} :
    Accepted (ds ++ [d]) x ↔
      (x = d ∧ ∃ next, (accept ds).declare d = .ok next) ∨ Accepted ds x := by
  constructor
  · rintro ⟨before, next, hp, hd⟩
    rcases List.prefix_concat_iff.mp hp with he | hp
    · obtain ⟨rfl, hlast⟩ := List.append_inj' he rfl
      obtain rfl : x = d := List.singleton_inj.mp hlast
      exact .inl ⟨rfl, next, hd⟩
    · exact .inr ⟨before, next, hp, hd⟩
  · rintro (⟨rfl, next, hd⟩ | ⟨before, next, hp, hd⟩)
    · exact ⟨ds, next, List.prefix_rfl, hd⟩
    · exact ⟨before, next, hp.trans (List.prefix_append ds [d]), hd⟩

theorem holds_tryDeclare (schema : Schema) (d x : Declaration) :
    (schema.tryDeclare d).Holds x ↔
      (x = d ∧ ∃ next, schema.declare d = .ok next) ∨ schema.Holds x := by
  rw [tryDeclare]
  cases hd : schema.declare d with
  | error e => simp
  | ok next => simp [holds_of_declare hd]

theorem holds_accept_iff (ds : List Declaration) (d : Declaration) :
    (accept ds).Holds d ↔ Accepted ds d := by
  -- From the end, since a declaration meets the schema that all those before it made.
  induction ds using List.reverseRecOn with
  | nil =>
    have hnone : ¬ Accepted [] d := by
      rintro ⟨before, _, hp, _⟩
      simp at hp
    exact iff_of_false (not_holds_empty d) hnone
  | append_singleton ds e ih => rw [accept_concat, holds_tryDeclare, accepted_concat_iff, ih]

theorem accepts_field_iff (ds : List Declaration) (field : FieldRef) (spec : FieldSpec) :
    (∃ next, (accept ds).declare (.field field spec) = .ok next) ↔
      (1 ≤ spec.width.toNat ∧ spec.width.toNat ≤ 128) ∧
        ∀ earlier, ¬ Accepted ds (.field field earlier) := by
  rw [(accept_wellFormed ds).exists_declare_iff]
  refine and_congr Iff.rfl ?_
  constructor
  · intro hall earlier ha
    exact hall (.field field earlier) ((holds_accept_iff ds _).mpr ha) rfl
  · intro hnone x hx hp
    obtain ⟨earlier, rfl⟩ := Declaration.place_eq_inl_iff.mp hp
    exact hnone earlier ((holds_accept_iff ds _).mp hx)

theorem accepts_action_iff (ds : List Declaration) (spec : ActionSpec) :
    (∃ next, (accept ds).declare (.action spec) = .ok next) ↔
      (∀ earlier, Accepted ds (.action earlier) → earlier.name ≠ spec.name) ∧
        (∀ p ∈ spec.params, 1 ≤ p.width.toNat ∧ p.width.toNat ≤ 128) ∧
        (spec.params.map ParamSpec.name).Nodup := by
  rw [(accept_wellFormed ds).exists_declare_iff]
  constructor
  · rintro ⟨hw, hall⟩
    refine ⟨fun earlier ha hname => ?_, hw.widths, hw.names⟩
    exact hall (.action earlier) ((holds_accept_iff ds _).mpr ha) (congrArg Sum.inr hname)
  · rintro ⟨hnone, hwidths, hnames⟩
    refine ⟨⟨hwidths, hnames⟩, fun x hx hp => ?_⟩
    obtain ⟨earlier, rfl, hname⟩ := Declaration.place_eq_inr_iff.mp hp
    exact hnone earlier ((holds_accept_iff ds _).mp hx) hname

/-- A schema is the record of its accepted declarations; the refused ones leave no trace. -/
theorem schema_is_its_accepted_declarations (ds : List Declaration) :
    (∀ d, Building.step d (accept ds) =
        (((accept ds).declare d).map fun _ => (), accept (ds ++ [d]))) ∧
      (∀ d error, (accept ds).declare d = .error error → accept (ds ++ [d]) = accept ds) ∧
      (∀ field spec, (∃ next, (accept ds).declare (.field field spec) = .ok next) ↔
        (1 ≤ spec.width.toNat ∧ spec.width.toNat ≤ 128) ∧
          ∀ earlier, ¬ Accepted ds (.field field earlier)) ∧
      (∀ spec, (∃ next, (accept ds).declare (.action spec) = .ok next) ↔
        (∀ earlier, Accepted ds (.action earlier) → earlier.name ≠ spec.name) ∧
          (∀ p ∈ spec.params, 1 ≤ p.width.toNat ∧ p.width.toNat ≤ 128) ∧
          (spec.params.map ParamSpec.name).Nodup) ∧
      (∀ field spec, (accept ds).fields.get? field = some spec ↔
        Accepted ds (.field field spec)) ∧
      (∀ name spec, (accept ds).actions.get? name = some spec ↔
        spec.name = name ∧ Accepted ds (.action spec)) := by
  refine ⟨?_, ?_, accepts_field_iff ds, accepts_action_iff ds, ?_, ?_⟩
  · intro d
    rw [Building.step_eq, accept_concat]
  · intro d error hd
    rw [accept_concat, tryDeclare, hd]
  · intro field spec
    exact holds_accept_iff ds (.field field spec)
  · intro name spec
    rw [(accept_wellFormed ds).get?_action_iff, holds_accept_iff]

/-- A field and an action are refused at first, then declared rightly; the field is declared once
more. -/
def secondTries : List Declaration :=
  [.field ⟨"ipv4", "ttl"⟩ ⟨0, false⟩, .action ⟨"forward", [⟨"port", 9⟩, ⟨"port", 9⟩]⟩,
    .field ⟨"ipv4", "ttl"⟩ ⟨8, false⟩, .action ⟨"forward", [⟨"port", 9⟩]⟩,
    .field ⟨"ipv4", "ttl"⟩ ⟨16, true⟩]

theorem secondTries_accepted :
    accept (secondTries ++ [.action ⟨"forward", []⟩]) = accept secondTries ∧
      (∃ next, (accept secondTries).declare (.action ⟨"drop", []⟩) = .ok next) ∧
      Accepted secondTries (.field ⟨"ipv4", "ttl"⟩ ⟨8, false⟩) ∧
      ¬ Accepted secondTries (.field ⟨"ipv4", "ttl"⟩ ⟨16, true⟩) ∧
      Accepted secondTries (.action ⟨"forward", [⟨"port", 9⟩]⟩) := by
  obtain ⟨_, hrefused, _, _, hfields, hactions⟩ := schema_is_its_accepted_declarations secondTries
  refine ⟨hrefused (.action ⟨"forward", []⟩) (.duplicate "forward") rfl, ⟨_, rfl⟩, ?_, ?_, ?_⟩
  · exact (hfields _ _).mp rfl
  · intro ha
    exact absurd ((hfields _ _).mpr ha) (by decide)
  · exact ((hactions "forward" _).mp rfl).2

end Schema
end StatefulPipeline
