import StatefulPipeline.Proofs.ActionTable
import StatefulPipeline.Proofs.SelectorMeaning

/-! What a compiled rule has to do with the schema that it was compiled for. Each of its terms is a
declared field with the value that was asked for, in as many bytes as the declared width needs; its
action is a declared one with declared parameters, unless a decision comes down to an action without
parameters. A schema accepts encodable widths only, so encoding never complains about a width. -/

namespace StatefulPipeline

section Traversal

variable {α β ε : Type} {f : α → Except ε β}

/-- A traversal succeeds member by member. -/
theorem forall₂_of_mapM_eq_ok {as : List α} {bs : List β} (h : as.mapM f = .ok bs) :
    List.Forall₂ (fun a b => f a = .ok b) as bs := by
  induction as generalizing bs with
  | nil =>
    obtain rfl : [] = bs := Except.ok.inj h
    exact .nil
  | cons a as ih =>
    rw [List.mapM_cons] at h
    cases ha : f a with
    | error e =>
      rw [ha] at h
      cases h
    | ok b =>
      cases has : as.mapM f with
      | error e =>
        rw [ha, has] at h
        cases h
      | ok bs' =>
        rw [ha, has] at h
        obtain rfl : b :: bs' = bs := Except.ok.inj h
        exact .cons ha (ih has)

theorem exists_of_mapM_eq_error {as : List α} {e : ε} (h : as.mapM f = .error e) :
    ∃ a ∈ as, f a = .error e := by
  induction as with
  | nil => cases h
  | cons a as ih =>
    rw [List.mapM_cons] at h
    cases ha : f a with
    | error e' =>
      rw [ha] at h
      obtain rfl : e' = e := Except.error.inj h
      exact ⟨a, List.mem_cons_self, ha⟩
    | ok b =>
      cases has : as.mapM f with
      | error e' =>
        rw [ha, has] at h
        obtain rfl : e' = e := Except.error.inj h
        obtain ⟨a', hm, ha'⟩ := ih has
        exact ⟨a', List.mem_cons_of_mem a hm, ha'⟩
      | ok bs =>
        rw [ha, has] at h
        cases h

end Traversal

/-- One call of the compiler. -/
inductive CompileCall where
  | transition (transition : Transition)
  | action (binding : ActionBinding)
  | lookup (selector : Selector) (action : String) (target : TargetId) (register : RegisterId)
  | forward (selector : Selector) (port : Port)
deriving DecidableEq, Repr

def Schema.compile (schema : Schema) : CompileCall → Except CompileError Rule
  | .transition t => schema.compileTransition t
  | .action b => schema.compileAction b
  | .lookup selector action target register =>
    schema.compileLookup selector action target register
  | .forward selector port => schema.compileForward selector port

structure ActionRequest where
  name : String
  params : List (String × Nat)
deriving DecidableEq, Repr

namespace Decision

def request : Decision → ActionRequest
  | .drop => ⟨Name.drop, []⟩
  | .sendToController => ⟨Name.sendToCpu, []⟩
  | .outputPort port => ⟨Name.forward, [(Name.port, port.toNat)]⟩

/-- The action without parameters that a decision can come down to. -/
def plain : Decision → Action
  | .sendToController => .named Name.sendToCpu
  | .drop | .outputPort _ => .named Name.drop

end Decision

namespace CompileCall

def terms : CompileCall → List (FieldRef × Int)
  | .transition t =>
    [(FieldRef.metadata Name.targetId, t.target.toNat),
      (FieldRef.metadata Name.curState, t.current.toNat),
      (FieldRef.metadata Name.trigger, t.trigger.toNat)]
  | .action b =>
    [(FieldRef.metadata Name.targetId, b.target.toNat),
      (FieldRef.metadata Name.nextState, b.state.toNat)]
  | .lookup selector _ _ _ | .forward selector _ => selector.terms

def table : CompileCall → Table
  | .transition _ => .stateTransfer
  | .action _ => .action
  | .lookup _ _ _ _ => .state
  | .forward _ _ => .forward

def decision? : CompileCall → Option Decision
  | .action b => some b.decision
  | .forward _ port => some (.outputPort port)
  | .transition _ | .lookup _ _ _ _ => none

def request : CompileCall → ActionRequest
  | .transition t => ⟨Name.stateTransfer, [(Name.nextState, t.next.toNat)]⟩
  | .action b => b.decision.request
  | .lookup _ name target register =>
    ⟨name, [(Name.targetId, target.toNat), (Name.registerId, register.toNat)]⟩
  | .forward _ port => (Decision.outputPort port).request

end CompileCall

/-- As many bytes as the width needs, which stand for the value by the width and the sign. -/
structure FieldSpec.Holds (spec : FieldSpec) (e : Encoded) (value : Int) : Prop where
  length : e.bytes.length = (spec.width.toNat + 7) / 8
  value : (if spec.signed then e.toInt spec.width.toNat else e.toNat) = value

theorem FieldSpec.holds_of_fitAs {spec : FieldSpec} {value : Int} {e : Encoded}
    (h : Encoded.fitAs spec.signed value spec.width.toNat = .ok e) : spec.Holds e value := by
  obtain ⟨hw, _, he⟩ := Encoded.fitAs_eq_ok_iff.mp h
  constructor
  · rw [he]
    exact Encoded.ofNat_length _ _
  · have hread := Encoded.readAs_of_fitAs h
    split_ifs with hs
    · rw [Encoded.toInt_eq_readAs hw (Encoded.toNat_lt_of_fitAs h), ← hs]
      exact hread
    · rw [Encoded.readAs, if_neg hs] at hread
      exact hread

theorem Encoded.fitAs_ne_invalidWidth {signed : Bool} {value : Int} {width width' : Nat}
    (hw : ValidWidth width) : fitAs signed value width ≠ .error (.invalidWidth width') := by
  intro h
  by_cases hr : InRange signed value width
  · rw [fitAs_eq_ok_iff.mpr ⟨hw, hr, rfl⟩] at h
    cases h
  · rw [fitAs_of_not_inRange hw hr] at h
    cases h

/-- The action is the one that was asked for and is declared, and so is each of its parameters,
which holds the value that was asked for. -/
structure Action.Carries (action : Action) (schema : Schema) (request : ActionRequest) : Prop where
  name : action.name = request.name
  params : ∃ spec, schema.actions.get? action.name = some spec ∧
    List.Forall₂
      (fun v p => p.name = v.1 ∧
        ∃ d ∈ spec.params, d.name = p.name ∧ (FieldSpec.mk d.width false).Holds p.value v.2)
      request.params action.params

/-- The rule is what the call asked for, in terms of the schema. -/
structure Rule.Conforms (rule : Rule) (schema : Schema) (call : CompileCall) : Prop where
  distinct : (rule.terms.map FieldMatch.field).Nodup
  terms : List.Forall₂
    (fun t m => m.field = t.1 ∧
      ∃ spec, schema.fields.get? m.field = some spec ∧ spec.Holds m.value t.2)
    call.terms rule.terms
  action : (∃ decision, call.decision? = some decision ∧ rule.action = decision.plain) ∨
    rule.action.Carries schema call.request

/-- The error is about a width that cannot be encoded. -/
def CompileError.OfWidth (e : CompileError) : Prop :=
  ∃ name width, e = .encode name (.invalidWidth width)

namespace Schema

variable {schema : Schema}

theorem action_eq_ok_iff {name : String} {spec : ActionSpec} :
    schema.action name = .ok spec ↔ schema.actions.get? name = some spec := by
  unfold Schema.action
  cases schema.actions.get? name with
  | none => simp
  | some spec' => simp

theorem paramWidth_eq_ok {action name : String} {width : Width}
    (h : schema.paramWidth action name = .ok width) :
    ∃ spec, schema.actions.get? action = some spec ∧
      ∃ d ∈ spec.params, d.name = name ∧ d.width = width := by
  unfold paramWidth at h
  split at h
  · cases h
  · rename_i spec hspec
    split at h
    · rename_i d hd
      refine ⟨spec, action_eq_ok_iff.mp hspec, d, List.mem_of_find?_eq_some hd, ?_⟩
      exact ⟨by simpa using List.find?_some hd, Except.ok.inj h⟩
    · cases h

theorem exactAll_eq_mapM (terms : List (FieldRef × Int)) :
    schema.exactAll terms = terms.mapM fun t => schema.exact t.1 t.2 := by
  induction terms with
  | nil => rfl
  | cons t ts ih =>
    rw [exactAll, List.mapM_cons, ← ih]
    cases schema.exact t.1 t.2 with
    | error e => rfl
    | ok m => cases schema.exactAll ts <;> rfl

theorem paramAll_eq_mapM (action : String) (values : List (String × Int)) :
    schema.paramAll action values = values.mapM fun v => schema.param action v.1 v.2 := by
  induction values with
  | nil => rfl
  | cons v vs ih =>
    rw [paramAll, List.mapM_cons, ← ih]
    cases schema.param action v.1 v.2 with
    | error e => rfl
    | ok p => cases schema.paramAll action vs <;> rfl

theorem holds_of_param {action name : String} {value : Int} {p : ActionParam}
    (h : schema.param action name value = .ok p) :
    p.name = name ∧ ∃ spec, schema.actions.get? action = some spec ∧
      ∃ d ∈ spec.params, d.name = p.name ∧ (FieldSpec.mk d.width false).Holds p.value value := by
  obtain ⟨rfl, width, hwidth, hfit⟩ := param_eq_ok_iff.mp h
  obtain ⟨spec, hspec, d, hd, hname, rfl⟩ := paramWidth_eq_ok hwidth
  exact ⟨rfl, spec, hspec, d, hd, hname, FieldSpec.holds_of_fitAs hfit⟩

theorem carries_of_params {name : String} {values : List (String × Nat)}
    {params : List ActionParam} {spec : ActionSpec} (hspec : schema.actions.get? name = some spec)
    (h : List.Forall₂ (fun v p => schema.param name v.1 (v.2 : Nat) = .ok p) values params) :
    (Action.mk name params).Carries schema ⟨name, values⟩ := by
  refine ⟨rfl, spec, hspec, h.imp ?_⟩
  intro v p hp
  obtain ⟨hname, spec', hspec', hd⟩ := holds_of_param hp
  obtain rfl : spec = spec' := Option.some.inj (hspec.symm.trans hspec')
  exact ⟨hname, hd⟩

theorem forwardTo_eq (port : Port) :
    schema.forwardTo port =
      match schema.param Name.forward Name.port port.toNat with
      | .ok p => ⟨Name.forward, [p]⟩
      | .error _ => .named Name.drop := by
  unfold forwardTo param
  cases schema.paramWidth Name.forward Name.port with
  | error e => rfl
  | ok width =>
    dsimp only
    cases Encoded.fit port.toNat width.toNat <;> rfl

theorem actionOf_conforms (decision : Decision) :
    schema.actionOf decision = decision.plain ∨
      (schema.actionOf decision).Carries schema decision.request := by
  cases decision with
  | drop => exact .inl rfl
  | sendToController => exact .inl rfl
  | outputPort port =>
    rw [actionOf, forwardTo_eq]
    cases hp : schema.param Name.forward Name.port port.toNat with
    | error e => exact .inl rfl
    | ok p =>
      obtain ⟨_, spec, hspec, _⟩ := holds_of_param hp
      exact .inr (carries_of_params hspec (.cons hp .nil))

theorem fields_of_exactAll {terms : List (FieldRef × Int)} {ms : List FieldMatch}
    (h : schema.exactAll terms = .ok ms) : ms.map FieldMatch.field = terms.map Prod.fst := by
  rw [exactAll_eq_ok_iff] at h
  induction h with
  | nil => rfl
  | cons ht _ ih => rw [List.map_cons, List.map_cons, ih, (exact_eq_ok_iff.mp ht).1]

def callTerms (schema : Schema) : CompileCall → Except CompileError (List FieldMatch)
  | .transition t => schema.exactAll (CompileCall.transition t).terms
  | .action b => schema.exactAll (CompileCall.action b).terms
  | .lookup selector _ _ _ => schema.selectorTerms selector .state
  | .forward selector _ => schema.selectorTerms selector .forward

def callAction (schema : Schema) : CompileCall → Except CompileError Action
  | .transition t =>
    match schema.param Name.stateTransfer Name.nextState t.next.toNat with
    | .error e => .error e
    | .ok next => .ok ⟨Name.stateTransfer, [next]⟩
  | .action b => .ok (schema.actionOf b.decision)
  | .lookup _ name target register =>
    match schema.action name with
    | .error e => .error (.schema e)
    | .ok spec =>
      match schema.paramAll name
        [(Name.targetId, target.toNat), (Name.registerId, register.toNat)] with
      | .error e => .error e
      | .ok params => .ok ⟨spec.name, params⟩
  | .forward _ port => .ok (schema.actionOf (.outputPort port))

/-- All calls go the same way: the terms first, then the action. -/
theorem compile_eq (call : CompileCall) :
    schema.compile call =
      match schema.callTerms call with
      | .error e => .error e
      | .ok terms =>
        match schema.callAction call with
        | .error e => .error e
        | .ok action => .ok ⟨call.table, terms, action, defaultPriority⟩ := by
  cases call with
  | transition t =>
    simp only [compile, compileTransition, callTerms, callAction, CompileCall.terms]
    cases schema.exactAll _ with
    | error e => rfl
    | ok terms => cases schema.param Name.stateTransfer Name.nextState t.next.toNat <;> rfl
  | action b => rfl
  | lookup selector name target register =>
    simp only [compile, compileLookup, callTerms, callAction]
    cases schema.selectorTerms selector .state with
    | error e => rfl
    | ok terms =>
      cases schema.action name with
      | error e => rfl
      | ok spec =>
        dsimp only
        cases schema.paramAll name _ <;> rfl
  | forward selector port => rfl

theorem compile_eq_ok {call : CompileCall} {rule : Rule} (h : schema.compile call = .ok rule) :
    schema.callTerms call = .ok rule.terms ∧ schema.callAction call = .ok rule.action := by
  rw [compile_eq] at h
  split at h
  · cases h
  · split at h
    · cases h
    · obtain rfl := Except.ok.inj h
      exact ⟨by assumption, by assumption⟩

theorem compile_eq_error {call : CompileCall} {e : CompileError}
    (h : schema.compile call = .error e) :
    schema.callTerms call = .error e ∨ schema.callAction call = .error e := by
  rw [compile_eq] at h
  split at h
  · rename_i hterms
    exact .inl (Except.error.inj h ▸ hterms)
  · split at h
    · rename_i haction
      exact .inr (Except.error.inj h ▸ haction)
    · cases h

theorem callTerms_eq_ok {call : CompileCall} {ms : List FieldMatch}
    (h : schema.callTerms call = .ok ms) :
    schema.exactAll call.terms = .ok ms ∧ (call.terms.map Prod.fst).Nodup := by
  have selected {selector : Selector} {table : Table}
      (hs : schema.selectorTerms selector table = .ok ms) :
      schema.exactAll selector.terms = .ok ms ∧ (selector.terms.map Prod.fst).Nodup := by
    obtain ⟨_, hrefs, hterms⟩ := selectorTerms_eq_ok_iff.mp hs
    refine ⟨hterms, ?_⟩
    rw [Selector.terms, List.map_map]
    exact hrefs
  cases call with
  | transition t => exact ⟨h, by simp [CompileCall.terms, FieldRef.metadata, Name.targetId,
      Name.curState, Name.trigger]⟩
  | action b => exact ⟨h, by simp [CompileCall.terms, FieldRef.metadata, Name.targetId,
      Name.nextState]⟩
  | lookup selector name target register => exact selected h
  | forward selector port => exact selected h

theorem callTerms_eq_error {call : CompileCall} {e : CompileError}
    (h : schema.callTerms call = .error e) :
    (∃ t ∈ call.terms, schema.exact t.1 t.2 = .error e) ∨
      (∃ table, e = .emptySelector table) ∨ ∃ field, e = .repeatedField field := by
  have term {terms : List (FieldRef × Int)} (ht : schema.exactAll terms = .error e) :
      ∃ t ∈ terms, schema.exact t.1 t.2 = .error e := by
    rw [exactAll_eq_mapM] at ht
    exact exists_of_mapM_eq_error ht
  have selected {selector : Selector} {table : Table}
      (hs : schema.selectorTerms selector table = .error e) :
      (∃ t ∈ selector.terms, schema.exact t.1 t.2 = .error e) ∨
        (∃ table, e = .emptySelector table) ∨ ∃ field, e = .repeatedField field := by
    unfold selectorTerms at hs
    split_ifs at hs
    · exact .inr (.inl ⟨table, (Except.error.inj hs).symm⟩)
    · split at hs
      · rename_i field _
        exact .inr (.inr ⟨field, (Except.error.inj hs).symm⟩)
      · exact .inl (term hs)
  cases call with
  | transition t => exact .inl (term h)
  | action b => exact .inl (term h)
  | lookup selector name target register => exact selected h
  | forward selector port => exact selected h

theorem WellFormed.callAction_eq_ok (hw : schema.WellFormed) {call : CompileCall} {action : Action}
    (h : schema.callAction call = .ok action) :
    (∃ decision, call.decision? = some decision ∧ action = decision.plain) ∨
      action.Carries schema call.request := by
  have decided (decision : Decision) (ha : schema.actionOf decision = action) :
      (∃ d, some decision = some d ∧ action = d.plain) ∨
        action.Carries schema decision.request := by
    subst ha
    exact (actionOf_conforms decision).imp_left fun hp => ⟨decision, rfl, hp⟩
  cases call with
  | transition t =>
    simp only [callAction] at h
    split at h
    · cases h
    · rename_i next hnext
      obtain rfl := Except.ok.inj h
      obtain ⟨_, spec, hspec, _⟩ := holds_of_param hnext
      exact .inr (carries_of_params hspec (.cons hnext .nil))
  | action b => exact decided b.decision (Except.ok.inj h)
  | lookup selector name target register =>
    simp only [callAction] at h
    split at h
    · cases h
    · rename_i spec hspec
      split at h
      · cases h
      · rename_i params hparams
        obtain rfl := Except.ok.inj h
        rw [action_eq_ok_iff] at hspec
        have hname : spec.name = name := hw.names _ (SortedMap.get?_eq_some_iff.mp hspec)
        rw [paramAll_eq_mapM] at hparams
        have hvalues : List.Forall₂ (fun v p => schema.param name v.1 v.2 = .ok p)
            ([(Name.targetId, target.toNat), (Name.registerId, register.toNat)].map
              fun v => (v.1, (v.2 : Int))) params := forall₂_of_mapM_eq_ok hparams
        rw [hname]
        exact .inr (carries_of_params hspec (List.forall₂_map_left_iff.mp hvalues))
  | forward selector port => exact decided (.outputPort port) (Except.ok.inj h)

theorem callAction_eq_error {call : CompileCall} {e : CompileError}
    (h : schema.callAction call = .error e) :
    (∃ action name value, schema.param action name value = .error e) ∨
      ∃ name, e = .schema (.unknownAction name) := by
  cases call with
  | transition t =>
    simp only [callAction] at h
    split at h
    · rename_i hnext
      exact .inl ⟨_, _, _, Except.error.inj h ▸ hnext⟩
    · cases h
  | action b => cases h
  | lookup selector name target register =>
    simp only [callAction] at h
    split at h
    · rename_i e' haction
      unfold Schema.action at haction
      split at haction
      · cases haction
      · exact .inr ⟨name, by rw [← Except.error.inj h, ← Except.error.inj haction]⟩
    · split at h
      · rename_i hparams
        rw [Except.error.inj h, paramAll_eq_mapM] at hparams
        obtain ⟨v, _, hv⟩ := exists_of_mapM_eq_error hparams
        exact .inl ⟨name, v.1, v.2, hv⟩
      · cases h
  | forward selector port => cases h

section Widths

variable (hw : schema.WellFormed) {e : CompileError}
include hw

theorem WellFormed.not_ofWidth_of_exact {field : FieldRef} {value : Int}
    (h : schema.exact field value = .error e) : ¬ e.OfWidth := by
  rintro ⟨name, width, rfl⟩
  unfold exact at h
  split at h
  · cases h
  · rename_i spec hspec
    have hvalid := hw.fields _ (SortedMap.get?_eq_some_iff.mp (field_eq_ok_iff.mp hspec))
    split at h
    · rename_i e' hfit
      obtain ⟨_, rfl⟩ := CompileError.encode.inj (Except.error.inj h)
      exact Encoded.fitAs_ne_invalidWidth hvalid hfit
    · cases h

theorem WellFormed.not_ofWidth_of_param {action name : String} {value : Int}
    (h : schema.param action name value = .error e) : ¬ e.OfWidth := by
  rintro ⟨path, width, rfl⟩
  unfold param at h
  split at h
  · cases h
  · rename_i declared hwidth
    obtain ⟨spec, hspec, d, hd, _, rfl⟩ := paramWidth_eq_ok hwidth
    have hvalid := (hw.actions _ (SortedMap.get?_eq_some_iff.mp hspec)).widths d hd
    split at h
    · rename_i e' hfit
      obtain ⟨_, rfl⟩ := CompileError.encode.inj (Except.error.inj h)
      have hunsigned : Encoded.fitAs false value d.width.toNat = .error (.invalidWidth width) :=
        hfit
      exact Encoded.fitAs_ne_invalidWidth hvalid hunsigned
    · cases h

theorem WellFormed.not_ofWidth_of_compile {call : CompileCall}
    (h : schema.compile call = .error e) : ¬ e.OfWidth := by
  rcases compile_eq_error h with h | h
  · rcases callTerms_eq_error h with ⟨t, _, ht⟩ | ⟨table, rfl⟩ | ⟨field, rfl⟩
    · exact hw.not_ofWidth_of_exact ht
    · rintro ⟨name, width, he⟩
      cases he
    · rintro ⟨name, width, he⟩
      cases he
  · rcases callAction_eq_error h with ⟨action, name, value, hp⟩ | ⟨name, rfl⟩
    · exact hw.not_ofWidth_of_param hp
    · rintro ⟨name, width, he⟩
      cases he

end Widths

theorem WellFormed.conforms_of_compile (hw : schema.WellFormed) {call : CompileCall} {rule : Rule}
    (h : schema.compile call = .ok rule) : rule.Conforms schema call := by
  obtain ⟨hcall, haction⟩ := compile_eq_ok h
  obtain ⟨hterms, hnodup⟩ := callTerms_eq_ok hcall
  refine ⟨?_, ?_, hw.callAction_eq_ok haction⟩
  · rw [fields_of_exactAll hterms]
    exact hnodup
  · refine (exactAll_eq_ok_iff.mp hterms).imp ?_
    intro t m hm
    obtain ⟨hfield, spec, hspec, hfit⟩ := exact_eq_ok_iff.mp hm
    refine ⟨hfield, spec, ?_, FieldSpec.holds_of_fitAs hfit⟩
    rw [hfield]
    exact field_eq_ok_iff.mp hspec

/-- Whatever compiles over a built schema is what was asked for, in terms of that schema. -/
theorem compiled_rules_conform (schema : Schema) (h : schema.Reachable) :
    (∀ call rule, schema.compile call = .ok rule → rule.Conforms schema call) ∧
      (∀ call name width, schema.compile call ≠ .error (.encode name (.invalidWidth width))) ∧
      ∀ registry target results, schema.compileService registry target = .ok results →
        ∀ result ∈ results, ∃ call, result = schema.compile call := by
  have hw := h.wellFormed
  refine ⟨fun call rule hr => hw.conforms_of_compile hr, ?_, ?_⟩
  · intro call name width he
    exact hw.not_ofWidth_of_compile he ⟨name, width, rfl⟩
  · intro registry target results hs result hm
    obtain ⟨_, rfl⟩ := compileService_eq_ok_iff.mp hs
    rcases List.mem_append.mp hm with hm | hm
    · obtain ⟨b, _, rfl⟩ := List.mem_map.mp hm
      exact ⟨.action b, rfl⟩
    · obtain ⟨t, _, rfl⟩ := List.mem_map.mp hm
      exact ⟨.transition t, rfl⟩

/-- A negative value in twelve bits beside a port in nine, and a register in sixteen. -/
theorem falling_conforms :
    signedDelta.Reachable ∧
      ∃ rule, signedDelta.compile (.lookup falling Name.lookupByNothing 2 7) = .ok rule ∧
        rule.terms = [⟨⟨"standard_metadata", "ingress_port"⟩, ⟨[0, 3]⟩⟩,
          ⟨⟨"flow", "delta"⟩, ⟨[15, 254]⟩⟩] ∧
        rule.action = ⟨Name.lookupByNothing,
          [⟨Name.targetId, ⟨[0, 2]⟩⟩, ⟨Name.registerId, ⟨[0, 7]⟩⟩]⟩ ∧
        rule.Conforms signedDelta (.lookup falling Name.lookupByNothing 2 7) := by
  have hr : signedDelta.Reachable := ⟨_, rfl⟩
  refine ⟨hr, _, rfl, rfl, rfl, ?_⟩
  exact (compiled_rules_conform signedDelta hr).1 _ _ rfl

end Schema
end StatefulPipeline
