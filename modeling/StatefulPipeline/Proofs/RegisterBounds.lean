import Mathlib.Order.Bounds.Defs
import StatefulPipeline.Proofs.OutputPorts
import StatefulPipeline.Proofs.RuleConformance

/-! Which registers are drawn. A draw gives the least register at or above the counter that is not
live, as long as the register parameter of the lookup action can carry it. The bound that the
controller works out from the width of that parameter is the very bound of the encoder; so a
register that was drawn is never the reason why a flow does not compile, and as a flow is noted only
once it has compiled, no live register lies beyond the bound, drawn or requested. -/

namespace StatefulPipeline

namespace Slot

/-- A register at or above the counter that is not live. -/
def Free (slot : Slot) (r : RegisterId) : Prop := slot.next ≤ r.toNat ∧ slot.live.get? r = none

def FreeWithin (slot : Slot) (width : Nat) (r : RegisterId) : Prop :=
  slot.Free r ∧ r.toNat < Nat.min (Encoded.span width) (Encoded.span 32)

theorem taken_of_lt_firstFree {taken : Nat → Bool} {tries n k : Nat} (hn : n ≤ k)
    (hk : k < firstFree taken tries n) : taken k = true := by
  induction tries generalizing n with
  | zero =>
    rw [firstFree] at hk
    omega
  | succ tries ih =>
    rw [firstFree] at hk
    split_ifs at hk with ht
    · by_cases hkn : k = n
      · rw [hkn]
        exact ht
      · exact ih (by omega) hk
    · omega

variable {slot : Slot} {max r : RegisterId}

theorem Free.candidate_le (h : slot.Free r) : slot.candidate ≤ r.toNat := by
  by_contra hlt
  obtain ⟨a, ha⟩ := (isLive_toNat slot r).mp (taken_of_lt_firstFree h.1 (Nat.not_le.mp hlt))
  rw [h.2] at ha
  cases ha

theorem draw_eq_none (h : max.toNat < slot.candidate) : (slot.draw max).2 = none := by
  rw [draw, if_neg (Nat.not_le.mpr h)]

theorem exists_draw_eq_some (h : slot.candidate ≤ max.toNat) :
    ∃ r, (slot.draw max).2 = some r ∧ r.toNat = slot.candidate := by
  refine ⟨UInt32.ofNat slot.candidate, by rw [draw, if_pos h], ?_⟩
  exact UInt32.toNat_ofNat_of_lt (Nat.lt_of_le_of_lt h max.toNat_lt)

/-- If there is a free register within the bound, the least free one is drawn. -/
theorem exists_drawn_of_free (hr : slot.Free r) (hle : r ≤ max) :
    ∃ r, (slot.draw max).2 = some r ∧ IsLeast {r | slot.Free r} r ∧ r ≤ max := by
  have hc : slot.candidate ≤ max.toNat :=
    Nat.le_trans hr.candidate_le (UInt32.le_iff_toNat_le.mp hle)
  obtain ⟨r₀, hdraw, hnat⟩ := exists_draw_eq_some hc
  obtain ⟨hfree, hnext, _⟩ := draw_eq_some hdraw
  refine ⟨r₀, hdraw, ⟨⟨hnext, hfree⟩, ?_⟩, ?_⟩
  · intro r' hr'
    rw [UInt32.le_iff_toNat_le, hnat]
    exact Free.candidate_le hr'
  · rw [UInt32.le_iff_toNat_le, hnat]
    exact hc

theorem draw_eq_none_iff : (slot.draw max).2 = none ↔ ∀ r, slot.Free r → ¬ r ≤ max := by
  constructor
  · intro h r hr hle
    obtain ⟨r', hr', _⟩ := exists_drawn_of_free hr hle
    rw [h] at hr'
    cases hr'
  · intro h
    by_cases hc : slot.candidate ≤ max.toNat
    · obtain ⟨r, hdraw, hnat⟩ := exists_draw_eq_some hc
      obtain ⟨hfree, hnext, _⟩ := draw_eq_some hdraw
      refine absurd ?_ (h r ⟨hnext, hfree⟩)
      rw [UInt32.le_iff_toNat_le, hnat]
      exact hc
    · exact draw_eq_none (Nat.not_le.mp hc)

end Slot

namespace Encoded

theorem span_min (a b : Nat) : span (Nat.min a b) = Nat.min (span a) (span b) := by
  show span (min a b) = min (span a) (span b)
  rcases Nat.le_total a b with h | h
  · rw [Nat.min_eq_left h, Nat.min_eq_left (span_mono h)]
  · rw [Nat.min_eq_right h, Nat.min_eq_right (span_mono h)]

theorem exists_fit_iff {n width : Nat} (hw : ValidWidth width) :
    (∃ e, fit n width = .ok e) ↔ n < span width := by
  have hrange : InRange false n width ↔ n < span width := by
    simp [InRange]
  have hfit (e : Encoded) : fit n width = .ok e ↔ fitAs false n width = .ok e := Iff.rfl
  simp [hfit, fitAs_eq_ok_iff, hw, hrange]

end Encoded

namespace Schema

variable {schema : Schema} {action : String} {width : Width} {max : RegisterId}

theorem WellFormed.validWidth (hw : schema.WellFormed) {param : String}
    (h : schema.paramWidth action param = .ok width) : Encoded.ValidWidth width.toNat := by
  obtain ⟨spec, hspec, d, hd, _, rfl⟩ := paramWidth_eq_ok h
  exact (hw.actions _ (SortedMap.get?_eq_some_iff.mp hspec)).widths d hd

theorem maxRegister_eq_ok (h : schema.paramWidth action Name.registerId = .ok width) :
    ∃ max, schema.maxRegister action = .ok max ∧ ∀ r : RegisterId,
      r ≤ max ↔ r.toNat < Nat.min (Encoded.span width.toNat) (Encoded.span 32) := by
  refine ⟨_, by rw [maxRegister, h], ?_⟩
  intro r
  have hpos := Encoded.span_pos (Nat.min width.toNat 32)
  have hle : Encoded.span (Nat.min width.toNat 32) ≤ UInt32.size :=
    Encoded.span_mono (Nat.min_le_right width.toNat 32)
  have hnat : (UInt32.ofNat (Encoded.span (Nat.min width.toNat 32) - 1)).toNat =
      Encoded.span (Nat.min width.toNat 32) - 1 := UInt32.toNat_ofNat_of_lt (by omega)
  rw [UInt32.le_iff_toNat_le, hnat, ← Encoded.span_min]
  omega

theorem paramWidth_of_maxRegister (h : schema.maxRegister action = .ok max) :
    ∃ width, schema.paramWidth action Name.registerId = .ok width := by
  cases hw : schema.paramWidth action Name.registerId with
  | error e =>
    rw [maxRegister, hw] at h
    cases h
  | ok width => exact ⟨width, rfl⟩

/-- The bound of the controller is the bound of the encoder. -/
theorem WellFormed.le_maxRegister_iff (hw : schema.WellFormed)
    (h : schema.paramWidth action Name.registerId = .ok width)
    (hm : schema.maxRegister action = .ok max) (r : RegisterId) :
    r ≤ max ↔ ∃ e, Encoded.fit r.toNat width.toNat = .ok e := by
  obtain ⟨max', hm', hbound⟩ := maxRegister_eq_ok h
  obtain rfl := Except.ok.inj (hm.symm.trans hm')
  have hword : r.toNat < Encoded.span 32 := r.toNat_lt
  rw [hbound, Encoded.exists_fit_iff (hw.validWidth h)]
  exact ⟨fun hlt => (Nat.lt_min.mp hlt).1, fun hlt => Nat.lt_min.mpr ⟨hlt, hword⟩⟩

/-- A lookup either fails alike for every register, or depends on how its register is encoded. -/
theorem compileLookup_register (schema : Schema) (selector : Selector) (action : String)
    (target : TargetId) :
    (∃ e, ∀ r, schema.compileLookup selector action target r = .error e) ∨
      ∀ r : RegisterId,
        (∃ e, schema.param action Name.registerId r.toNat = .error e ∧
            schema.compileLookup selector action target r = .error e) ∨
          ∃ p rule, schema.param action Name.registerId r.toNat = .ok p ∧
            schema.compileLookup selector action target r = .ok rule := by
  cases hterms : schema.selectorTerms selector .state with
  | error e => exact .inl ⟨e, fun r => by simp [compileLookup, hterms]⟩
  | ok terms =>
    cases hspec : schema.action action with
    | error e => exact .inl ⟨.schema e, fun r => by simp [compileLookup, hterms, hspec]⟩
    | ok spec =>
      cases htarget : schema.param action Name.targetId target.toNat with
      | error e =>
        exact .inl ⟨e, fun r => by simp [compileLookup, hterms, hspec, paramAll, htarget]⟩
      | ok p =>
        refine .inr fun r => ?_
        cases hr : schema.param action Name.registerId r.toNat with
        | error e =>
          exact .inl ⟨e, rfl, by simp [compileLookup, hterms, hspec, paramAll, htarget, hr]⟩
        | ok p' =>
          refine .inr ⟨p', ⟨.state, terms, ⟨spec.name, [p, p']⟩, defaultPriority⟩, rfl, ?_⟩
          simp [compileLookup, hterms, hspec, paramAll, htarget, hr]

theorem fit_of_compileLookup {selector : Selector} {target : TargetId} {r : RegisterId}
    {rule : Rule} (h : schema.compileLookup selector action target r = .ok rule) :
    ∃ width e, schema.paramWidth action Name.registerId = .ok width ∧
      Encoded.fit r.toNat width.toNat = .ok e := by
  rcases schema.compileLookup_register selector action target with ⟨e, he⟩ | hall
  · cases h.symm.trans (he r)
  · rcases hall r with ⟨e, _, he⟩ | ⟨p, _, hp, _⟩
    · cases h.symm.trans he
    · obtain ⟨_, width, hwidth, hfit⟩ := param_eq_ok_iff.mp hp
      exact ⟨width, p.value, hwidth, hfit⟩

theorem compileLookup_of_compileFlow_error {target : Target} {r : RegisterId} {selector : Selector}
    {port : Option Port} {e : CompileError}
    (h : schema.compileFlow target r selector port = .error e) :
    schema.compileLookup selector target.lookupAction target.id r = .error e := by
  have hnone : schema.compileFlow target r selector none = .error e := by
    cases port with
    | none => exact h
    | some p =>
      rcases schema.compileFlow_port target r selector p with ⟨e', hnone, hsome⟩ |
        ⟨_, _, _, _, hsome⟩
      · rw [hnone, ← h, hsome]
      · cases h.symm.trans hsome
  unfold compileFlow at hnone
  split at hnone
  · rename_i e' hlookup
    rw [hlookup, Except.error.inj hnone]
  · cases hnone

end Schema

namespace Controller

variable {c : Controller} {q : BindRequest} {target : Target} {device : DeviceId}
  {max r : RegisterId}

theorem claim_of_drawn {slot : Slot} (service : String) (h : (slot.draw max).2 = some r) :
    claim slot service max none = ((slot.draw max).1, .ok r) := by
  rw [claim]
  split
  · simp_all
  · simp_all

theorem claim_of_exhausted {slot : Slot} (service : String) (h : (slot.draw max).2 = none) :
    claim slot service max none = ((slot.draw max).1, .error (.registersExhausted service)) := by
  rw [claim]
  split
  · simp_all
  · simp_all

/-- What becomes of a bind for which a register was drawn; if it fails, it would with every other.
-/
structure Draws (c : Controller) (q : BindRequest) (target : Target) (r : RegisterId) : Prop where
  counter : ((c.bind q).1.slot target.id).next = r.toNat + 1
  carried : ∃ p, c.schema.param target.lookupAction Name.registerId r.toNat = .ok p
  answer : (∃ report, (c.bind q).2 = .ok ⟨r, report⟩) ∨
    ∃ e, (c.bind q).2 = .error (.compile e) ∧
      ∀ r', c.schema.compileLookup q.selector target.lookupAction target.id r' = .error e

theorem draws_of_drawn (ha : c.Admits q target device max) (hq : q.register = none)
    (hdraw : ((c.slot target.id).draw max).2 = some r)
    (hp : ∃ p, c.schema.param target.lookupAction Name.registerId r.toNat = .ok p) :
    c.Draws q target r := by
  have hnext := (Slot.draw_eq_some hdraw).2.2
  have hclaim := claim_of_drawn q.service hdraw
  rw [← hq] at hclaim
  cases hflow : c.schema.compileFlow target r q.selector q.port with
  | ok rules =>
    have hverdict := ha.verdict_of_flow_ok hclaim hflow
    refine ⟨?_, hp, .inl ⟨_, by rw [bind_eq, hverdict, Verdict.answer]⟩⟩
    rw [bind_eq, hverdict, enact_slot, Verdict.slotAt, if_pos rfl]
    exact hnext
  | error e =>
    have hverdict := ha.verdict_of_flow_error hclaim hflow
    refine ⟨?_, hp, .inr ⟨e, by rw [bind_eq, hverdict, Verdict.answer], ?_⟩⟩
    · rw [bind_eq, hverdict, enact_slot, Verdict.slotAt, if_pos rfl]
      exact hnext
    · have hlookup := Schema.compileLookup_of_compileFlow_error hflow
      obtain ⟨p, hp⟩ := hp
      rcases c.schema.compileLookup_register q.selector target.lookupAction target.id with
        ⟨e', he'⟩ | hall
      · obtain rfl := Except.error.inj (hlookup.symm.trans (he' r))
        exact he'
      · rcases hall r with ⟨_, he', _⟩ | ⟨_, _, _, hok⟩
        · cases hp.symm.trans he'
        · cases hlookup.symm.trans hok

theorem Admits.exhausted_iff (ha : c.Admits q target device max) (hq : q.register = none) :
    (c.bind q).2 = .error (.registersExhausted q.service) ↔
      ((c.slot target.id).draw max).2 = none := by
  cases hdraw : ((c.slot target.id).draw max).2 with
  | none =>
    have hclaim := claim_of_exhausted q.service hdraw
    rw [← hq] at hclaim
    simp [bind_eq, ha.verdict_of_claim_error hclaim, Verdict.answer]
  | some r =>
    have hclaim := claim_of_drawn q.service hdraw
    rw [← hq] at hclaim
    cases hflow : c.schema.compileFlow target r q.selector q.port with
    | error e => simp [bind_eq, ha.verdict_of_flow_error hclaim hflow, Verdict.answer]
    | ok rules => simp [bind_eq, ha.verdict_of_flow_ok hclaim hflow, Verdict.answer]

/-- Every live flow compiles for its register, by a target of the registry. -/
def FlowsCompile (c : Controller) : Prop :=
  ∀ t r a, (c.slot t).live.get? r = some a →
    ∃ name target rules, c.registry.targetNamed? name = some target ∧ target.id = t ∧
      c.schema.compileFlow target r a.selector a.outputPort = .ok rules

theorem FlowsCompile.handle (h : c.FlowsCompile) (request : ControlRequest) :
    (c.handle request).1.FlowsCompile := by
  obtain ⟨hschema, hregistry⟩ := c.handle_fixed request
  intro t r a ha
  rw [hschema, hregistry]
  by_cases hrequest : ∃ q, request = .bind q
  · obtain ⟨q, rfl⟩ := hrequest
    cases hb : (c.bind q).2 with
    | error e => exact h t r a ((keeps_of_refused hb).live t ▸ ha)
    | ok o =>
      obtain ⟨target, ht, hnotes, _⟩ := notes_of_bound hb
      rcases hnotes.eq_or_live ha with ⟨rfl, rfl, rfl⟩ | ha
      · obtain ⟨target', _, _, rules, hadmits, _, hflow, _⟩ := bind_eq_ok hb
        obtain rfl := Except.ok.inj (ht.symm.trans hadmits.service_known)
        exact ⟨q.service, target, rules, target_eq_ok_iff.mp ht, rfl, hflow⟩
      · exact h t r a ha
  · exact h t r a ((keeps_of_not_bind (not_exists.mp hrequest)).live t ▸ ha)

theorem Reachable.flowsCompile (h : c.Reachable) : c.FlowsCompile := by
  refine h.preserves ?_ fun c request hc => hc.handle request
  intro schema registry devices device t r a ha
  simp [new, slot, Slot.empty] at ha

theorem Admits.freeWithin_iff (ha : c.Admits q target device max) {width : Width}
    (hw : c.schema.paramWidth target.lookupAction Name.registerId = .ok width) :
    (c.slot target.id).FreeWithin width.toNat r ↔ (c.slot target.id).Free r ∧ r ≤ max := by
  obtain ⟨max', hm, hbound⟩ := Schema.maxRegister_eq_ok hw
  obtain rfl := Except.ok.inj (ha.register_carried.symm.trans hm)
  rw [Slot.FreeWithin, hbound]

theorem Admits.exists_draws (ha : c.Admits q target device max) (hq : q.register = none)
    (hs : c.schema.WellFormed) {width : Width}
    (hw : c.schema.paramWidth target.lookupAction Name.registerId = .ok width)
    (h : ∃ r, (c.slot target.id).FreeWithin width.toNat r) :
    ∃ r, IsLeast {r | (c.slot target.id).Free r} r ∧
      (c.slot target.id).FreeWithin width.toNat r ∧ c.Draws q target r := by
  simp only [ha.freeWithin_iff hw] at h ⊢
  obtain ⟨_, hfree, hle⟩ := h
  obtain ⟨r, hdraw, hleast, hler⟩ := Slot.exists_drawn_of_free hfree hle
  obtain ⟨e, hfit⟩ := (hs.le_maxRegister_iff hw ha.register_carried r).mp hler
  have hp : c.schema.param target.lookupAction Name.registerId r.toNat =
      .ok ⟨Name.registerId, e⟩ := Schema.param_eq_ok_iff.mpr ⟨rfl, width, hw, hfit⟩
  exact ⟨r, hleast, ⟨hleast.1, hler⟩, draws_of_drawn ha hq hdraw ⟨_, hp⟩⟩

theorem FlowsCompile.le_maxRegister (h : c.FlowsCompile) (hs : c.schema.WellFormed)
    (hr : c.registry.WellFormed) {t : TargetId} {a : Allocation}
    (ha : (c.slot t).live.get? r = some a) :
    ∃ target max, c.registry.target? t = some target ∧
      c.schema.maxRegister target.lookupAction = .ok max ∧ r ≤ max := by
  obtain ⟨name, target, rules, hname, rfl, hflow⟩ := h t r a ha
  obtain ⟨rule, hlookup⟩ := Schema.exists_compileLookup hflow
  obtain ⟨width, e, hw, hfit⟩ := Schema.fit_of_compileLookup hlookup
  obtain ⟨max, hm, _⟩ := Schema.maxRegister_eq_ok hw
  have hle : r ≤ max := (hs.le_maxRegister_iff hw hm r).mpr ⟨e, hfit⟩
  exact ⟨target, max, (hr.target?_of_named hname).2, hm, hle⟩

/-- The least free register that can be encoded is drawn, so a drawn one never keeps a flow from
compiling. -/
theorem drawn_registers_are_least_and_encodable (c : Controller) (hc : c.Reachable)
    (hs : c.schema.Reachable) (hr : c.registry.Reachable) :
    (∀ q target device max, c.Admits q target device max → q.register = none →
      ∃ width, c.schema.paramWidth target.lookupAction Name.registerId = .ok width ∧
        ((c.bind q).2 = .error (.registersExhausted q.service) ↔
          ¬ ∃ r, (c.slot target.id).FreeWithin width.toNat r) ∧
        ((∃ r, (c.slot target.id).FreeWithin width.toNat r) →
          ∃ r, IsLeast {r | (c.slot target.id).Free r} r ∧
            (c.slot target.id).FreeWithin width.toNat r ∧ c.Draws q target r)) ∧
      (∀ action width, c.schema.paramWidth action Name.registerId = .ok width →
        ∃ max, c.schema.maxRegister action = .ok max ∧
          ∀ r : RegisterId, r ≤ max ↔ ∃ e, Encoded.fit r.toNat width.toNat = .ok e) ∧
      ∀ t r a, (c.slot t).live.get? r = some a →
        ∃ target max, c.registry.target? t = some target ∧
          c.schema.maxRegister target.lookupAction = .ok max ∧ r ≤ max := by
  have hw := hs.wellFormed
  refine ⟨?_, ?_, ?_⟩
  · intro q target device max ha hq
    obtain ⟨width, hwidth⟩ := Schema.paramWidth_of_maxRegister ha.register_carried
    refine ⟨width, hwidth, ?_, ha.exists_draws hq hw hwidth⟩
    rw [ha.exhausted_iff hq, Slot.draw_eq_none_iff]
    simp only [ha.freeWithin_iff hwidth, not_exists, not_and]
  · intro action width hwidth
    obtain ⟨max, hm, _⟩ := Schema.maxRegister_eq_ok hwidth
    exact ⟨max, hm, hw.le_maxRegister_iff hwidth hm⟩
  · intro t r a ha
    exact hc.flowsCompile.le_maxRegister hw hr.wellFormed ha

/-- A flow at the register 1 that was asked for, and one at 0, which was drawn. -/
def twoTaken : Controller :=
  ((new fourRegisters Registry.defaults ["s1#0"]).run
    [.bind ⟨"slb", some 1, source 7, none⟩, .bind ⟨"slb", none, source 8, none⟩]).1

def allTaken : Controller :=
  ((new fourRegisters Registry.defaults ["s1#0"]).run
    [.bind ⟨"slb", some 1, source 7, none⟩, .bind ⟨"slb", none, source 8, none⟩,
      .bind ⟨"slb", none, source 9, none⟩, .bind ⟨"slb", none, source 10, none⟩]).1

/-- The next register that is drawn skips the one that was asked for, and is the least; with all of
them taken none is drawn. -/
theorem fourRegisters_drawn :
    IsLeast {r | (twoTaken.slot 2).Free r} 2 ∧
      twoTaken.Draws ⟨"slb", none, source 9, none⟩ Balancer.target 2 ∧
      (allTaken.bind ⟨"slb", none, source 11, none⟩).2 = .error (.registersExhausted "slb") ∧
      ∃ target max, allTaken.registry.target? 2 = some target ∧
        allTaken.schema.maxRegister target.lookupAction = .ok max ∧ (1 : RegisterId) ≤ max := by
  have hs : fourRegisters.Reachable := ⟨_, rfl⟩
  have hr : Registry.defaults.Reachable := Registry.defaults_reachable
  have hwidth : fourRegisters.paramWidth Balancer.target.lookupAction Name.registerId = .ok 2 := rfl
  rw [← and_assoc]
  constructor
  · have hreach : twoTaken.Reachable := ⟨_, _, _, none, _, rfl⟩
    have ha : twoTaken.Admits ⟨"slb", none, source 9, none⟩ Balancer.target "s1#0" 3 :=
      ⟨rfl, rfl, rfl, by decide⟩
    obtain ⟨hdraw, _⟩ := drawn_registers_are_least_and_encodable twoTaken hreach hs hr
    obtain ⟨width, hw, _, hexists⟩ := hdraw _ _ _ _ ha rfl
    obtain rfl := Except.ok.inj (hwidth.symm.trans hw)
    obtain ⟨r, hleast, _, hdraws⟩ := hexists ⟨2, ⟨by decide, by decide⟩, by decide⟩
    have hthree : ((twoTaken.bind ⟨"slb", none, source 9, none⟩).1.slot 2).next = 3 := by decide
    obtain rfl : 2 = r := UInt32.toNat_inj.mp (Nat.succ.inj (hthree.symm.trans hdraws.counter))
    exact ⟨hleast, hdraws⟩
  · have hreach : allTaken.Reachable := ⟨_, _, _, none, _, rfl⟩
    have ha : allTaken.Admits ⟨"slb", none, source 11, none⟩ Balancer.target "s1#0" 3 :=
      ⟨rfl, rfl, rfl, by decide⟩
    obtain ⟨hdraw, _, hlive⟩ := drawn_registers_are_least_and_encodable allTaken hreach hs hr
    obtain ⟨width, hw, hexhausted, _⟩ := hdraw _ _ _ _ ha rfl
    obtain rfl := Except.ok.inj (hwidth.symm.trans hw)
    have hlast : (allTaken.slot 2).live.get? 1 = some ⟨2, 1, source 7, none⟩ := by decide
    refine ⟨hexhausted.mpr ?_, hlive 2 1 _ hlast⟩
    rintro ⟨r, ⟨hnext, _⟩, hlt⟩
    have hfour : (allTaken.slot 2).next = 4 := by decide
    have hlt' : r.toNat < 4 := hlt
    have hnext' : (allTaken.slot 2).next ≤ r.toNat := hnext
    omega

end Controller
end StatefulPipeline
