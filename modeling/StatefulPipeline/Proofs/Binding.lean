import StatefulPipeline.Predefined
import StatefulPipeline.Proofs.CompiledRules
import StatefulPipeline.Proofs.Registers

/-! The ways in which a bind ends. It is refused before it claims a register, or after, or it is
accepted; only an accepted bind writes to the live registers, the selector owners and the devices.
Main statement: a refused bind leaves no trace but the counter and the choice of a device. -/

namespace StatefulPipeline

theorem Schema.exists_compileLookup {schema : Schema} {target : Target} {register : RegisterId}
    {selector : Selector} {port : Option Port} {rules : List Rule}
    (h : schema.compileFlow target register selector port = .ok rules) :
    ∃ lookup,
      schema.compileLookup selector target.lookupAction target.id register = .ok lookup := by
  unfold compileFlow at h
  split at h
  · exact absurd h (by simp)
  · exact ⟨_, by assumption⟩

theorem Schema.refs_nodup_of_compileFlow {schema : Schema} {target : Target}
    {register : RegisterId} {selector : Selector} {port : Option Port} {rules : List Rule}
    (h : schema.compileFlow target register selector port = .ok rules) : selector.refs.Nodup := by
  obtain ⟨lookup, hl⟩ := exists_compileLookup h
  exact (selectorTerms_eq_ok_iff.mp (compileLookup_eq_ok hl).2).2.1

namespace Controller

variable (c : Controller)

@[simp] theorem slot_withDefaultDevice (device : DeviceId) (t : TargetId) :
    (c.withDefaultDevice device).slot t = c.slot t := rfl

@[simp] theorem slot_setSlot (t u : TargetId) (slot : Slot) :
    (c.setSlot t slot).slot u = if t = u then slot else c.slot u := by
  by_cases h : t = u <;> simp [setSlot, Controller.slot, h]

/-- A bind gets as far as claiming a register. -/
structure Admits (q : BindRequest) (target : Target) (device : DeviceId) (max : RegisterId) :
    Prop where
  service_known : c.target q.service = .ok target
  device_found : c.device? = some device
  register_carried : c.schema.maxRegister target.lookupAction = .ok max
  selector_free : c.owners.get? q.selector.key = none

/-- The controller after a bind that was accepted for the given slot, register and rules. -/
def afterBind (q : BindRequest) (target : Target) (device : DeviceId) (slot : Slot)
    (register : RegisterId) (rules : List Rule) : Controller :=
  { ((c.withDefaultDevice device).setSlot target.id slot).record
      ⟨target.id, register, q.selector, q.port⟩ with
    fabric := (c.fabric.installEach device ((Rule.sortForInstall rules).map .ok)).1 }

section AfterBind

variable (q : BindRequest) (target : Target) (device : DeviceId) (slot : Slot)
  (register : RegisterId) (rules : List Rule)

theorem afterBind_slot (u : TargetId) :
    (c.afterBind q target device slot register rules).slot u =
      if target.id = u then slot.record ⟨target.id, register, q.selector, q.port⟩
      else c.slot u := by
  have h : (c.afterBind q target device slot register rules).slot u =
      (((c.withDefaultDevice device).setSlot target.id slot).setSlot target.id
        (slot.record ⟨target.id, register, q.selector, q.port⟩)).slot u := by
    simp [afterBind, record, Controller.slot, setSlot]
  rw [h, slot_setSlot, slot_setSlot, slot_withDefaultDevice]
  split_ifs <;> rfl

theorem afterBind_owners :
    (c.afterBind q target device slot register rules).owners =
      c.owners.insert q.selector.key (target.id, register) := rfl

end AfterBind

/-- Live registers and owners stay, and no counter goes back. -/
structure Keeps (c' : Controller) : Prop where
  live : ∀ t, (c'.slot t).live = (c.slot t).live
  next : ∀ t, (c.slot t).next ≤ (c'.slot t).next
  owners : c'.owners = c.owners

inductive BindEnd (q : BindRequest) : Controller → Except ControlError BindOutcome → Prop
  | early {c' : Controller} {e : ControlError} :
      (∀ target device max, ¬ c.Admits q target device max) →
      (c' = c ∨ ∃ device, c.device? = some device ∧ c' = c.withDefaultDevice device) →
      BindEnd q c' (.error e)
  | late {target : Target} {device : DeviceId} {max : RegisterId} {e : ControlError} :
      c.Admits q target device max →
      BindEnd q ((c.withDefaultDevice device).setSlot target.id
        (claim (c.slot target.id) q.service max q.register).1) (.error e)
  | bound {target : Target} {device : DeviceId} {max : RegisterId} {register : RegisterId}
      {rules : List Rule} :
      c.Admits q target device max →
      (claim (c.slot target.id) q.service max q.register).2 = .ok register →
      c.schema.compileFlow target register q.selector q.port = .ok rules →
      BindEnd q
        (c.afterBind q target device (claim (c.slot target.id) q.service max q.register).1
          register rules)
        (.ok ⟨register,
          (c.fabric.installEach device ((Rule.sortForInstall rules).map .ok)).2⟩)

variable {c}

theorem bindEnd_of_admits {q : BindRequest} {target : Target} {device : DeviceId}
    {max : RegisterId} (h : c.Admits q target device max) :
    c.BindEnd q (c.bind q).1 (c.bind q).2 := by
  have hs : (c.withDefaultDevice device).slot target.id = c.slot target.id := rfl
  simp only [bind, h.service_known, h.device_found, h.register_carried, h.selector_free, reserve,
    hs]
  cases hc : claim (c.slot target.id) q.service max q.register with
  | mk slot result =>
    have h₁ : (claim (c.slot target.id) q.service max q.register).1 = slot := by rw [hc]
    have h₂ : (claim (c.slot target.id) q.service max q.register).2 = result := by rw [hc]
    cases result with
    | error e =>
      have hl := BindEnd.late (e := e) h
      rw [h₁] at hl
      exact hl
    | ok register =>
      cases hf : c.schema.compileFlow target register q.selector q.port with
      | error e =>
        have hl := BindEnd.late (e := .compile e) h
        rw [h₁] at hl
        simp only [withDefaultDevice, hf]
        exact hl
      | ok rules =>
        have hb := BindEnd.bound h h₂ hf
        rw [h₁] at hb
        simp only [withDefaultDevice, hf]
        exact hb

theorem bindEnd_of_not_admits {q : BindRequest}
    (h : ∀ target device max, ¬ c.Admits q target device max) :
    c.BindEnd q (c.bind q).1 (c.bind q).2 := by
  cases ht : c.target q.service with
  | error e =>
    simp only [bind, ht]
    exact .early h (.inl rfl)
  | ok target =>
    cases hd : c.device? with
    | none =>
      simp only [bind, ht, hd]
      exact .early h (.inl rfl)
    | some device =>
      cases hm : c.schema.maxRegister target.lookupAction with
      | error e =>
        simp only [bind, ht, hd, hm]
        exact .early h (.inr ⟨device, hd, rfl⟩)
      | ok max =>
        cases ho : c.owners.get? q.selector.key with
        | none => exact absurd ⟨ht, hd, hm, ho⟩ (h target device max)
        | some owner =>
          simp only [bind, ht, hd, hm, ho]
          exact .early h (.inr ⟨device, hd, rfl⟩)

theorem bindEnd (c : Controller) (q : BindRequest) : c.BindEnd q (c.bind q).1 (c.bind q).2 := by
  by_cases h : ∃ target device max, c.Admits q target device max
  · obtain ⟨target, device, max, h⟩ := h
    exact bindEnd_of_admits h
  · simp only [not_exists] at h
    exact bindEnd_of_not_admits h

theorem bind_eq_ok {q : BindRequest} {o : BindOutcome} (h : (c.bind q).2 = .ok o) :
    ∃ target device max rules, c.Admits q target device max ∧
      (claim (c.slot target.id) q.service max q.register).2 = .ok o.register ∧
      c.schema.compileFlow target o.register q.selector q.port = .ok rules ∧
      (c.bind q).1 = c.afterBind q target device
        (claim (c.slot target.id) q.service max q.register).1 o.register rules ∧
      o.report = (c.fabric.installEach device ((Rule.sortForInstall rules).map .ok)).2 := by
  have hend := c.bindEnd q
  rw [h] at hend
  generalize (c.bind q).1 = c' at hend
  cases hend with
  | bound ha hclaim hflow => exact ⟨_, _, _, _, ha, hclaim, hflow, rfl, rfl⟩

theorem device?_eq_some {device : DeviceId} (h : c.device? = some device) :
    c.defaultDevice = some device ∨
      c.defaultDevice = none ∧ c.fabric.devices.head? = some device := by
  cases hd : c.defaultDevice with
  | none =>
    simp only [device?, hd] at h
    exact .inr ⟨rfl, h⟩
  | some d =>
    simp only [device?, hd] at h
    exact .inl h

namespace BindEnd

variable {q : BindRequest} {c' : Controller} {e : ControlError}

/-- A refused bind touches nothing but the slots and the default device. -/
theorem error_frame (h : c.BindEnd q c' (.error e)) :
    c' = { c with defaultDevice := c'.defaultDevice, slots := c'.slots } := by
  cases h with
  | early _ hc =>
    rcases hc with rfl | ⟨device, _, rfl⟩
    · rfl
    · rfl
  | late _ => rfl

/-- A slot changes only by a claim that the bind was admitted to. -/
theorem slot_of_error (h : c.BindEnd q c' (.error e)) (t : TargetId) :
    c'.slot t = c.slot t ∨
      ∃ target device max, c.Admits q target device max ∧ target.id = t ∧
        c'.slot t = (claim (c.slot t) q.service max q.register).1 := by
  cases h with
  | early _ hc =>
    rcases hc with rfl | ⟨device, _, rfl⟩
    · exact .inl rfl
    · exact .inl rfl
  | @late target device max _ ha =>
    by_cases ht : target.id = t
    · refine .inr ⟨target, device, max, ha, ht, ?_⟩
      rw [slot_setSlot, if_pos ht, ht]
    · refine .inl ?_
      rw [slot_setSlot, if_neg ht, slot_withDefaultDevice]

theorem defaultDevice_of_error (h : c.BindEnd q c' (.error e)) :
    c'.defaultDevice = c.defaultDevice ∨
      c.defaultDevice = none ∧ c'.defaultDevice = c.fabric.devices.head? := by
  have chosen {device : DeviceId} (hd : c.device? = some device) :
      some device = c.defaultDevice ∨
        c.defaultDevice = none ∧ some device = c.fabric.devices.head? := by
    rcases device?_eq_some hd with hd | ⟨hn, hd⟩
    · exact .inl hd.symm
    · exact .inr ⟨hn, hd.symm⟩
  cases h with
  | early _ hc =>
    rcases hc with rfl | ⟨device, hd, rfl⟩
    · exact .inl rfl
    · exact chosen hd
  | late ha => exact chosen ha.device_found

end BindEnd

theorem keeps_of_refused {q : BindRequest} {e : ControlError} (h : (c.bind q).2 = .error e) :
    c.Keeps (c.bind q).1 := by
  have hend := c.bindEnd q
  rw [h] at hend
  refine ⟨?_, ?_, by rw [hend.error_frame]⟩
  · intro t
    rcases hend.slot_of_error t with hs | ⟨target, device, max, _, _, hs⟩
    · rw [hs]
    · rw [hs, claim_live]
  · intro t
    rcases hend.slot_of_error t with hs | ⟨target, device, max, _, _, hs⟩
    · exact Nat.le_of_eq (by rw [hs])
    · rw [hs]
      exact le_claim_next q.register

/-- A refused bind may use up registers and settle on a device; all else stays. -/
theorem refused_bind_leaves_only_counter (c : Controller) (q : BindRequest) (e : ControlError)
    (h : (c.bind q).2 = .error e) :
    (∀ t, ((c.bind q).1.slot t).live = (c.slot t).live) ∧
      (c.bind q).1.owners = c.owners ∧
      (c.bind q).1.fabric = c.fabric ∧
      (∀ t, (∀ target, c.target q.service = .ok target → target.id ≠ t) →
        ((c.bind q).1.slot t).next = (c.slot t).next) ∧
      (q.register.isSome ∨ (∀ target device max, ¬ c.Admits q target device max) →
        ∀ t, ((c.bind q).1.slot t).next = (c.slot t).next) ∧
      (∀ t, (c.slot t).next ≤ ((c.bind q).1.slot t).next) ∧
      ((c.bind q).1.defaultDevice = c.defaultDevice ∨
        c.defaultDevice = none ∧ (c.bind q).1.defaultDevice = c.fabric.devices.head?) := by
  have hkeeps := keeps_of_refused h
  have hend := c.bindEnd q
  rw [h] at hend
  have hfabric : (c.bind q).1.fabric = c.fabric := by rw [hend.error_frame]
  refine ⟨hkeeps.live, hkeeps.owners, hfabric, ?_, ?_, hkeeps.next, hend.defaultDevice_of_error⟩
  · intro t ht
    rcases hend.slot_of_error t with hs | ⟨target, device, max, ha, hid, _⟩
    · rw [hs]
    · exact absurd hid (ht target ha.service_known)
  · intro hq t
    rcases hend.slot_of_error t with hs | ⟨target, device, max, ha, _, hs⟩
    · rw [hs]
    · rcases hq with hq | hq
      · obtain ⟨r, hr⟩ := Option.isSome_iff_exists.mp hq
        rw [hs, hr, claim_some_fst]
      · exact absurd ha (hq target device max)

/-- One address field of 32 bits, and a lookup that carries two bits of a register. -/
def fourRegisters : Schema :=
  Schema.accept
    [.field ⟨"ipv4", "srcAddr"⟩ ⟨32, false⟩,
      .action ⟨Name.lookupByNothing, [⟨Name.targetId, 16⟩, ⟨Name.registerId, 2⟩]⟩]

def source (address : Int) : Selector := ⟨[.field ⟨"ipv4", "srcAddr"⟩ address]⟩

def oneFlow : Controller :=
  ((new fourRegisters Registry.empty.installBalancer.1 ["s1#0", "s2#1"]).run
    [.bind ⟨"slb", none, source 1, none⟩]).1

/-- The address does not fit: the register that was drawn for it is lost, and nothing else. -/
theorem oneFlow_refused_bind :
    (oneFlow.bind ⟨"slb", none, source 4294967296, some 2⟩).2 =
        .error (.compile (.encode "ipv4.srcAddr" (.overflow 4294967296 32 false))) ∧
      (oneFlow.slot 2).next = 1 ∧
      ((oneFlow.bind ⟨"slb", none, source 4294967296, some 2⟩).1.slot 2).next = 2 ∧
      ((oneFlow.bind ⟨"slb", none, source 4294967296, some 2⟩).1.slot 2).live =
        (oneFlow.slot 2).live ∧
      (oneFlow.bind ⟨"slb", none, source 4294967296, some 2⟩).1.owners = oneFlow.owners ∧
      (oneFlow.bind ⟨"slb", none, source 4294967296, some 2⟩).1.fabric = oneFlow.fabric := by
  have he : (oneFlow.bind ⟨"slb", none, source 4294967296, some 2⟩).2 =
      .error (.compile (.encode "ipv4.srcAddr" (.overflow 4294967296 32 false))) := rfl
  obtain ⟨hlive, howners, hfabric, _⟩ := refused_bind_leaves_only_counter _ _ _ he
  exact ⟨he, by decide, by decide, hlive 2, howners, hfabric⟩

end Controller
end StatefulPipeline
