import StatefulPipeline.Proofs.Installation

/-! A bind in two steps. It first reads the controller and comes to a verdict, and then acts on that
verdict without looking again. What it reads is little: the target of its service, the device, the
owner of its selector and the slot of its target. What it writes is what the verdict says. -/

namespace StatefulPipeline

/-- What a bind comes to. It is turned away before it claims a register, it is refused with a
register claimed in vain, or its flow is bound. -/
inductive Verdict where
  | turnedAway (error : ControlError)
  | refused (target : TargetId) (slot : Slot) (error : ControlError)
  | bound (device : DeviceId) (slot : Slot) (flow : Allocation) (rules : List Rule)
deriving DecidableEq

namespace Verdict

def slotAt : Verdict → TargetId → Option Slot
  | turnedAway _, _ => none
  | refused target slot _, t => if target = t then some slot else none
  | bound _ slot flow _, t => if flow.target = t then some (slot.record flow) else none

def ownerAt : Verdict → List (FieldRef × Int) → Option (TargetId × RegisterId)
  | turnedAway _, _ | refused _ _ _, _ => none
  | bound _ _ flow _, key =>
    if flow.selector.key = key then some (flow.target, flow.register) else none

def placedOn (f : Fabric) : Verdict → List (DeviceId × Rule)
  | turnedAway _ | refused _ _ _ => []
  | bound device _ _ rules =>
    (f.installEach device ((Rule.sortForInstall rules).map .ok)).2.installed.map
      fun r => (device, r)

def answer (f : Fabric) : Verdict → Except ControlError BindOutcome
  | turnedAway e | refused _ _ e => .error e
  | bound device _ flow rules =>
    .ok ⟨flow.register, (f.installEach device ((Rule.sortForInstall rules).map .ok)).2⟩

end Verdict

namespace Controller

/-- Whether a bind may claim a register: for which target, with rules on which device, and up to
which register. -/
def admission (c : Controller) (q : BindRequest) :
    Except ControlError (Target × DeviceId × RegisterId) :=
  match c.target q.service with
  | .error e => .error e
  | .ok target =>
    match c.device? with
    | none => .error .noDevice
    | some device =>
      match c.schema.maxRegister target.lookupAction with
      | .error e => .error (.compile (.schema e))
      | .ok max =>
        match c.owners.get? q.selector.key with
        | some (owner, register) => .error (.selectorInUse (c.ownerName owner) register)
        | none => .ok (target, device, max)

def verdict (c : Controller) (q : BindRequest) : Verdict :=
  match c.admission q with
  | .error e => .turnedAway e
  | .ok (target, device, max) =>
    match claim (c.slot target.id) q.service max q.register with
    | (slot, .error e) => .refused target.id slot e
    | (slot, .ok register) =>
      match c.schema.compileFlow target register q.selector q.port with
      | .error e => .refused target.id slot (.compile e)
      | .ok rules => .bound device slot ⟨target.id, register, q.selector, q.port⟩ rules

/-- Settles on a device, which is only done for a service that is known. -/
def chooseDevice (c : Controller) (service : String) : Controller :=
  { c with
    defaultDevice :=
      if (c.registry.targetNamed? service).isSome then c.device? else c.defaultDevice }

/-- Acts on a verdict. -/
def enact (c : Controller) : Verdict → Controller
  | .turnedAway _ => c
  | .refused target slot _ => c.setSlot target slot
  | .bound device slot flow rules =>
    { (c.setSlot flow.target slot).record flow with
      fabric := (c.fabric.installEach device ((Rule.sortForInstall rules).map .ok)).1 }

variable {c : Controller} {q : BindRequest}

theorem chooseDevice_of_unknown {e : ControlError} (h : c.target q.service = .error e) :
    c.chooseDevice q.service = c := by
  have hnone : c.registry.targetNamed? q.service = none := by
    unfold Controller.target at h
    split at h
    · cases h
    · assumption
  simp [chooseDevice, hnone]

theorem chooseDevice_of_known {target : Target} (h : c.target q.service = .ok target) :
    c.chooseDevice q.service = { c with defaultDevice := c.device? } := by
  simp [chooseDevice, target_eq_ok_iff.mp h]

theorem withDevice_of_no_device (h : c.device? = none) : { c with defaultDevice := none } = c := by
  have hnone : c.defaultDevice = none := by
    unfold device? at h
    split at h
    · cases h
    · assumption
  cases c
  simp_all

theorem admission_eq_ok_iff {target : Target} {device : DeviceId} {max : RegisterId} :
    c.admission q = .ok (target, device, max) ↔ c.Admits q target device max := by
  constructor
  · intro h
    unfold admission at h
    split at h
    · cases h
    · rename_i t ht
      split at h
      · cases h
      · rename_i d hd
        split at h
        · cases h
        · rename_i m hm
          split at h
          · cases h
          · rename_i ho
            obtain ⟨rfl, rfl, rfl⟩ : t = target ∧ d = device ∧ m = max := by simpa using h
            exact ⟨ht, hd, hm, ho⟩
  · rintro ⟨ht, hd, hm, ho⟩
    simp only [admission, ht, hd, hm, ho]

theorem bind_eq (c : Controller) (q : BindRequest) :
    c.bind q = ((c.chooseDevice q.service).enact (c.verdict q), (c.verdict q).answer c.fabric) := by
  cases ht : c.target q.service with
  | error e =>
    simp [bind, verdict, admission, ht, chooseDevice_of_unknown ht, enact, Verdict.answer]
  | ok target =>
    rw [chooseDevice_of_known ht]
    cases hd : c.device? with
    | none =>
      simp [bind, verdict, admission, ht, hd, withDevice_of_no_device hd, enact, Verdict.answer]
    | some device =>
      cases hm : c.schema.maxRegister target.lookupAction with
      | error e =>
        simp [bind, verdict, admission, ht, hd, hm, enact, Verdict.answer, withDefaultDevice]
      | ok max =>
        cases ho : c.owners.get? q.selector.key with
        | some owner =>
          simp [bind, verdict, admission, ht, hd, hm, ho, enact, Verdict.answer, withDefaultDevice]
        | none =>
          have hs : (c.withDefaultDevice device).slot target.id = c.slot target.id := rfl
          simp only [bind, verdict, admission, ht, hd, hm, ho, reserve, hs]
          cases hc : claim (c.slot target.id) q.service max q.register with
          | mk slot result =>
            cases result with
            | error e => rfl
            | ok register =>
              simp only [withDefaultDevice]
              cases c.schema.compileFlow target register q.selector q.port <;> rfl

section Enact

variable (c : Controller) (v : Verdict)

/-- Acting on a verdict touches slots, owners and placed rules only. -/
theorem enact_frame :
    (c.enact v).schema = c.schema ∧ (c.enact v).registry = c.registry ∧
      (c.enact v).defaultDevice = c.defaultDevice := by
  cases v <;> exact ⟨rfl, rfl, rfl⟩

theorem enact_slot (t : TargetId) : (c.enact v).slot t = (v.slotAt t).getD (c.slot t) := by
  cases v with
  | turnedAway e => rfl
  | refused target slot e =>
    rw [enact, slot_setSlot, Verdict.slotAt]
    split_ifs <;> rfl
  | bound device slot flow rules =>
    have h : (c.enact (.bound device slot flow rules)).slot t =
        ((c.setSlot flow.target slot).setSlot flow.target
          (((c.setSlot flow.target slot).slot flow.target).record flow)).slot t := rfl
    rw [h, slot_setSlot, slot_setSlot, slot_setSlot, if_pos rfl, Verdict.slotAt]
    split_ifs <;> rfl

theorem enact_owner (key : List (FieldRef × Int)) :
    (c.enact v).owners.get? key = (v.ownerAt key).or (c.owners.get? key) := by
  cases v with
  | turnedAway e => rfl
  | refused target slot e => rfl
  | bound device slot flow rules =>
    have h : (c.enact (.bound device slot flow rules)).owners =
        c.owners.insert flow.selector.key (flow.target, flow.register) := rfl
    rw [h, SortedMap.get?_insert, Verdict.ownerAt]
    split_ifs <;> rfl

theorem enact_fabric :
    (c.enact v).fabric = { c.fabric with placed := c.fabric.placed ++ v.placedOn c.fabric } := by
  cases v with
  | turnedAway e => simp [enact, Verdict.placedOn]
  | refused target slot e => simp [enact, setSlot, Verdict.placedOn]
  | bound device slot flow rules => exact Fabric.installEach_fst _ _ _

end Enact

theorem target_of_verdict_refused {t : TargetId} {slot : Slot} {e : ControlError}
    (h : c.verdict q = .refused t slot e) :
    ∃ target, c.target q.service = .ok target ∧ target.id = t := by
  unfold verdict at h
  split at h
  · cases h
  · rename_i target device max ha
    refine ⟨target, (admission_eq_ok_iff.mp ha).service_known, ?_⟩
    split at h
    · exact (Verdict.refused.inj h).1
    · split at h
      · exact (Verdict.refused.inj h).1
      · cases h

namespace Admits

variable {target : Target} {device : DeviceId} {max register : RegisterId} {slot : Slot}

theorem verdict_of_claim_error (ha : c.Admits q target device max) {e : ControlError}
    (hclaim : claim (c.slot target.id) q.service max q.register = (slot, .error e)) :
    c.verdict q = .refused target.id slot e := by
  simp only [verdict, admission_eq_ok_iff.mpr ha, hclaim]

theorem verdict_of_flow_error (ha : c.Admits q target device max) {e : CompileError}
    (hclaim : claim (c.slot target.id) q.service max q.register = (slot, .ok register))
    (hflow : c.schema.compileFlow target register q.selector q.port = .error e) :
    c.verdict q = .refused target.id slot (.compile e) := by
  simp only [verdict, admission_eq_ok_iff.mpr ha, hclaim, hflow]

theorem verdict_of_flow_ok (ha : c.Admits q target device max) {rules : List Rule}
    (hclaim : claim (c.slot target.id) q.service max q.register = (slot, .ok register))
    (hflow : c.schema.compileFlow target register q.selector q.port = .ok rules) :
    c.verdict q = .bound device slot ⟨target.id, register, q.selector, q.port⟩ rules := by
  simp only [verdict, admission_eq_ok_iff.mpr ha, hclaim, hflow]

end Admits

theorem verdict_eq_bound {device : DeviceId} {slot : Slot} {flow : Allocation} {rules : List Rule}
    (h : c.verdict q = .bound device slot flow rules) :
    ∃ target max, c.Admits q target device max ∧
      claim (c.slot target.id) q.service max q.register = (slot, .ok flow.register) ∧
      flow = ⟨target.id, flow.register, q.selector, q.port⟩ ∧
      c.schema.compileFlow target flow.register q.selector q.port = .ok rules := by
  unfold verdict at h
  split at h
  · cases h
  · rename_i target d max ha
    split at h
    · cases h
    · rename_i slot' register hc
      split at h
      · cases h
      · rename_i rules' hf
        obtain ⟨rfl, rfl, rfl, rfl⟩ := Verdict.bound.inj h
        exact ⟨target, max, admission_eq_ok_iff.mp ha, hc, rfl, hf⟩

end Controller
end StatefulPipeline
