import StatefulPipeline.Proofs.BindVerdicts
import StatefulPipeline.Proofs.Ownership
import StatefulPipeline.Proofs.RegistryRuns

/-! Binds to different services can be swapped. What a bind writes is the slot of its target, the
owner of its selector and rules on a device, and a bind to another service with another selector
reads none of it; the device is the same for both, whichever comes first. So both verdicts stand in
either order, and acting on them in either order leaves the same, up to the order of the rules on a
device. -/

namespace StatefulPipeline

namespace Fabric

variable {f f' : Fabric}

/-- What becomes of rules depends on the reachable devices and the failing tables, and not on what
is installed already. -/
theorem installEach_report_congr (hd : f'.devices = f.devices) (hf : f'.failing = f.failing)
    (device : DeviceId) (results : List (Except CompileError Rule)) :
    (f'.installEach device results).2 = (f.installEach device results).2 := by
  have hrefusal : f'.refusal? = f.refusal? := by
    funext d t
    rw [refusal?, refusal?, hd, hf]
  have hfailure : f'.failure? device = f.failure? device := by
    funext result
    cases result with
    | error e => rfl
    | ok rule => rw [failure?, failure?, hrefusal]
  rw [installEach_snd, installEach_snd, hrefusal, hfailure]

end Fabric

namespace Verdict

variable (v : Verdict) {f f' : Fabric}

theorem answer_congr (hd : f'.devices = f.devices) (hf : f'.failing = f.failing) :
    v.answer f' = v.answer f := by
  cases v with
  | turnedAway e => rfl
  | refused target slot e => rfl
  | bound device slot flow rules => rw [answer, answer, Fabric.installEach_report_congr hd hf]

theorem placedOn_congr (hd : f'.devices = f.devices) (hf : f'.failing = f.failing) :
    v.placedOn f' = v.placedOn f := by
  cases v with
  | turnedAway e => rfl
  | refused target slot e => rfl
  | bound device slot flow rules => rw [placedOn, placedOn, Fabric.installEach_report_congr hd hf]

end Verdict

namespace Controller

/-- Two controllers that a bind cannot tell apart. -/
structure LooksAlike (q : BindRequest) (c c' : Controller) : Prop where
  schema : c'.schema = c.schema
  registry : c'.registry = c.registry
  device : c'.device? = c.device?
  owner : c'.owners.get? q.selector.key = c.owners.get? q.selector.key
  slot : ∀ target, c.target q.service = .ok target → c'.slot target.id = c.slot target.id

variable {c c' : Controller} {q q' : BindRequest}

theorem LooksAlike.admission (h : LooksAlike q c c') : c'.admission q = c.admission q := by
  simp only [Controller.admission, Controller.target, ownerName, h.schema, h.registry, h.device,
    h.owner]

theorem LooksAlike.verdict (h : LooksAlike q c c') : c'.verdict q = c.verdict q := by
  unfold Controller.verdict
  rw [h.admission]
  split
  · rfl
  · rename_i target device max ha
    rw [h.slot target (admission_eq_ok_iff.mp ha).service_known, h.schema]

section Writes

variable {t : TargetId} {key : List (FieldRef × Int)}

theorem target_of_slotAt {slot : Slot} (h : (c.verdict q).slotAt t = some slot) :
    ∃ target, c.target q.service = .ok target ∧ target.id = t := by
  cases hv : c.verdict q with
  | turnedAway e =>
    rw [hv] at h
    cases h
  | refused id slot' e =>
    rw [hv, Verdict.slotAt] at h
    split_ifs at h with hid
    rw [← hid]
    exact target_of_verdict_refused hv
  | bound device slot' flow rules =>
    rw [hv, Verdict.slotAt] at h
    split_ifs at h with hid
    obtain ⟨target, max, ha, _, hflow, _⟩ := verdict_eq_bound hv
    rw [hflow] at hid
    exact ⟨target, ha.service_known, hid⟩

theorem key_of_ownerAt {owner : TargetId × RegisterId}
    (h : (c.verdict q).ownerAt key = some owner) : q.selector.key = key := by
  cases hv : c.verdict q with
  | turnedAway e =>
    rw [hv] at h
    cases h
  | refused id slot e =>
    rw [hv] at h
    cases h
  | bound device slot flow rules =>
    rw [hv, Verdict.ownerAt] at h
    split_ifs at h with hkey
    obtain ⟨target, max, _, _, hflow, _⟩ := verdict_eq_bound hv
    rw [hflow] at hkey
    exact hkey

theorem bind_slot (c : Controller) (q : BindRequest) (t : TargetId) :
    (c.bind q).1.slot t = ((c.verdict q).slotAt t).getD (c.slot t) := by
  rw [bind_eq, enact_slot]
  rfl

theorem bind_owner (c : Controller) (q : BindRequest) (key : List (FieldRef × Int)) :
    (c.bind q).1.owners.get? key = ((c.verdict q).ownerAt key).or (c.owners.get? key) := by
  rw [bind_eq, enact_owner]
  rfl

theorem bind_fabric (c : Controller) (q : BindRequest) :
    (c.bind q).1.fabric =
      { c.fabric with placed := c.fabric.placed ++ (c.verdict q).placedOn c.fabric } := by
  rw [bind_eq, enact_fabric]
  rfl

theorem bind_defaultDevice (c : Controller) (q : BindRequest) :
    (c.bind q).1.defaultDevice =
      if (c.registry.targetNamed? q.service).isSome then c.device? else c.defaultDevice := by
  rw [bind_eq, (enact_frame _ _).2.2]
  rfl

theorem bind_device? (c : Controller) (q : BindRequest) : (c.bind q).1.device? = c.device? := by
  rw [device?, bind_defaultDevice, bind_fabric]
  split_ifs
  · cases hd : c.defaultDevice with
    | some device => simp [device?, hd]
    | none => cases hh : c.fabric.devices.head? <;> simp [device?, hd, hh]
  · rfl

end Writes

/-- Two binds with nothing in common: neither the target nor the selector. -/
structure Apart (c : Controller) (q q' : BindRequest) : Prop where
  targets : ∀ target target', c.target q.service = .ok target →
    c.target q'.service = .ok target' → target.id ≠ target'.id
  selectors : q.selector.key ≠ q'.selector.key

namespace Apart

theorem of_services (hr : c.registry.Reachable) (hservice : q.service ≠ q'.service)
    (hkey : q.selector.key ≠ q'.selector.key) : Apart c q q' where
  targets := by
    -- A name belongs to one number, and the number leads back to the name.
    intro target target' ht ht' hid
    obtain ⟨hname, hfound⟩ := hr.wellFormed.target?_of_named (target_eq_ok_iff.mp ht)
    obtain ⟨hname', hfound'⟩ := hr.wellFormed.target?_of_named (target_eq_ok_iff.mp ht')
    rw [hid, hfound'] at hfound
    obtain rfl := Option.some.inj hfound
    exact hservice (hname.symm.trans hname')
  selectors := hkey

theorem symm (h : Apart c q q') : Apart c q' q where
  targets target target' ht ht' := (h.targets target' target ht' ht).symm
  selectors := h.selectors.symm

/-- The second bind sees nothing of the first. -/
theorem looksAlike (h : Apart c q q') : LooksAlike q' c (c.bind q).1 where
  schema := (c.bind_fixed q).1
  registry := (c.bind_fixed q).2
  device := c.bind_device? q
  owner := by
    rw [bind_owner]
    cases ho : (c.verdict q).ownerAt q'.selector.key with
    | none => rfl
    | some owner => exact absurd (key_of_ownerAt ho) h.selectors
  slot target' ht' := by
    rw [bind_slot]
    cases hs : (c.verdict q).slotAt target'.id with
    | none => rfl
    | some slot =>
      obtain ⟨target, ht, hid⟩ := target_of_slotAt hs
      exact absurd hid (h.targets target target' ht ht')

theorem verdict_after (h : Apart c q q') : (c.bind q).1.verdict q' = c.verdict q' :=
  h.looksAlike.verdict

theorem slotAt_eq_none (h : Apart c q q') (t : TargetId) :
    (c.verdict q).slotAt t = none ∨ (c.verdict q').slotAt t = none := by
  cases hs : (c.verdict q).slotAt t with
  | none => exact .inl rfl
  | some slot =>
    cases hs' : (c.verdict q').slotAt t with
    | none => exact .inr rfl
    | some slot' =>
      obtain ⟨target, ht, hid⟩ := target_of_slotAt hs
      obtain ⟨target', ht', hid'⟩ := target_of_slotAt hs'
      exact absurd (hid.trans hid'.symm) (h.targets target target' ht ht')

theorem ownerAt_eq_none (h : Apart c q q') (key : List (FieldRef × Int)) :
    (c.verdict q).ownerAt key = none ∨ (c.verdict q').ownerAt key = none := by
  cases ho : (c.verdict q).ownerAt key with
  | none => exact .inl rfl
  | some owner =>
    cases ho' : (c.verdict q').ownerAt key with
    | none => exact .inr rfl
    | some owner' =>
      exact absurd ((key_of_ownerAt ho).trans (key_of_ownerAt ho').symm) h.selectors

/-- The report is the same too, since neither bind makes a table fail. -/
theorem answer_after (h : Apart c q q') : ((c.bind q).1.bind q').2 = (c.bind q').2 := by
  rw [bind_eq, bind_eq c q', h.verdict_after]
  exact (c.verdict q').answer_congr (by rw [bind_fabric]) (by rw [bind_fabric])

theorem slots_comm (h : Apart c q q') (t : TargetId) :
    ((c.bind q).1.bind q').1.slot t = ((c.bind q').1.bind q).1.slot t := by
  simp only [bind_slot, h.verdict_after, h.symm.verdict_after]
  rcases h.slotAt_eq_none t with hs | hs <;> simp only [hs, Option.getD_none]

theorem owners_comm (h : Apart c q q') :
    ((c.bind q).1.bind q').1.owners = ((c.bind q').1.bind q).1.owners := by
  refine SortedMap.ext_get? fun key => ?_
  simp only [bind_owner, h.verdict_after, h.symm.verdict_after]
  rcases h.ownerAt_eq_none key with ho | ho <;> simp only [ho, Option.none_or]

theorem placed_after (h : Apart c q q') :
    ((c.bind q).1.bind q').1.fabric.placed =
      c.fabric.placed ++ (c.verdict q).placedOn c.fabric ++ (c.verdict q').placedOn c.fabric := by
  have hp : (c.verdict q').placedOn (c.bind q).1.fabric = (c.verdict q').placedOn c.fabric :=
    (c.verdict q').placedOn_congr (by rw [bind_fabric]) (by rw [bind_fabric])
  rw [bind_fabric, h.verdict_after, hp, bind_fabric]

theorem installed_perm (h : Apart c q q') (device : DeviceId) :
    (((c.bind q).1.bind q').1.fabric.installed device).Perm
      (((c.bind q').1.bind q).1.fabric.installed device) := by
  refine List.Perm.filterMap _ ?_
  rw [h.placed_after, h.symm.placed_after, List.append_assoc, List.append_assoc]
  exact List.perm_append_comm.append_left _

end Apart

theorem defaultDevice_comm (c : Controller) (q q' : BindRequest) :
    ((c.bind q).1.bind q').1.defaultDevice = ((c.bind q').1.bind q).1.defaultDevice := by
  simp only [bind_defaultDevice, bind_device?, (c.bind_fixed _).2]
  split_ifs <;> rfl

/-- Binds to different services for different selectors do not notice each other. -/
theorem binds_to_different_services_commute (c : Controller) (hr : c.registry.Reachable)
    (q q' : BindRequest) (hservice : q.service ≠ q'.service)
    (hkey : q.selector.key ≠ q'.selector.key) :
    ((c.bind q').1.bind q).2 = (c.bind q).2 ∧ ((c.bind q).1.bind q').2 = (c.bind q').2 ∧
      (∀ t, ((c.bind q).1.bind q').1.slot t = ((c.bind q').1.bind q).1.slot t) ∧
      ((c.bind q).1.bind q').1.owners = ((c.bind q').1.bind q).1.owners ∧
      ((c.bind q).1.bind q').1.defaultDevice = ((c.bind q').1.bind q).1.defaultDevice ∧
      ∀ device, (((c.bind q).1.bind q').1.fabric.installed device).Perm
        (((c.bind q').1.bind q).1.fabric.installed device) := by
  have h := Apart.of_services hr hservice hkey
  exact ⟨h.symm.answer_after, h.answer_after, h.slots_comm, h.owners_comm,
    c.defaultDevice_comm q q', h.installed_perm⟩

/-- A device is yet to be found, and no forward rule will be installed on it. -/
def withoutForward : Controller :=
  (new addressPairs Registry.defaults ["s1#0", "s2#1"]).failTable .forward

def balanced : BindRequest := ⟨"slb", none, sent, some 2⟩

def guarded : BindRequest := ⟨"sfw", some 3, answered, none⟩

/-- The two state rules trade places, so the rules on the device agree up to their order only. -/
theorem balanced_and_guarded_commute :
    withoutForward.registry.Reachable ∧ balanced.service ≠ guarded.service ∧
      balanced.selector.key ≠ guarded.selector.key ∧
      ((withoutForward.bind guarded).1.bind balanced).2 = (withoutForward.bind balanced).2 ∧
      (∃ o, (withoutForward.bind balanced).2 = .ok o ∧ o.report.failures.length = 1) ∧
      ((withoutForward.bind balanced).1.bind guarded).1.fabric.installed "s1#0" ≠
        ((withoutForward.bind guarded).1.bind balanced).1.fabric.installed "s1#0" ∧
      (((withoutForward.bind balanced).1.bind guarded).1.fabric.installed "s1#0").Perm
        (((withoutForward.bind guarded).1.bind balanced).1.fabric.installed "s1#0") := by
  have hr : withoutForward.registry.Reachable := Registry.defaults_reachable
  have hservice : balanced.service ≠ guarded.service := by decide
  have hkey : balanced.selector.key ≠ guarded.selector.key := by decide
  obtain ⟨hanswer, _, _, _, _, hperm⟩ :=
    binds_to_different_services_commute withoutForward hr balanced guarded hservice hkey
  exact ⟨hr, hservice, hkey, hanswer, ⟨_, rfl, by decide⟩, by decide, hperm "s1#0"⟩

end Controller
end StatefulPipeline
