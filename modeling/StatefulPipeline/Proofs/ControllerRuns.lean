import StatefulPipeline.Proofs.Binding

/-! Runs of a controller. Only binds write to the slots and to the selector owners, and an accepted
bind adds one allocation at a register that was free; so allocations stay as they are from then on
and counters only grow. Main statement: whatever a run does, the registers that it hands out for a
target are distinct, and those that it draws ascend. -/

namespace StatefulPipeline
namespace Controller

variable (c : Controller)

theorem start_frame (service : String) :
    (c.start service).1 = { c with
      defaultDevice := (c.start service).1.defaultDevice
      fabric := (c.start service).1.fabric } := by
  cases ht : c.target service with
  | error e => simp [start, ht]
  | ok target =>
    cases hd : c.device? with
    | none => simp [start, ht, hd]
    | some device =>
      cases hs : c.schema.compileService c.registry target.id with
      | error e => simp [start, ht, hd, hs, withDefaultDevice]
      | ok results => simp [start, ht, hd, hs, withDefaultDevice]

/-- An operation that is not a bind touches nothing but the default device and the devices. -/
theorem handle_frame {q : ControlRequest} (h : ∀ b, q ≠ .bind b) :
    (c.handle q).1 = { c with
      defaultDevice := (c.handle q).1.defaultDevice
      fabric := (c.handle q).1.fabric } := by
  cases q with
  | deviceInitialized device =>
    simp only [handle, deviceInitialized]
    split_ifs <;> rfl
  | failTable table => rfl
  | start service => exact c.start_frame service
  | stop service => rfl
  | bind b => exact absurd rfl (h b)

theorem bind_fixed (q : BindRequest) :
    (c.bind q).1.schema = c.schema ∧ (c.bind q).1.registry = c.registry := by
  have h := c.bindEnd q
  generalize (c.bind q).1 = c' at h
  generalize (c.bind q).2 = result at h
  cases h with
  | early _ hc =>
    rcases hc with rfl | ⟨device, _, rfl⟩
    · exact ⟨rfl, rfl⟩
    · exact ⟨rfl, rfl⟩
  | late _ => exact ⟨rfl, rfl⟩
  | bound _ _ _ => exact ⟨rfl, rfl⟩

theorem handle_fixed (q : ControlRequest) :
    (c.handle q).1.schema = c.schema ∧ (c.handle q).1.registry = c.registry := by
  by_cases h : ∃ b, q = .bind b
  · obtain ⟨b, rfl⟩ := h
    exact c.bind_fixed b
  · rw [c.handle_frame (not_exists.mp h)]
    exact ⟨rfl, rfl⟩

/-- One allocation is added, at a free register and for a selector that nobody owned. -/
structure Notes (c' : Controller) (a : Allocation) : Prop where
  free : (c.slot a.target).live.get? a.register = none
  unowned : c.owners.get? a.selector.key = none
  distinct : a.selector.refs.Nodup
  live : ∀ t r, (c'.slot t).live.get? r =
    if a.target = t ∧ a.register = r then some a else (c.slot t).live.get? r
  next : ∀ t, (c.slot t).next ≤ (c'.slot t).next
  owners : ∀ key, c'.owners.get? key =
    if a.selector.key = key then some (a.target, a.register) else c.owners.get? key

variable {c}

namespace Notes

variable {c' : Controller} {b a : Allocation} {t : TargetId} {r : RegisterId}

theorem live_of_live (hn : c.Notes c' b) (h : (c.slot t).live.get? r = some a) :
    (c'.slot t).live.get? r = some a := by
  rw [hn.live]
  split_ifs with hb
  · obtain ⟨rfl, rfl⟩ := hb
    rw [hn.free] at h
    exact absurd h (by simp)
  · exact h

theorem eq_or_live (hn : c.Notes c' b) (h : (c'.slot t).live.get? r = some a) :
    (a = b ∧ b.target = t ∧ b.register = r) ∨ (c.slot t).live.get? r = some a := by
  rw [hn.live] at h
  split_ifs at h with hb
  · exact .inl ⟨(Option.some.inj h).symm, hb⟩
  · exact .inr h

end Notes

/-- An accepted bind notes its flow for the target of its service; a drawn register lies at or above
the old counter and just below the new one. -/
theorem notes_of_bound {q : BindRequest} {o : BindOutcome} (h : (c.bind q).2 = .ok o) :
    ∃ target, c.target q.service = .ok target ∧
      c.Notes (c.bind q).1 ⟨target.id, o.register, q.selector, q.port⟩ ∧
      (q.register = none → (c.slot target.id).next ≤ o.register.toNat ∧
        ((c.bind q).1.slot target.id).next = o.register.toNat + 1) := by
  obtain ⟨target, device, max, rules, ha, hclaim, hflow, hafter, _⟩ := bind_eq_ok h
  obtain ⟨hfree, hdrawn⟩ := claim_eq_ok hclaim
  rw [hafter]
  refine ⟨target, ha.service_known, ⟨hfree, ha.selector_free, ?_, ?_, ?_, ?_⟩, ?_⟩
  · exact Schema.refs_nodup_of_compileFlow hflow
  · intro t r
    rw [afterBind_slot]
    by_cases ht : target.id = t
    · subst ht
      simp [Slot.record, claim_live]
    · simp [ht]
  · intro t
    rw [afterBind_slot]
    split_ifs with ht
    · rw [← ht]
      exact le_claim_next q.register
    · exact Nat.le_refl _
  · intro key
    rw [afterBind_owners, SortedMap.get?_insert]
  · intro hq
    rw [afterBind_slot, if_pos rfl]
    exact hdrawn hq

theorem keeps_of_not_bind {q : ControlRequest} (h : ∀ b, q ≠ .bind b) :
    c.Keeps (c.handle q).1 := by
  rw [c.handle_frame h]
  exact ⟨fun _ => rfl, fun _ => Nat.le_refl _, rfl⟩

/-- What an operation does to live registers, counters and owners. -/
theorem handle_keeps_or_notes (c : Controller) (q : ControlRequest) :
    c.Keeps (c.handle q).1 ∨ ∃ a, c.Notes (c.handle q).1 a := by
  by_cases h : ∃ b, q = .bind b
  · obtain ⟨b, rfl⟩ := h
    cases hb : (c.bind b).2 with
    | error e => exact .inl (keeps_of_refused hb)
    | ok o =>
      obtain ⟨target, _, hn, _⟩ := notes_of_bound hb
      exact .inr ⟨_, hn⟩
  · exact .inl (keeps_of_not_bind (not_exists.mp h))

theorem handle_live {q : ControlRequest} {t : TargetId} {r : RegisterId} {a : Allocation}
    (h : (c.slot t).live.get? r = some a) : ((c.handle q).1.slot t).live.get? r = some a := by
  rcases c.handle_keeps_or_notes q with hk | ⟨b, hn⟩
  · rw [hk.live]
    exact h
  · exact hn.live_of_live h

theorem handle_owner {q : ControlRequest} {key : List (FieldRef × Int)}
    {owner : TargetId × RegisterId} (h : c.owners.get? key = some owner) :
    (c.handle q).1.owners.get? key = some owner := by
  rcases c.handle_keeps_or_notes q with hk | ⟨b, hn⟩
  · rw [hk.owners]
    exact h
  · have hne : b.selector.key ≠ key := by
      rintro rfl
      rw [hn.unowned] at h
      exact absurd h (by simp)
    rw [hn.owners, if_neg hne]
    exact h

theorem le_handle_next (c : Controller) (q : ControlRequest) (t : TargetId) :
    (c.slot t).next ≤ ((c.handle q).1.slot t).next := by
  rcases c.handle_keeps_or_notes q with hk | ⟨b, hn⟩
  · exact hk.next t
  · exact hn.next t

/-- What every operation preserves, every run preserves. -/
theorem run_preserves {P : Controller → Prop} (step : ∀ c q, P c → P (c.handle q).1)
    (qs : List ControlRequest) (c : Controller) (h : P c) : P (c.run qs).1 := by
  induction qs generalizing c with
  | nil => exact h
  | cons q qs ih => exact ih (c.handle q).1 (step c q h)

theorem le_run_next (c : Controller) (qs : List ControlRequest) (t : TargetId) :
    (c.slot t).next ≤ ((c.run qs).1.slot t).next := by
  refine run_preserves (P := fun c' => (c.slot t).next ≤ (c'.slot t).next) ?_ qs c (Nat.le_refl _)
  intro c' q h
  exact Nat.le_trans h (le_handle_next c' q t)

theorem run_append (c : Controller) (qs rs : List ControlRequest) :
    (c.run (qs ++ rs)).1 = ((c.run qs).1.run rs).1 := by
  induction qs generalizing c with
  | nil => rfl
  | cons q qs ih => exact ih (c.handle q).1

/-- Some run leads to the controller from a new one, which may have been given a device. -/
def Reachable (c : Controller) : Prop :=
  ∃ (schema : Schema) (registry : Registry) (devices : List DeviceId) (device : Option DeviceId)
    (requests : List ControlRequest),
    c = (({ new schema registry devices with defaultDevice := device } : Controller).run requests).1

theorem Reachable.preserves {P : Controller → Prop}
    (init : ∀ schema registry devices device,
      P { new schema registry devices with defaultDevice := device })
    (step : ∀ c q, P c → P (c.handle q).1) (h : c.Reachable) : P c := by
  obtain ⟨schema, registry, devices, device, requests, rfl⟩ := h
  exact run_preserves step requests _ (init schema registry devices device)

theorem target_eq_ok_iff {service : String} {target : Target} :
    c.target service = .ok target ↔ c.registry.targetNamed? service = some target := by
  unfold Controller.target
  cases c.registry.targetNamed? service with
  | none => simp
  | some t => simp

end Controller

structure Grant where
  requested : Option RegisterId
  register : RegisterId
deriving DecidableEq, Repr

namespace Controller

def grant? (registry : Registry) (id : TargetId) : ControlRequest × ControlReply → Option Grant
  | (.bind q, .bound (.ok o)) =>
    if (registry.targetNamed? q.service).map Target.id = some id then
      some ⟨q.register, o.register⟩
    else none
  | _ => none

/-- The registers that a run hands out for a target, in the order of the calls. -/
def grants (c : Controller) (id : TargetId) (requests : List ControlRequest) : List Grant :=
  (requests.zip (c.run requests).2).filterMap (grant? c.registry id)

variable {c : Controller} {id : TargetId}

theorem grants_cons (q : ControlRequest) (qs : List ControlRequest) :
    c.grants id (q :: qs) =
      (grant? c.registry id (q, (c.handle q).2)).toList ++ (c.handle q).1.grants id qs := by
  have hrun : (c.run (q :: qs)).2 = (c.handle q).2 :: ((c.handle q).1.run qs).2 := rfl
  rw [grants, grants, hrun, List.zip_cons_cons, List.filterMap_cons, (c.handle_fixed q).2]
  cases grant? c.registry id (q, (c.handle q).2) with
  | none => rfl
  | some g => rfl

theorem grant?_eq_some {q : ControlRequest} {g : Grant}
    (h : grant? c.registry id (q, (c.handle q).2) = some g) :
    (c.slot id).live.get? g.register = none ∧
      (∃ a, ((c.handle q).1.slot id).live.get? g.register = some a) ∧
      (g.requested = none → (c.slot id).next ≤ g.register.toNat ∧
        ((c.handle q).1.slot id).next = g.register.toNat + 1) := by
  unfold grant? at h
  split at h
  · rename_i b o heq
    obtain ⟨rfl, hreply⟩ := Prod.mk.inj heq
    have hb : (c.bind b).2 = .ok o := ControlReply.bound.inj hreply
    obtain ⟨target, ht, hn, hdrawn⟩ := notes_of_bound hb
    rw [target_eq_ok_iff.mp ht] at h
    split_ifs at h with hid
    obtain rfl : target.id = id := Option.some.inj hid
    obtain rfl := Option.some.inj h
    have hlive := (hn.live target.id o.register).trans (if_pos ⟨rfl, rfl⟩)
    exact ⟨hn.free, ⟨_, hlive⟩, hdrawn⟩
  · exact absurd h (by simp)

/-- What a run hands out is free before it, and what it draws lies at or above the counter. -/
theorem grants_fresh (requests : List ControlRequest) (c : Controller) :
    ∀ g ∈ c.grants id requests, (c.slot id).live.get? g.register = none ∧
      (g.requested = none → (c.slot id).next ≤ g.register.toNat) := by
  induction requests generalizing c with
  | nil => simp [grants]
  | cons q qs ih =>
    intro g hg
    rw [grants_cons, List.mem_append, Option.mem_toList] at hg
    rcases hg with hg | hg
    · obtain ⟨hfree, _, hdrawn⟩ := grant?_eq_some hg
      exact ⟨hfree, fun hq => (hdrawn hq).1⟩
    · obtain ⟨hfree, hdrawn⟩ := ih (c.handle q).1 g hg
      refine ⟨?_, fun hq => Nat.le_trans (le_handle_next c q id) (hdrawn hq)⟩
      cases hl : (c.slot id).live.get? g.register with
      | none => rfl
      | some a =>
        rw [handle_live hl] at hfree
        exact absurd hfree (by simp)

theorem grants_pairwise (id : TargetId) (requests : List ControlRequest) (c : Controller) :
    (c.grants id requests).Pairwise fun g g' =>
      g.register ≠ g'.register ∧
        (g.requested = none → g'.requested = none → g.register < g'.register) := by
  induction requests generalizing c with
  | nil => exact .nil
  | cons q qs ih =>
    rw [grants_cons]
    refine List.pairwise_append.mpr ⟨?_, ih (c.handle q).1, ?_⟩
    · cases grant? c.registry id (q, (c.handle q).2) with
      | none => exact .nil
      | some g => exact List.pairwise_singleton _ _
    · intro g hg g' hg'
      rw [Option.mem_toList] at hg
      obtain ⟨_, ⟨a, hlive⟩, hdrawn⟩ := grant?_eq_some hg
      obtain ⟨hfree, hlater⟩ := grants_fresh qs (c.handle q).1 g' hg'
      constructor
      · intro he
        rw [he, hfree] at hlive
        exact absurd hlive (by simp)
      · intro hq hq'
        have h₁ := (hdrawn hq).2
        have h₂ := hlater hq'
        rw [UInt32.lt_iff_toNat_lt]
        omega

/-- Registers of a target are never handed out again, and those drawn ascend. -/
theorem registers_never_handed_out_twice (c : Controller) (id : TargetId)
    (requests : List ControlRequest) :
    ((c.grants id requests).map Grant.register).Nodup ∧
      (((c.grants id requests).filter fun g => g.requested = none).map Grant.register).Pairwise
        (· < ·) ∧
      ∀ before after,
        ((c.run before).1.slot id).next ≤ ((c.run (before ++ after)).1.slot id).next := by
  have hp := grants_pairwise id requests c
  refine ⟨?_, ?_, ?_⟩
  · exact List.pairwise_map.mpr (hp.imp fun h => h.1)
  · refine List.pairwise_map.mpr (List.pairwise_filter.mpr (hp.imp ?_))
    intro g g' h hg hg'
    exact h.2 (by simpa using hg) (by simpa using hg')
  · intro before after
    rw [run_append]
    exact le_run_next _ after id

end Controller
end StatefulPipeline
