import StatefulPipeline.Proofs.BindVerdicts
import StatefulPipeline.Proofs.RegistryRuns

/-! Why a selector is in use. The owners that a controller keeps are the binds that it has accepted:
an accepted bind enters its selector, and nothing else enters, changes or removes one. So a bind is
refused for its selector exactly if a bind with the same terms was accepted before it, and it is
told the service and the register of that bind. -/

namespace StatefulPipeline

structure Binding where
  request : BindRequest
  register : RegisterId
deriving DecidableEq, Repr

def Binding.owner? (registry : Registry) (b : Binding) : Option (TargetId × RegisterId) :=
  (registry.targetNamed? b.request.service).map fun target => (target.id, b.register)

namespace Controller

def binding? : ControlRequest × ControlReply → Option Binding
  | (.bind q, .bound (.ok o)) => some ⟨q, o.register⟩
  | _ => none

def bindings (c : Controller) (requests : List ControlRequest) : List Binding :=
  (requests.zip (c.run requests).2).filterMap binding?

variable {c : Controller}

theorem mem_bindings_cons {b : Binding} (q : ControlRequest) (qs : List ControlRequest) :
    b ∈ c.bindings (q :: qs) ↔
      binding? (q, (c.handle q).2) = some b ∨ b ∈ (c.handle q).1.bindings qs := by
  have hrun : (c.run (q :: qs)).2 = (c.handle q).2 :: ((c.handle q).1.run qs).2 := rfl
  simp only [bindings, hrun, List.zip_cons_cons, List.mem_filterMap, List.mem_cons,
    or_and_right, exists_or, exists_eq_left]

theorem binding?_eq_some_iff {q : ControlRequest} {b : Binding} :
    binding? (q, (c.handle q).2) = some b ↔
      q = .bind b.request ∧ ∃ o, (c.bind b.request).2 = .ok o ∧ o.register = b.register := by
  constructor
  · intro h
    unfold binding? at h
    split at h
    · rename_i r o heq
      obtain ⟨rfl, hreply⟩ := Prod.mk.inj heq
      obtain rfl := Option.some.inj h
      exact ⟨rfl, o, ControlReply.bound.inj hreply, rfl⟩
    · cases h
  · rintro ⟨rfl, o, ho, hregister⟩
    rw [handle, ho, binding?, hregister]

theorem owner_of_binding {q : ControlRequest} {b : Binding}
    (h : binding? (q, (c.handle q).2) = some b) :
    ∃ owner, b.owner? c.registry = some owner ∧
      c.owners.get? b.request.selector.key = none ∧
      ∀ key, (c.handle q).1.owners.get? key =
        if b.request.selector.key = key then some owner else c.owners.get? key := by
  obtain ⟨rfl, o, ho, hregister⟩ := binding?_eq_some_iff.mp h
  obtain ⟨target, ht, hn, _⟩ := notes_of_bound ho
  refine ⟨(target.id, o.register), ?_, hn.unowned, hn.owners⟩
  rw [Binding.owner?, target_eq_ok_iff.mp ht, hregister]
  rfl

theorem owners_of_no_binding {q : ControlRequest}
    (h : binding? (q, (c.handle q).2) = none) : (c.handle q).1.owners = c.owners := by
  by_cases hq : ∃ b, q = .bind b
  · obtain ⟨b, rfl⟩ := hq
    cases hb : (c.bind b).2 with
    | error e => exact (keeps_of_refused hb).owners
    | ok o =>
      rw [handle, hb] at h
      cases h
  · exact (keeps_of_not_bind (not_exists.mp hq)).owners

theorem handle_owner_iff {q : ControlRequest} {key : List (FieldRef × Int)}
    {owner : TargetId × RegisterId} :
    (c.handle q).1.owners.get? key = some owner ↔
      c.owners.get? key = some owner ∨
        ∃ b, binding? (q, (c.handle q).2) = some b ∧ b.request.selector.key = key ∧
          b.owner? c.registry = some owner := by
  cases hb : binding? (q, (c.handle q).2) with
  | none => simp [owners_of_no_binding hb]
  | some b =>
    obtain ⟨owner', howner, hfree, hafter⟩ := owner_of_binding hb
    rw [hafter key]
    split_ifs with hkey
    · rw [hkey] at hfree
      simp [hfree, hkey, howner]
    · simp [hkey]

/-- The owners after a run are those before it and those that its bindings enter. -/
theorem run_owner_iff {key : List (FieldRef × Int)} {owner : TargetId × RegisterId}
    (requests : List ControlRequest) (c : Controller) :
    (c.run requests).1.owners.get? key = some owner ↔
      c.owners.get? key = some owner ∨
        ∃ b ∈ c.bindings requests, b.request.selector.key = key ∧
          b.owner? c.registry = some owner := by
  induction requests generalizing c with
  | nil => simp [run, bindings]
  | cons q qs ih =>
    have hrun : (c.run (q :: qs)).1 = ((c.handle q).1.run qs).1 := rfl
    simp only [hrun, ih, handle_owner_iff, (c.handle_fixed q).2, mem_bindings_cons, or_and_right,
      exists_or, or_assoc]

theorem owner?_of_mem_bindings {b : Binding} (requests : List ControlRequest) (c : Controller)
    (h : b ∈ c.bindings requests) : ∃ owner, b.owner? c.registry = some owner := by
  induction requests generalizing c with
  | nil => cases h
  | cons q qs ih =>
    rcases (mem_bindings_cons q qs).mp h with hb | hb
    · obtain ⟨owner, howner, _⟩ := owner_of_binding hb
      exact ⟨owner, howner⟩
    · rw [← (c.handle_fixed q).2]
      exact ih (c.handle q).1 hb

theorem run_fixed (c : Controller) (requests : List ControlRequest) :
    (c.run requests).1.schema = c.schema ∧ (c.run requests).1.registry = c.registry := by
  refine run_preserves (P := fun c' => c'.schema = c.schema ∧ c'.registry = c.registry) ?_
    requests c ⟨rfl, rfl⟩
  intro c' q h
  exact ⟨(c'.handle_fixed q).1.trans h.1, (c'.handle_fixed q).2.trans h.2⟩

theorem ownerName_of_owner? (hr : c.registry.Reachable) {b : Binding} {id : TargetId}
    {register : RegisterId} (h : b.owner? c.registry = some (id, register)) :
    c.ownerName id = b.request.service ∧ b.register = register := by
  obtain ⟨target, ht, hpair⟩ := Option.map_eq_some_iff.mp h
  obtain ⟨rfl, rfl⟩ := Prod.mk.inj hpair
  obtain ⟨hname, hfound⟩ := hr.wellFormed.target?_of_named ht
  rw [ownerName, hfound]
  exact ⟨hname, rfl⟩

section Answer

variable {q : BindRequest} {target : Target} {device : DeviceId} {max : RegisterId}
  {service : String} {register : RegisterId}

theorem claim_ne_selectorInUse (slot : Slot) (name : String) (requested : Option RegisterId) :
    (claim slot name max requested).2 ≠ .error (.selectorInUse service register) := by
  cases requested with
  | some r =>
    rw [claim]
    split_ifs <;> simp
  | none =>
    rw [claim]
    split <;> simp

/-- Past the look at its owner, a bind is not refused for its selector any more. -/
theorem answer_ne_selectorInUse (ha : c.Admits q target device max) :
    (c.bind q).2 ≠ .error (.selectorInUse service register) := by
  rw [bind_eq, verdict, admission_eq_ok_iff.mpr ha]
  dsimp only
  split
  · rename_i slot e hc
    intro heq
    obtain rfl := Except.error.inj heq
    exact claim_ne_selectorInUse _ _ _ (congrArg Prod.snd hc)
  · split <;> simp [Verdict.answer]

theorem selectorInUse_iff_owned (ht : c.target q.service = .ok target)
    (hd : c.device? = some device) (hm : c.schema.maxRegister target.lookupAction = .ok max) :
    (c.bind q).2 = .error (.selectorInUse service register) ↔
      ∃ id, c.owners.get? q.selector.key = some (id, register) ∧ c.ownerName id = service := by
  cases ho : c.owners.get? q.selector.key with
  | none =>
    have hne : (c.bind q).2 ≠ .error (.selectorInUse service register) :=
      answer_ne_selectorInUse ⟨ht, hd, hm, ho⟩
    simp [hne]
  | some owner =>
    obtain ⟨id, r⟩ := owner
    have hanswer : (c.bind q).2 = .error (.selectorInUse (c.ownerName id) r) := by
      simp [bind_eq, verdict, admission, ht, hd, hm, ho, Verdict.answer]
    simp [hanswer, and_comm]

end Answer

/-- A selector is in use exactly if its terms were bound before, and the answer tells by whom. -/
theorem selector_in_use_iff_bound_before (c : Controller) (hnone : c.owners = .empty)
    (hr : c.registry.Reachable) (requests : List ControlRequest) (q : BindRequest)
    {target : Target} (hservice : c.registry.targetNamed? q.service = some target)
    {width : Width} (hwidth : c.schema.paramWidth target.lookupAction Name.registerId = .ok width)
    {device : DeviceId} (hdevice : (c.run requests).1.device? = some device)
    (service : String) (register : RegisterId) :
    ((c.run requests).1.bind q).2 = .error (.selectorInUse service register) ↔
      ∃ b ∈ c.bindings requests, b.request.service = service ∧ b.register = register ∧
        b.request.selector.terms.Perm q.selector.terms := by
  obtain ⟨hschema, hregistry⟩ := c.run_fixed requests
  have ht : (c.run requests).1.target q.service = .ok target :=
    target_eq_ok_iff.mpr (hregistry ▸ hservice)
  have hm : (c.run requests).1.schema.maxRegister target.lookupAction =
      .ok (UInt32.ofNat (Encoded.span (Nat.min width.toNat 32) - 1)) := by
    rw [hschema, Schema.maxRegister, hwidth]
  have hname (id : TargetId) : (c.run requests).1.ownerName id = c.ownerName id := by
    rw [ownerName, ownerName, hregistry]
  rw [selectorInUse_iff_owned ht hdevice hm]
  simp only [run_owner_iff, hname, hnone, SortedMap.get?_empty, reduceCtorEq, false_or,
    Selector.key, Key.sort_eq_iff_perm]
  constructor
  · rintro ⟨id, ⟨b, hb, hterms, howner⟩, rfl⟩
    obtain ⟨hid, hregister⟩ := ownerName_of_owner? hr howner
    exact ⟨b, hb, hid.symm, hregister, hterms⟩
  · rintro ⟨b, hb, rfl, rfl, hterms⟩
    obtain ⟨⟨id, r⟩, howner⟩ := owner?_of_mem_bindings requests c hb
    obtain ⟨hid, rfl⟩ := ownerName_of_owner? hr howner
    exact ⟨id, ⟨b, hb, hterms, howner⟩, hid⟩

def frames : Schema :=
  Schema.accept
    [.field ⟨"ethernet", "dstAddr"⟩ ⟨48, false⟩, .field ⟨"ethernet", "etherType"⟩ ⟨16, false⟩,
      .action ⟨Name.lookupByTcpFlag, [⟨Name.targetId, 16⟩, ⟨Name.registerId, 2⟩]⟩,
      .action ⟨Name.lookupByNothing, [⟨Name.targetId, 16⟩, ⟨Name.registerId, 2⟩]⟩]

def overFrames : Controller := new frames Registry.defaults ["s1#0"]

def framesTo : Selector := ⟨[.ethType 2048, .ethDst 7]⟩

/-- The same frames, with the fields written out and the other way round. -/
def framesToInFields : Selector :=
  ⟨[.field ⟨"ethernet", "dstAddr"⟩ 7, .field ⟨"ethernet", "etherType"⟩ 2048]⟩

def doubled : Selector := ⟨[.ethType 2048, .ethType 2048]⟩

/-- The balancer gets the frames and is stopped; the firewall is refused a selector that names a
field twice. -/
def stoppedBalancer : List ControlRequest :=
  [.deviceInitialized "s2#1", .bind ⟨"slb", some 1, framesTo, none⟩,
    .bind ⟨"sfw", none, doubled, none⟩, .stop "slb"]

theorem stoppedBalancer_selectors :
    overFrames.owners = .empty ∧ overFrames.registry.Reachable ∧
      (overFrames.run stoppedBalancer).1.device? = some "s2#1" ∧
      ((overFrames.run stoppedBalancer).1.bind ⟨"sfw", some 3, framesToInFields, some 9⟩).2 =
        .error (.selectorInUse "slb" 1) ∧
      ∀ service register,
        ((overFrames.run stoppedBalancer).1.bind ⟨"sfw", none, doubled, none⟩).2 ≠
          .error (.selectorInUse service register) := by
  have hr : overFrames.registry.Reachable := Registry.defaults_reachable
  have hd : (overFrames.run stoppedBalancer).1.device? = some "s2#1" := by decide
  have hmade : overFrames.bindings stoppedBalancer =
      [⟨⟨"slb", some 1, framesTo, none⟩, 1⟩] := by decide
  have hiff := selector_in_use_iff_bound_before overFrames rfl hr stoppedBalancer
  refine ⟨rfl, hr, hd, ?_, ?_⟩
  · refine (hiff _ rfl rfl hd _ _).mpr ⟨_, hmade ▸ List.mem_singleton_self _, rfl, rfl, ?_⟩
    decide
  · intro service register hanswer
    obtain ⟨b, hb, _, _, hterms⟩ := (hiff _ rfl rfl hd _ _).mp hanswer
    obtain rfl := List.mem_singleton.mp (hmade ▸ hb)
    exact absurd hterms (by decide)

end Controller
end StatefulPipeline
