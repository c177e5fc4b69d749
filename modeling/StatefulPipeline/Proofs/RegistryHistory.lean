import StatefulPipeline.Proofs.RegistryTables

/-! A registry is the sum of the edits that were made to it. A run leaves a list of calls: every
edit with the reply to it, those of the predefined automata included. Main statement: the edges of
a target are the calls that added them, in the order of the calls; the automaton moves where an
accepted call told it to, for good; and the decision of a state is that of the last accepted call
for it. -/

namespace StatefulPipeline

structure Call where
  edit : Edit
  reply : EditReply
deriving DecidableEq, Repr

namespace Call

def Accepted (c : Call) : Prop := ∀ error, c.reply ≠ .refused error

def added? (id : TargetId) : Call → Option Transition
  | ⟨.addTransition t, .added⟩ => if t.target = id then some t else none
  | _ => none

def bound? (id : TargetId) (state : StateId) : Call → Option Decision
  | ⟨.bind id' state' decision, .done⟩ => if id' = id ∧ state' = state then some decision else none
  | _ => none

theorem added?_eq_some_iff {id : TargetId} {t : Transition} {c : Call} :
    c.added? id = some t ↔ c = ⟨.addTransition t, .added⟩ ∧ t.target = id := by
  constructor
  · intro h
    unfold added? at h
    split at h
    · split_ifs at h with hid
      obtain rfl := Option.some.inj h
      exact ⟨rfl, hid⟩
    · exact absurd h (by simp)
  · rintro ⟨rfl, hid⟩
    simp [added?, hid]

end Call

namespace Registry

/-- The calls that a list of edits makes, up to the first that is refused. -/
def callsOfAll (r : Registry) : List Edit → List Call
  | [] => []
  | e :: es =>
    match r.edit e with
    | (_, .refused error) => [⟨e, .refused error⟩]
    | (r', reply) => ⟨e, reply⟩ :: r'.callsOfAll es

def callsOf (r : Registry) : RegistryRequest → List Call
  | .edit e => [⟨e, (r.edit e).2⟩]
  | .installFirewall => r.callsOfAll Firewall.edits
  | .installBalancer => r.callsOfAll Balancer.edits

def calls (r : Registry) : List RegistryRequest → List Call
  | [] => []
  | q :: qs => r.callsOf q ++ (r.handle q).1.calls qs

/-- Making the calls one after another leads from one registry to the other. -/
inductive Leads : Registry → List Call → Registry → Prop
  | nil (r : Registry) : Leads r [] r
  | cons {r r' : Registry} (e : Edit) {cs : List Call} :
      Leads (r.edit e).1 cs r' → Leads r (⟨e, (r.edit e).2⟩ :: cs) r'

theorem Leads.append {r r' r'' : Registry} {cs cs' : List Call} (h : Leads r cs r')
    (h' : Leads r' cs' r'') : Leads r (cs ++ cs') r'' := by
  induction h with
  | nil => exact h'
  | cons e _ ih => exact .cons e (ih h')

theorem leads_editAll (es : List Edit) (r : Registry) :
    Leads r (r.callsOfAll es) (r.editAll es).1 := by
  induction es generalizing r with
  | nil => exact .nil r
  | cons e es ih =>
    have hcall : Leads r [⟨e, (r.edit e).2⟩] (r.edit e).1 := .cons e (.nil _)
    have hrest := ih (r.edit e).1
    rw [callsOfAll, editAll]
    generalize r.edit e = p at hcall hrest
    obtain ⟨r', reply⟩ := p
    cases reply with
    | refused error => exact hcall
    | done => exact hcall.append hrest
    | added => exact hcall.append hrest
    | known => exact hcall.append hrest

theorem leads_handle (q : RegistryRequest) (r : Registry) :
    Leads r (r.callsOf q) (r.handle q).1 := by
  cases q with
  | edit e => exact .cons e (.nil _)
  | installFirewall => exact leads_editAll Firewall.edits r
  | installBalancer => exact leads_editAll Balancer.edits r

theorem leads_run (qs : List RegistryRequest) (r : Registry) :
    Leads r (r.calls qs) (r.run qs).1 := by
  induction qs generalizing r with
  | nil => exact .nil r
  | cons q qs ih => exact (leads_handle q r).append (ih (r.handle q).1)

inductive EditEnd (r : Registry) : Edit → Registry → EditReply → Prop
  | refused {e : Edit} {error : RegistryError} : EditEnd r e r (.refused error)
  | registered {target : Target} :
      r.machine? target.id = none →
      EditEnd r (.register target) ⟨r.machines ++ [.new target]⟩ .done
  | added {t : Transition} {m : Machine} :
      r.machine? t.target = some m →
      m.edge? t.trigger t.current = none →
      EditEnd r (.addTransition t) (r.update t.target fun m => m.addTransition t) .added
  | known {t u : Transition} {m : Machine} :
      r.machine? t.target = some m →
      m.edge? t.trigger t.current = some u →
      u.next = t.next →
      EditEnd r (.addTransition t) r .known
  | bound {id : TargetId} {state : StateId} {decision : Decision} {m : Machine} :
      r.machine? id = some m →
      EditEnd r (.bind id state decision) (r.update id fun m => m.bind state decision) .done

theorem editEnd (r : Registry) (e : Edit) : r.EditEnd e (r.edit e).1 (r.edit e).2 := by
  cases e with
  | register target =>
    cases hr : r.register target with
    | error error => simpa [edit, hr] using .refused
    | ok r' =>
      obtain ⟨hnew, rfl⟩ := register_eq_ok_iff.mp hr
      simp only [edit, hr]
      refine .registered (List.find?_eq_none.mpr fun m hm => ?_)
      simpa using (hnew m hm).2
  | addTransition t =>
    cases hr : r.addTransition t with
    | error error => simpa [edit, hr] using .refused
    | ok p =>
      obtain ⟨r', new⟩ := p
      obtain ⟨m, hm, ⟨he, rfl, rfl⟩ | ⟨⟨u, he, hn⟩, rfl, rfl⟩⟩ := addTransition_eq_ok_iff.mp hr
      · simp only [edit, hr]
        exact .added hm he
      · simp only [edit, hr]
        exact .known hm he hn
  | bind id state decision =>
    cases hr : r.bind id state decision with
    | error error => simpa [edit, hr] using .refused
    | ok r' =>
      obtain ⟨⟨m, hm⟩, rfl⟩ := bind_eq_ok_iff.mp hr
      simp only [edit, hr]
      exact .bound hm

namespace EditEnd

variable {r r' : Registry} {e : Edit} {reply : EditReply}

theorem transitionsFor (h : r.EditEnd e r' reply) (id : TargetId) :
    r'.transitionsFor id = r.transitionsFor id ++ ((⟨e, reply⟩ : Call).added? id).toList := by
  cases h with
  | refused => simp [Call.added?]
  | @registered target hnew =>
    simp only [Registry.transitionsFor, machine?_register, Call.added?, Option.toList_none,
      List.append_nil]
    by_cases hid : target.id = id
    · subst hid
      simp [hnew, Machine.new]
    · simp [hid]
  | @added t m hm he =>
    simp only [Registry.transitionsFor, machine?_update r fun m => m.target_addTransition t,
      Call.added?]
    by_cases hid : t.target = id
    · subst hid
      simp [hm, Machine.addTransition]
    · simp [hid]
  | known => simp [Call.added?]
  | @bound id' state decision m hm =>
    simp only [Registry.transitionsFor, machine?_update r fun m => m.target_bind state decision,
      Call.added?, Option.toList_none, List.append_nil]
    by_cases hid : id' = id
    · subst hid
      simp [hm, Machine.bind]
    · simp [hid]

theorem decision? (h : r.EditEnd e r' reply) (id : TargetId) (state : StateId) :
    r'.decision? id state = ((⟨e, reply⟩ : Call).bound? id state).or (r.decision? id state) := by
  cases h with
  | refused => simp [Call.bound?]
  | @registered target hnew =>
    simp only [Registry.decision?, machine?_register, Call.bound?, Option.none_or]
    by_cases hid : target.id = id
    · subst hid
      simp [hnew, Machine.new]
    · simp [hid]
  | @added t m hm he =>
    simp only [Registry.decision?, machine?_update r fun m => m.target_addTransition t,
      Call.bound?, Option.none_or]
    by_cases hid : t.target = id
    · subst hid
      simp [hm, Machine.addTransition]
    · simp [hid]
  | known => simp [Call.bound?]
  | @bound id' state' decision m hm =>
    simp only [Registry.decision?, machine?_update r fun m => m.target_bind state' decision,
      Call.bound?]
    by_cases hid : id' = id
    · subst hid
      by_cases hs : state' = state <;> simp [hm, Machine.bind, hs]
    · simp [hid]

end EditEnd

theorem step_of_accepted {r : Registry} (hw : r.WellFormed) {t : Transition}
    (h : Call.Accepted ⟨.addTransition t, (r.edit (.addTransition t)).2⟩) :
    (r.edit (.addTransition t)).1.step t.target t.trigger t.current = some t.next := by
  have hw' := hw.edit (.addTransition t)
  have hend := r.editEnd (.addTransition t)
  rw [hw'.step_eq_some_iff, hend.transitionsFor]
  generalize (r.edit (.addTransition t)).1 = r' at hend
  generalize (r.edit (.addTransition t)).2 = reply at hend h
  cases hend with
  | refused => exact absurd rfl (h _)
  | added => simp [Call.added?]
  | @known _ u m hm he hn =>
    refine List.mem_append_left _ (hw.step_eq_some_iff.mp ?_)
    simp [step, hm, he, hn]

namespace Leads

variable {r r' : Registry} {cs : List Call}

theorem wellFormed (h : Leads r cs r') (hw : r.WellFormed) : r'.WellFormed := by
  induction h with
  | nil => exact hw
  | cons e _ ih => exact ih (hw.edit e)

theorem transitionsFor (h : Leads r cs r') (id : TargetId) :
    r'.transitionsFor id = r.transitionsFor id ++ cs.filterMap (Call.added? id) := by
  induction h with
  | nil => simp
  | @cons r r' e cs _ ih =>
    rw [ih, (r.editEnd e).transitionsFor, List.append_assoc]
    cases hc : (⟨e, (r.edit e).2⟩ : Call).added? id <;> simp [hc]

theorem decision? (h : Leads r cs r') (id : TargetId) (state : StateId) :
    r'.decision? id state =
      (cs.filterMap (Call.bound? id state)).getLast?.or (r.decision? id state) := by
  induction h with
  | nil => simp
  | @cons r r' e cs _ ih =>
    rw [ih, (r.editEnd e).decision?]
    cases hc : (⟨e, (r.edit e).2⟩ : Call).bound? id state with
    | none => simp [hc]
    | some decision => simp [hc, List.getLast?_cons, Option.or_some]

theorem step_eq_some (h : Leads r cs r') (hw : r.WellFormed) {id : TargetId} {g : Trigger}
    {c n : StateId} (hs : r.step id g c = some n) : r'.step id g c = some n := by
  rw [hw.step_eq_some_iff] at hs
  rw [(h.wellFormed hw).step_eq_some_iff, h.transitionsFor]
  exact List.mem_append_left _ hs

theorem step_of_accepted (h : Leads r cs r') (hw : r.WellFormed) {t : Transition} {call : Call}
    (hm : call ∈ cs) (he : call.edit = .addTransition t) (ha : call.Accepted) :
    r'.step t.target t.trigger t.current = some t.next := by
  induction h with
  | nil => exact absurd hm List.not_mem_nil
  | cons e h ih =>
    rcases List.mem_cons.mp hm with rfl | hm
    · obtain rfl : e = .addTransition t := he
      exact h.step_eq_some (hw.edit _) (Registry.step_of_accepted hw ha)
    · exact ih (hw.edit e) hm

end Leads

/-- What a registry answers is told by the calls that were accepted. -/
theorem answers_are_the_history (requests : List RegistryRequest) (id : TargetId) :
    (after requests).transitionsFor id = (empty.calls requests).filterMap (Call.added? id) ∧
      (∀ g c n, (after requests).step id g c = some n ↔
        ∃ call ∈ empty.calls requests,
          call.edit = .addTransition ⟨id, g, c, n⟩ ∧ call.Accepted) ∧
      (∀ g c n, (after requests).step id g c = some n →
        ∀ more, ((after requests).run more).1.step id g c = some n) ∧
      ((after requests).actionsFor id).Pairwise (fun a b => a.state < b.state) ∧
      (∀ b, b ∈ (after requests).actionsFor id ↔
        b.target = id ∧
          ((empty.calls requests).filterMap (Call.bound? id b.state)).getLast? =
            some b.decision) ∧
      (RegistryTables.after requests).Agrees (after requests) := by
  have hleads : Leads empty (empty.calls requests) (after requests) := leads_run requests empty
  have hw : (after requests).WellFormed := hleads.wellFormed empty_wellFormed
  have hedges : (after requests).transitionsFor id =
      (empty.calls requests).filterMap (Call.added? id) :=
    hleads.transitionsFor id
  refine ⟨hedges, ?_, ?_, ?_, ?_, (RegistryTables.empty_represents.run requests).1.agrees⟩
  · intro g c n
    constructor
    · intro hs
      rw [hw.step_eq_some_iff, hedges, List.mem_filterMap] at hs
      obtain ⟨call, hm, hadded⟩ := hs
      obtain ⟨rfl, _⟩ := Call.added?_eq_some_iff.mp hadded
      exact ⟨_, hm, rfl, fun error => nofun⟩
    · rintro ⟨call, hm, he, ha⟩
      exact hleads.step_of_accepted empty_wellFormed hm he ha
  · intro g c n hs more
    exact (leads_run more (after requests)).step_eq_some hw hs
  · refine ((after requests).actionsFor_sorted id).imp ?_
    intro a b hab
    exact UInt8.lt_iff_toNat_lt.mpr (by simpa [Key.before] using hab)
  · intro b
    rw [mem_actionsFor, hleads.decision?]
    simp [empty, Registry.decision?, machine?]

/-- The firewall is installed twice, the second time in vain; its id is asked for again; an edge is
added again, and another in its place; and a decision is replaced, with one of another target in
between. -/
def contested : List RegistryRequest :=
  [.installFirewall, .installBalancer, .installFirewall,
    .edit (.register ⟨"fw", 1, Name.lookupByNothing⟩),
    .edit (.addTransition ⟨1, 2, 0, 1⟩), .edit (.addTransition ⟨1, 2, 0, 5⟩),
    .edit (.bind 1 0 (.outputPort 7)), .edit (.bind 2 0 .sendToController)]

theorem contested_answers :
    (after contested).step 1 2 0 = some 1 ∧
      ((after contested).run [.edit (.addTransition ⟨1, 2, 0, 6⟩)]).1.step 1 2 0 = some 1 ∧
      (⟨1, 0, .outputPort 7⟩ : ActionBinding) ∈ (after contested).actionsFor 1 ∧
      (⟨1, 0, .drop⟩ : ActionBinding) ∉ (after contested).actionsFor 1 := by
  obtain ⟨_, _, hstays, _, hbound, _⟩ := answers_are_the_history contested 1
  have hstep : (after contested).step 1 2 0 = some 1 := by decide
  refine ⟨hstep, hstays 2 0 1 hstep _, (hbound _).mpr ⟨rfl, by decide⟩, ?_⟩
  intro hdrop
  exact absurd ((hbound _).mp hdrop).2 (by decide)

end Registry
end StatefulPipeline
