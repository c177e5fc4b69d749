import StatefulPipeline.Proofs.RegistryTables

/-! Predefined automata are installed whole or not at all. They are lists of edits, and nothing
takes back the edits before one that is refused. But only the first can be: it registers the target,
and behind a target that is new there is nothing yet that the others could conflict with. In the
three tables this rests on every run that led to them, which leaves no edge and no decision under an
id that is not registered. -/

namespace StatefulPipeline

namespace Edit

def subject? : Edit → Option TargetId
  | register _ => none
  | addTransition t => some t.target
  | bind id _ _ => some id

def transition? : Edit → Option Transition
  | addTransition t => some t
  | _ => none

def binding? : Edit → Option ActionBinding
  | bind id state decision => some ⟨id, state, decision⟩
  | _ => none

end Edit

/-- An automaton as it is looked up: the edges of its target in order, and the decisions in the
order of their states. -/
structure Blueprint where
  target : Target
  transitions : List Transition
  bindings : List ActionBinding

def Firewall.blueprint : Blueprint where
  target := ⟨"sfw", 1, "get_state_with_tcp_flag"⟩
  transitions := [⟨1, 2, 0, 1⟩, ⟨1, 2, 1, 1⟩, ⟨1, 18, 1, 2⟩, ⟨1, 16, 2, 3⟩, ⟨1, 16, 3, 3⟩,
    ⟨1, 4, 3, 3⟩, ⟨1, 20, 3, 3⟩, ⟨1, 24, 3, 3⟩, ⟨1, 1, 3, 4⟩, ⟨1, 17, 4, 5⟩, ⟨1, 1, 5, 6⟩,
    ⟨1, 17, 6, 7⟩]
  bindings := [⟨1, 0, .drop⟩]

def Balancer.blueprint : Blueprint where
  target := ⟨"slb", 2, "get_state_with_nothing"⟩
  transitions := [⟨2, 0, 0, 1⟩, ⟨2, 0, 1, 2⟩, ⟨2, 0, 2, 1⟩]
  bindings := [⟨2, 0, .drop⟩, ⟨2, 1, .outputPort 2⟩, ⟨2, 2, .outputPort 3⟩]

/-- Edits that write down one automaton and nothing else. -/
structure Blueprint.WrittenBy (b : Blueprint) (edits : List Edit) : Prop where
  registers : edits.head? = some (.register b.target)
  own : ∀ e ∈ edits.tail, e.subject? = some b.target.id
  transitions : edits.filterMap Edit.transition? = b.transitions
  deterministic : (b.transitions.map Transition.source).Nodup
  bindings : (edits.filterMap Edit.binding?).Perm b.bindings
  ascending : b.bindings.Pairwise fun a b => Key.before a.state b.state = true

theorem Firewall.blueprint_writtenBy : blueprint.WrittenBy edits :=
  ⟨rfl, by decide, rfl, by decide, by decide, by decide⟩

theorem Balancer.blueprint_writtenBy : blueprint.WrittenBy edits :=
  ⟨rfl, by decide, rfl, by decide, by decide, by decide⟩

namespace Machine

def edited (m : Machine) : Edit → Machine
  | .register _ => m
  | .addTransition t => m.addTransition t
  | .bind _ state decision => m.bind state decision

@[simp] theorem target_edited (m : Machine) (e : Edit) : (m.edited e).target = m.target := by
  cases e <;> rfl

theorem transitions_edited (m : Machine) (e : Edit) (es : List Edit) :
    (m.edited e).transitions ++ es.filterMap Edit.transition? =
      m.transitions ++ (e :: es).filterMap Edit.transition? := by
  cases e with
  | register target => rfl
  | addTransition t => exact List.append_assoc m.transitions [t] _
  | bind id state decision => rfl

@[simp] theorem target_foldl_edited (es : List Edit) (m : Machine) :
    (es.foldl edited m).target = m.target := by
  induction es generalizing m with
  | nil => rfl
  | cons e es ih => rw [List.foldl_cons, ih, target_edited]

theorem transitions_foldl_edited (es : List Edit) (m : Machine) :
    (es.foldl edited m).transitions = m.transitions ++ es.filterMap Edit.transition? := by
  induction es generalizing m with
  | nil => simp
  | cons e es ih => rw [List.foldl_cons, ih, transitions_edited]

/-- If no state is decided twice, the decisions are those that the automaton had and those of the
edits. -/
theorem get?_foldl_edited {es : List Edit} {m : Machine}
    (hdecided : ((es.filterMap Edit.binding?).map ActionBinding.state).Nodup)
    (hfree : ∀ b ∈ es.filterMap Edit.binding?, m.decisions.get? b.state = none)
    {state : StateId} {decision : Decision} :
    (es.foldl edited m).decisions.get? state = some decision ↔
      m.decisions.get? state = some decision ∨
        ∃ b ∈ es.filterMap Edit.binding?, b.state = state ∧ b.decision = decision := by
  induction es generalizing m with
  | nil => simp
  | cons e es ih =>
    rw [List.foldl_cons]
    cases e with
    | register target => exact ih hdecided hfree
    | addTransition t => exact ih hdecided hfree
    | bind id s d =>
      have hbinding : (Edit.bind id s d).binding? = some ⟨id, s, d⟩ := rfl
      rw [List.filterMap_cons_some hbinding] at hdecided hfree ⊢
      obtain ⟨hs, hrest⟩ := List.forall_mem_cons.mp hfree
      obtain ⟨hnew, hdecided⟩ := List.nodup_cons.mp hdecided
      have hfree' : ∀ b ∈ es.filterMap Edit.binding?,
          (m.edited (.bind id s d)).decisions.get? b.state = none := by
        intro b hb
        have hne : s ≠ b.state := by
          rintro rfl
          exact hnew (List.mem_map.mpr ⟨b, hb, rfl⟩)
        simp [edited, bind, hne, hrest b hb]
      rw [ih hdecided hfree', List.exists_mem_cons_iff]
      by_cases he : s = state
      · subst he
        simp [edited, bind, hs]
      · simp [edited, bind, he]

end Machine

def Machine.written (target : Target) (edits : List Edit) : Machine :=
  edits.foldl edited (.new target)

@[simp] theorem Machine.target_written (target : Target) (edits : List Edit) :
    (written target edits).target = target :=
  target_foldl_edited edits (.new target)

namespace Blueprint.WrittenBy

variable {b : Blueprint} {edits : List Edit} (h : b.WrittenBy edits)
include h

theorem eq_cons : edits = .register b.target :: edits.tail := by
  obtain ⟨rest, hrest⟩ := List.head?_eq_some_iff.mp h.registers
  rw [hrest, List.tail_cons]

theorem target_of_mem_bindings {a : ActionBinding} (ha : a ∈ b.bindings) :
    a.target = b.target.id := by
  obtain ⟨e, he, hbinding⟩ := List.mem_filterMap.mp (h.bindings.mem_iff.mpr ha)
  rw [h.eq_cons] at he
  rcases List.mem_cons.mp he with rfl | he
  · cases hbinding
  · have hown := h.own e he
    cases e with
    | register target => cases hown
    | addTransition t => cases hbinding
    | bind id state decision =>
      obtain rfl := Option.some.inj hbinding
      exact Option.some.inj hown

theorem states_nodup : ((edits.filterMap Edit.binding?).map ActionBinding.state).Nodup := by
  rw [(h.bindings.map _).nodup_iff, List.nodup_iff_pairwise_ne, List.pairwise_map]
  exact h.ascending.imp Key.ne_of_before

theorem transitions_written : (Machine.written b.target edits).transitions = b.transitions :=
  (Machine.transitions_foldl_edited edits (.new b.target)).trans h.transitions

theorem decisions_written {state : StateId} {decision : Decision} :
    (Machine.written b.target edits).decisions.get? state = some decision ↔
      ⟨b.target.id, state, decision⟩ ∈ b.bindings := by
  rw [Machine.written, Machine.get?_foldl_edited h.states_nodup fun _ _ => rfl]
  simp only [h.bindings.mem_iff]
  constructor
  · rintro (hnone | ⟨a, ha, rfl, rfl⟩)
    · cases hnone
    · rw [← h.target_of_mem_bindings ha]
      exact ha
  · intro ha
    exact .inr ⟨_, ha, rfl, rfl⟩

end Blueprint.WrittenBy

namespace Registry

def add (r : Registry) (m : Machine) : Registry := ⟨r.machines ++ [m]⟩

theorem machine?_add (r : Registry) (m : Machine) (id : TargetId) :
    (r.add m).machine? id = (r.machine? id).or (if m.target.id = id then some m else none) := by
  by_cases h : m.target.id = id <;> simp [add, machine?, h]

section Adding

variable {r : Registry} {m : Machine} (hnew : r.machine? m.target.id = none)
include hnew

theorem machine?_add_self : (r.add m).machine? m.target.id = some m := by
  simp [machine?_add, hnew]

theorem update_add (f : Machine → Machine) : (r.add m).update m.target.id f = r.add (f m) := by
  have hothers : r.machines.map (fun n => if n.target.id = m.target.id then f n else n) =
      r.machines := by
    refine (List.map_congr_left fun n hn => if_neg ?_).trans (List.map_id' _)
    simpa using List.find?_eq_none.mp hnew n hn
  simp [update, add, hothers]

theorem edit_add {e : Edit} (hown : e.subject? = some m.target.id)
    (hfree : ∀ t, e.transition? = some t → m.edge? t.trigger t.current = none) :
    ∃ reply, (r.add m).edit e = (r.add (m.edited e), reply) ∧ ∀ error, reply ≠ .refused error := by
  have hself := machine?_add_self hnew
  cases e with
  | register target => cases hown
  | addTransition t =>
    have ht : t.target = m.target.id := Option.some.inj hown
    refine ⟨.added, ?_, by simp⟩
    simp [edit, addTransition, ht, hself, hfree t rfl, update_add hnew, Machine.edited]
  | bind id state decision =>
    obtain rfl : id = m.target.id := Option.some.inj hown
    refine ⟨.done, ?_, by simp⟩
    simp [edit, bind, hself, update_add hnew, Machine.edited]

end Adding

theorem editAll_add {r : Registry} {es : List Edit} {m : Machine}
    (hnew : r.machine? m.target.id = none) (hown : ∀ e ∈ es, e.subject? = some m.target.id)
    (hdet : ((m.transitions ++ es.filterMap Edit.transition?).map Transition.source).Nodup) :
    (r.add m).editAll es = (r.add (es.foldl Machine.edited m), .done) := by
  -- The edges that are there and those still to come stay the same list all along.
  induction es generalizing m with
  | nil => rfl
  | cons e es ih =>
    obtain ⟨he, hes⟩ := List.forall_mem_cons.mp hown
    have hfree (t) (ht : e.transition? = some t) : m.edge? t.trigger t.current = none := by
      rw [List.filterMap_cons_some ht, List.map_append, List.map_cons] at hdet
      rw [Machine.edge?_eq_none_iff]
      intro hmem
      exact (List.nodup_append.mp hdet).2.2 _ hmem _ List.mem_cons_self rfl
    obtain ⟨reply, hedit, hreply⟩ := edit_add hnew he hfree
    have hrest := @ih (m.edited e) (by simpa using hnew) (by simpa using hes)
      (by rwa [Machine.transitions_edited])
    rw [editAll, hedit]
    cases reply with
    | refused error => exact absurd rfl (hreply error)
    | done => exact hrest
    | added => exact hrest
    | known => exact hrest

end Registry

structure Answers where
  targets : List Target
  target? : TargetId → Option Target
  transitionsFor : TargetId → List Transition
  actionsFor : TargetId → List ActionBinding

def Registry.answers (r : Registry) : Answers :=
  ⟨r.targets, r.target?, r.transitionsFor, r.actionsFor⟩

def RegistryTables.answers (s : RegistryTables) : Answers :=
  ⟨s.targets, s.target?, s.transitionsFor, s.actionsFor⟩

theorem RegistryTables.Represents.answers_eq {s : RegistryTables} {r : Registry}
    (h : s.Represents r) : s.answers = r.answers := by
  have hagrees := h.agrees
  simp only [RegistryTables.answers, Registry.answers, Answers.mk.injEq]
  exact ⟨hagrees.targets, funext hagrees.target, funext hagrees.transitions,
    funext hagrees.actions⟩

namespace Answers

def Free (a : Answers) (target : Target) : Prop :=
  ∀ t ∈ a.targets, t.name ≠ target.name ∧ t.id ≠ target.id

/-- One target came last, with the edges and the decisions of a blueprint, and all others are as
they were. -/
structure Gains (before after : Answers) (b : Blueprint) : Prop where
  listed : after.targets = before.targets ++ [b.target]
  found : after.target? b.target.id = some b.target
  transitions : after.transitionsFor b.target.id = b.transitions
  bindings : after.actionsFor b.target.id = b.bindings
  others : ∀ id, id ≠ b.target.id →
    after.target? id = before.target? id ∧ after.transitionsFor id = before.transitionsFor id ∧
      after.actionsFor id = before.actionsFor id

end Answers

/-- A request ends in one of two ways: the automaton is there and nothing else has changed, or its
target is a duplicate and nothing has changed at all. -/
def AllOrNothing {α : Type} (answers : α → Answers) (before : α) (b : Blueprint)
    (outcome : α × EditReply) : Prop :=
  ((answers before).Free b.target ∧ outcome.2 = .done ∧
      (answers before).Gains (answers outcome.1) b) ∨
    (¬ (answers before).Free b.target ∧
      outcome = (before, .refused (.duplicateTarget b.target.name b.target.id)))

namespace Registry

theorem free_iff {r : Registry} {target : Target} : r.answers.Free target ↔
    ∀ m ∈ r.machines, m.target.name ≠ target.name ∧ m.target.id ≠ target.id := by
  simp [answers, Answers.Free, targets]

theorem machine?_of_free {r : Registry} {target : Target} (h : r.answers.Free target) :
    r.machine? target.id = none :=
  List.find?_eq_none.mpr fun m hm => by simpa using (free_iff.mp h m hm).2

theorem register_of_not_free {r : Registry} {target : Target} (h : ¬ r.answers.Free target) :
    r.edit (.register target) = (r, .refused (.duplicateTarget target.name target.id)) := by
  rw [edit, register, if_pos]
  simpa [free_iff, imp_iff_not_or] using h

end Registry

theorem RegistryTables.register_of_not_free {s : RegistryTables} {target : Target}
    (h : ¬ s.answers.Free target) :
    s.edit (.register target) = (s, .refused (.duplicateTarget target.name target.id)) := by
  refine if_pos ?_
  simpa [answers, Answers.Free, imp_iff_not_or] using h

namespace Blueprint.WrittenBy

variable {b : Blueprint} {edits : List Edit} (h : b.WrittenBy edits)
include h

theorem editAll_of_free {r : Registry} (hfree : r.answers.Free b.target) :
    r.editAll edits = (r.add (.written b.target edits), .done) := by
  have hregister : r.register b.target = .ok (r.add (.new b.target)) :=
    Registry.register_eq_ok_iff.mpr ⟨Registry.free_iff.mp hfree, rfl⟩
  have hdet := h.deterministic
  rw [← h.transitions] at hdet
  rw [h.eq_cons] at hdet ⊢
  rw [Registry.editAll, Registry.edit, hregister]
  exact Registry.editAll_add (Registry.machine?_of_free hfree) h.own hdet

theorem actionsFor_eq {r : Registry}
    (hm : r.machine? b.target.id = some (.written b.target edits)) :
    r.actionsFor b.target.id = b.bindings := by
  refine Key.eq_of_mem_iff ActionBinding.state (r.actionsFor_sorted b.target.id) h.ascending ?_
  intro a
  rw [Registry.mem_actionsFor, Registry.decision?, hm, Option.bind_some, h.decisions_written]
  constructor
  · rintro ⟨ht, ha⟩
    rw [← ht] at ha
    exact ha
  · intro ha
    have ht := h.target_of_mem_bindings ha
    refine ⟨ht, ?_⟩
    rw [← ht]
    exact ha

theorem gains_of_free {r : Registry} (hfree : r.answers.Free b.target) :
    r.answers.Gains (r.add (.written b.target edits)).answers b := by
  have hself : (r.add (.written b.target edits)).machine? b.target.id =
      some (.written b.target edits) := by
    simp [Registry.machine?_add, Registry.machine?_of_free hfree]
  constructor
  · simp [Registry.answers, Registry.targets, Registry.add]
  · simp [Registry.answers, Registry.target?, hself]
  · simp [Registry.answers, Registry.transitionsFor, hself, h.transitions_written]
  · exact h.actionsFor_eq hself
  · intro id hid
    have hother : (r.add (.written b.target edits)).machine? id = r.machine? id := by
      simp [Registry.machine?_add, Ne.symm hid]
    simp [Registry.answers, Registry.target?, Registry.transitionsFor, Registry.actionsFor, hother]

theorem allOrNothing (r : Registry) : AllOrNothing Registry.answers r b (r.editAll edits) := by
  by_cases hfree : r.answers.Free b.target
  · rw [h.editAll_of_free hfree]
    exact .inl ⟨hfree, rfl, h.gains_of_free hfree⟩
  · refine .inr ⟨hfree, ?_⟩
    rw [h.eq_cons, Registry.editAll, Registry.register_of_not_free hfree]

/-- The tables do what the list of automata does; what is refused leaves every table as it is. -/
theorem allOrNothing_tables {s : RegistryTables} {r : Registry} (hr : s.Represents r) :
    AllOrNothing RegistryTables.answers s b (s.editAll edits) := by
  by_cases hfree : s.answers.Free b.target
  · obtain ⟨hafter, hreply⟩ := RegistryTables.Represents.editAll edits hr
    have hfree' : r.answers.Free b.target := hr.answers_eq ▸ hfree
    rw [h.editAll_of_free hfree'] at hafter hreply
    refine .inl ⟨hfree, hreply, ?_⟩
    rw [hr.answers_eq, hafter.answers_eq]
    exact h.gains_of_free hfree'
  · refine .inr ⟨hfree, ?_⟩
    rw [h.eq_cons, RegistryTables.editAll, RegistryTables.register_of_not_free hfree]

end Blueprint.WrittenBy

/-- The predefined automata are installed whole or refused, and nothing else changes. -/
theorem predefined_automata_install_whole_or_not_at_all (requests : List RegistryRequest) :
    AllOrNothing Registry.answers (Registry.after requests) Firewall.blueprint
        ((Registry.after requests).handle .installFirewall) ∧
      AllOrNothing Registry.answers (Registry.after requests) Balancer.blueprint
        ((Registry.after requests).handle .installBalancer) ∧
      AllOrNothing RegistryTables.answers (RegistryTables.after requests) Firewall.blueprint
        ((RegistryTables.after requests).handle .installFirewall) ∧
      AllOrNothing RegistryTables.answers (RegistryTables.after requests) Balancer.blueprint
        ((RegistryTables.after requests).handle .installBalancer) := by
  have hr : (RegistryTables.after requests).Represents (Registry.after requests) :=
    (RegistryTables.empty_represents.run requests).1
  exact ⟨Firewall.blueprint_writtenBy.allOrNothing _, Balancer.blueprint_writtenBy.allOrNothing _,
    Firewall.blueprint_writtenBy.allOrNothing_tables hr,
    Balancer.blueprint_writtenBy.allOrNothing_tables hr⟩

end StatefulPipeline
