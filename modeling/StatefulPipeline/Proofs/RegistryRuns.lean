import Mathlib.Data.List.Nodup
import StatefulPipeline.Predefined
import StatefulPipeline.Proofs.SortedMaps

/-! Registries that edits can reach. What an edit preserves is preserved by the predefined
automata and by every list of requests, since these are nothing but edits. The invariant: names
and ids tell targets apart, an edge stands with its own target, and a state and a trigger have one
edge at most; so a step of the automaton and an edge in its list are the same thing. -/

namespace StatefulPipeline

theorem find?_key_eq_some_iff {α κ : Type} [DecidableEq κ] (key : α → κ) {as : List α}
    (h : (as.map key).Nodup) {k : κ} {a : α} :
    as.find? (fun b => key b = k) = some a ↔ a ∈ as ∧ key a = k := by
  constructor
  · intro hf
    exact ⟨List.mem_of_find?_eq_some hf, by simpa using List.find?_some hf⟩
  · rintro ⟨ha, rfl⟩
    cases hf : as.find? (fun b => key b = key a) with
    | none => simpa using List.find?_eq_none.mp hf a ha
    | some b =>
      have hb : key b = key a := by simpa using List.find?_some hf
      rw [List.inj_on_of_nodup_map h (List.mem_of_find?_eq_some hf) ha hb]

def Transition.source (t : Transition) : Trigger × StateId := (t.trigger, t.current)

namespace Machine

/-- Every edge belongs to the target, and no two leave one state on one trigger. -/
structure WellFormed (m : Machine) : Prop where
  owned : ∀ t ∈ m.transitions, t.target = m.target.id
  deterministic : (m.transitions.map Transition.source).Nodup

theorem edge?_eq_find? (m : Machine) (g : Trigger) (c : StateId) :
    m.edge? g c = m.transitions.find? fun t => t.source = (g, c) := by
  simp [edge?, Transition.source]

theorem edge?_eq_none_iff {m : Machine} {g : Trigger} {c : StateId} :
    m.edge? g c = none ↔ (g, c) ∉ m.transitions.map Transition.source := by
  simp [edge?_eq_find?]

@[simp] theorem target_addTransition (m : Machine) (t : Transition) :
    (m.addTransition t).target = m.target := rfl

@[simp] theorem target_bind (m : Machine) (state : StateId) (decision : Decision) :
    (m.bind state decision).target = m.target := rfl

theorem new_wellFormed (target : Target) : (new target).WellFormed := by
  constructor <;> simp [new]

namespace WellFormed

variable {m : Machine}

theorem edge?_eq_some_iff (h : m.WellFormed) {g : Trigger} {c : StateId} {t : Transition} :
    m.edge? g c = some t ↔ t ∈ m.transitions ∧ t.source = (g, c) := by
  rw [edge?_eq_find?]
  exact find?_key_eq_some_iff Transition.source h.deterministic

theorem addTransition (h : m.WellFormed) {t : Transition} (ht : t.target = m.target.id)
    (hnew : m.edge? t.trigger t.current = none) : (m.addTransition t).WellFormed where
  owned u hu := by
    rcases List.mem_append.mp hu with hu | hu
    · exact h.owned u hu
    · rw [List.mem_singleton.mp hu]
      exact ht
  deterministic := by
    have hs : t.source ∉ m.transitions.map Transition.source := edge?_eq_none_iff.mp hnew
    simp only [Machine.addTransition, List.map_append, List.map_cons, List.map_nil]
    refine List.Nodup.append h.deterministic (List.nodup_singleton _) ?_
    exact List.disjoint_singleton.mpr hs

theorem bind (h : m.WellFormed) (state : StateId) (decision : Decision) :
    (m.bind state decision).WellFormed :=
  ⟨h.owned, h.deterministic⟩

end WellFormed
end Machine

namespace Registry

/-- Names and ids are told apart, and every automaton is well-formed. -/
structure WellFormed (r : Registry) : Prop where
  names : (r.machines.map fun m => m.target.name).Nodup
  ids : (r.machines.map fun m => m.target.id).Nodup
  machines : ∀ m ∈ r.machines, m.WellFormed

theorem empty_wellFormed : empty.WellFormed := by
  constructor <;> simp [empty]

theorem WellFormed.machine?_eq_some_iff {r : Registry} (h : r.WellFormed) {id : TargetId}
    {m : Machine} : r.machine? id = some m ↔ m ∈ r.machines ∧ m.target.id = id :=
  find?_key_eq_some_iff (fun m : Machine => m.target.id) h.ids

theorem register_eq_ok_iff {r r' : Registry} {target : Target} :
    r.register target = .ok r' ↔
      (∀ m ∈ r.machines, m.target.name ≠ target.name ∧ m.target.id ≠ target.id) ∧
        r' = ⟨r.machines ++ [.new target]⟩ := by
  unfold register
  split_ifs with h
  · simp only [List.any_eq_true, decide_eq_true_eq] at h
    obtain ⟨m, hm, hd⟩ := h
    simp only [false_iff, not_and]
    intro hall
    exact absurd hd (not_or.mpr (hall m hm))
  · simp only [List.any_eq_true, decide_eq_true_eq, not_exists, not_and, not_or] at h
    simp only [Except.ok.injEq, and_iff_right h]
    exact eq_comm

theorem addTransition_eq_ok_iff {r r' : Registry} {t : Transition} {new : Bool} :
    r.addTransition t = .ok (r', new) ↔
      ∃ m, r.machine? t.target = some m ∧
        (m.edge? t.trigger t.current = none ∧ new = true ∧
            r' = r.update t.target (fun m => m.addTransition t) ∨
          (∃ u, m.edge? t.trigger t.current = some u ∧ u.next = t.next) ∧ new = false ∧
            r' = r) := by
  unfold addTransition
  cases hm : r.machine? t.target with
  | none => simp
  | some m =>
    cases he : m.edge? t.trigger t.current with
    | none => simp [he, eq_comm, and_comm]
    | some u =>
      by_cases hn : u.next = t.next
      · simp [he, hn, eq_comm, and_comm]
      · simp [he, hn]

theorem bind_eq_ok_iff {r r' : Registry} {id : TargetId} {state : StateId} {decision : Decision} :
    r.bind id state decision = .ok r' ↔
      (∃ m, r.machine? id = some m) ∧ r' = r.update id (fun m => m.bind state decision) := by
  unfold bind
  cases r.machine? id with
  | none => simp
  | some m => simp [eq_comm]

namespace WellFormed

variable {r r' : Registry}

theorem register (h : r.WellFormed) {target : Target} (hr : r.register target = .ok r') :
    r'.WellFormed := by
  obtain ⟨hnew, rfl⟩ := register_eq_ok_iff.mp hr
  constructor
  · simp only [List.map_append, List.map_cons, List.map_nil]
    refine List.Nodup.append h.names (List.nodup_singleton _) (List.disjoint_singleton.mpr ?_)
    intro hm
    obtain ⟨m, hm, he⟩ := List.mem_map.mp hm
    exact (hnew m hm).1 he
  · simp only [List.map_append, List.map_cons, List.map_nil]
    refine List.Nodup.append h.ids (List.nodup_singleton _) (List.disjoint_singleton.mpr ?_)
    intro hm
    obtain ⟨m, hm, he⟩ := List.mem_map.mp hm
    exact (hnew m hm).2 he
  · intro m hm
    rcases List.mem_append.mp hm with hm | hm
    · exact h.machines m hm
    · rw [List.mem_singleton.mp hm]
      exact Machine.new_wellFormed target

theorem update (h : r.WellFormed) {id : TargetId} {f : Machine → Machine}
    (ht : ∀ m, (f m).target = m.target)
    (hf : ∀ m, r.machine? id = some m → (f m).WellFormed) : (r.update id f).WellFormed := by
  have hk (m : Machine) : (if m.target.id = id then f m else m).target = m.target := by
    split_ifs with hid
    · exact ht m
    · rfl
  constructor
  · simpa [Registry.update, List.map_map, Function.comp_def, hk] using h.names
  · simpa [Registry.update, List.map_map, Function.comp_def, hk] using h.ids
  · intro m' hm'
    obtain ⟨m, hm, rfl⟩ := List.mem_map.mp hm'
    split_ifs with hid
    · exact hf m (h.machine?_eq_some_iff.mpr ⟨hm, hid⟩)
    · exact h.machines m hm

theorem addTransition (h : r.WellFormed) {t : Transition} {new : Bool}
    (hr : r.addTransition t = .ok (r', new)) : r'.WellFormed := by
  obtain ⟨m, hm, ⟨he, _, rfl⟩ | ⟨_, _, rfl⟩⟩ := addTransition_eq_ok_iff.mp hr
  · refine h.update (fun _ => rfl) fun n hn => ?_
    obtain rfl : m = n := Option.some.inj (hm.symm.trans hn)
    obtain ⟨hmem, hid⟩ := h.machine?_eq_some_iff.mp hm
    exact (h.machines m hmem).addTransition hid.symm he
  · exact h

theorem bind (h : r.WellFormed) {id : TargetId} {state : StateId} {decision : Decision}
    (hr : r.bind id state decision = .ok r') : r'.WellFormed := by
  obtain ⟨_, rfl⟩ := bind_eq_ok_iff.mp hr
  refine h.update (fun _ => rfl) fun m hm => ?_
  exact (h.machines m (h.machine?_eq_some_iff.mp hm).1).bind state decision

theorem edit (h : r.WellFormed) (e : Edit) : (r.edit e).1.WellFormed := by
  cases e with
  | register target =>
    cases hr : r.register target with
    | error e => simpa [Registry.edit, hr] using h
    | ok r' => simpa [Registry.edit, hr] using h.register hr
  | addTransition t =>
    cases hr : r.addTransition t with
    | error e => simpa [Registry.edit, hr] using h
    | ok p => simpa [Registry.edit, hr] using h.addTransition hr
  | bind id state decision =>
    cases hr : r.bind id state decision with
    | error e => simpa [Registry.edit, hr] using h
    | ok r' => simpa [Registry.edit, hr] using h.bind hr

end WellFormed

section Runs

variable {P : Registry → Prop} (step : ∀ r e, P r → P (r.edit e).1)
include step

theorem editAll_preserves (es : List Edit) (r : Registry) (h : P r) : P (r.editAll es).1 := by
  induction es generalizing r with
  | nil => exact h
  | cons e es ih =>
    have he := step r e h
    rw [editAll]
    generalize r.edit e = p at he
    obtain ⟨r', reply⟩ := p
    cases reply with
    | refused error => exact he
    | done => exact ih r' he
    | added => exact ih r' he
    | known => exact ih r' he

theorem handle_preserves (q : RegistryRequest) (r : Registry) (h : P r) : P (r.handle q).1 := by
  cases q with
  | edit e => exact step r e h
  | installFirewall => exact editAll_preserves step Firewall.edits r h
  | installBalancer => exact editAll_preserves step Balancer.edits r h

/-- What every edit preserves, every run preserves. -/
theorem run_preserves (qs : List RegistryRequest) (r : Registry) (h : P r) : P (r.run qs).1 := by
  induction qs generalizing r with
  | nil => exact h
  | cons q qs ih => exact ih (r.handle q).1 (handle_preserves step q r h)

end Runs

def after (requests : List RegistryRequest) : Registry := (empty.run requests).1

/-- Some list of requests makes the registry out of the empty one. -/
def Reachable (r : Registry) : Prop := ∃ requests, (empty.run requests).1 = r

theorem defaults_reachable : defaults.Reachable := ⟨[.installFirewall, .installBalancer], rfl⟩

theorem Reachable.wellFormed {r : Registry} (h : r.Reachable) : r.WellFormed := by
  obtain ⟨requests, rfl⟩ := h
  exact run_preserves (fun r e hr => hr.edit e) requests empty empty_wellFormed

namespace WellFormed

variable {r : Registry}

theorem target?_of_named (h : r.WellFormed) {name : String} {target : Target}
    (ht : r.targetNamed? name = some target) :
    target.name = name ∧ r.target? target.id = some target := by
  obtain ⟨m, hm, rfl⟩ := Option.map_eq_some_iff.mp ht
  have hid : r.machine? m.target.id = some m :=
    h.machine?_eq_some_iff.mpr ⟨List.mem_of_find?_eq_some hm, rfl⟩
  refine ⟨by simpa using List.find?_some hm, ?_⟩
  rw [target?, hid, Option.map_some]

theorem target_of_mem_transitionsFor (h : r.WellFormed) {id : TargetId} {t : Transition}
    (ht : t ∈ r.transitionsFor id) : t.target = id := by
  unfold transitionsFor at ht
  cases hm : r.machine? id with
  | none => simp [hm] at ht
  | some m =>
    obtain ⟨hmem, hid⟩ := h.machine?_eq_some_iff.mp hm
    rw [hm] at ht
    exact ((h.machines m hmem).owned t ht).trans hid

theorem step_eq_some_iff (h : r.WellFormed) {id : TargetId} {g : Trigger} {c n : StateId} :
    r.step id g c = some n ↔ ⟨id, g, c, n⟩ ∈ r.transitionsFor id := by
  unfold Registry.step transitionsFor
  cases hm : r.machine? id with
  | none => simp
  | some m =>
    obtain ⟨hmem, hid⟩ := h.machine?_eq_some_iff.mp hm
    have hw := h.machines m hmem
    simp only [Option.map_eq_some_iff, hw.edge?_eq_some_iff, Transition.source, Prod.mk.injEq]
    constructor
    · rintro ⟨t, ⟨ht, rfl, rfl⟩, rfl⟩
      obtain rfl : t.target = id := (hw.owned t ht).trans hid
      exact ht
    · intro ht
      exact ⟨_, ⟨ht, rfl, rfl⟩, rfl⟩

end WellFormed

def decision? (r : Registry) (id : TargetId) (state : StateId) : Option Decision :=
  (r.machine? id).bind fun m => m.decisions.get? state

theorem mem_actionsFor {r : Registry} {id : TargetId} {b : ActionBinding} :
    b ∈ r.actionsFor id ↔ b.target = id ∧ r.decision? id b.state = some b.decision := by
  obtain ⟨target, state, decision⟩ := b
  unfold actionsFor decision?
  cases r.machine? id with
  | none => simp
  | some m =>
    simp only [List.mem_map, Option.bind_some, SortedMap.get?_eq_some_iff]
    constructor
    · rintro ⟨⟨s, a⟩, hm, he⟩
      obtain ⟨rfl, rfl, rfl⟩ := ActionBinding.mk.inj he
      exact ⟨rfl, hm⟩
    · rintro ⟨rfl, hm⟩
      exact ⟨(state, decision), hm, rfl⟩

theorem actionsFor_sorted (r : Registry) (id : TargetId) :
    (r.actionsFor id).Pairwise fun a b => Key.before a.state b.state = true := by
  unfold actionsFor
  cases r.machine? id with
  | none => exact .nil
  | some m => exact List.pairwise_map.mpr m.decisions.sorted

/-! What an edit does to the automaton of each target. -/

theorem machine?_register (r : Registry) (target : Target) (id : TargetId) :
    (⟨r.machines ++ [.new target]⟩ : Registry).machine? id =
      (r.machine? id).or (if target.id = id then some (.new target) else none) := by
  by_cases h : target.id = id <;> simp [machine?, Machine.new, h]

section Update

variable (r : Registry) {f : Machine → Machine} (ht : ∀ m, (f m).target = m.target)
  (id : TargetId)
include ht

theorem target_update (m : Machine) : (if m.target.id = id then f m else m).target = m.target := by
  split_ifs
  · exact ht m
  · rfl

theorem targets_update : (r.update id f).targets = r.targets := by
  simp [targets, update, Function.comp_def, target_update ht]

theorem machine?_update (id' : TargetId) :
    (r.update id f).machine? id' =
      if id = id' then (r.machine? id').map f else r.machine? id' := by
  simp only [machine?, update, List.find?_map, Function.comp_def, target_update ht]
  cases hm : r.machines.find? fun m => m.target.id = id' with
  | none => simp
  | some m =>
    have hid : m.target.id = id' := by simpa using List.find?_some hm
    by_cases h : id = id'
    · simp [h, hid]
    · simp [h, hid, Ne.symm h]

end Update

theorem target?_eq_none_iff {r : Registry} {id : TargetId} :
    r.target? id = none ↔ r.machine? id = none :=
  Option.map_eq_none_iff

/-- An edit that is refused changes nothing. -/
theorem edit_eq_of_refused {r : Registry} {e : Edit} {error : RegistryError}
    (h : (r.edit e).2 = .refused error) : (r.edit e).1 = r := by
  cases e with
  | register target =>
    cases hr : r.register target with
    | error e => simp [edit, hr]
    | ok r' => simp [edit, hr] at h
  | addTransition t =>
    cases hr : r.addTransition t with
    | error e => simp [edit, hr]
    | ok p =>
      obtain ⟨r', new⟩ := p
      cases new <;> simp [edit, hr] at h
  | bind id state decision =>
    cases hr : r.bind id state decision with
    | error e => simp [edit, hr]
    | ok r' => simp [edit, hr] at h

theorem addTransition_unknown_iff {r : Registry} {t : Transition} {id : TargetId} :
    (r.edit (.addTransition t)).2 = .refused (.unknownTarget id) ↔
      t.target = id ∧ r.target? id = none := by
  rw [target?_eq_none_iff, edit, addTransition]
  cases hm : r.machine? t.target with
  | none =>
    constructor
    · intro h
      obtain rfl : t.target = id := by simpa using h
      exact ⟨rfl, hm⟩
    · rintro ⟨rfl, _⟩
      rfl
  | some m =>
    have hknown : ¬ (t.target = id ∧ r.machine? id = none) := by
      rintro ⟨rfl, hnone⟩
      exact absurd (hm.symm.trans hnone) (by simp)
    simp only [hknown, iff_false]
    cases m.edge? t.trigger t.current with
    | none => simp
    | some u => by_cases hn : u.next = t.next <;> simp [hn]

theorem bind_unknown_iff {r : Registry} {id id' : TargetId} {state : StateId}
    {decision : Decision} :
    (r.edit (.bind id state decision)).2 = .refused (.unknownTarget id') ↔
      id = id' ∧ r.target? id' = none := by
  rw [target?_eq_none_iff, edit, bind]
  cases hm : r.machine? id with
  | none =>
    constructor
    · intro h
      obtain rfl : id = id' := by simpa using h
      exact ⟨rfl, hm⟩
    · rintro ⟨rfl, _⟩
      rfl
  | some m =>
    have hknown : ¬ (id = id' ∧ r.machine? id' = none) := by
      rintro ⟨rfl, hnone⟩
      exact absurd (hm.symm.trans hnone) (by simp)
    simp [hknown]

end Registry
end StatefulPipeline
