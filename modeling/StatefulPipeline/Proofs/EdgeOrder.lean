import StatefulPipeline.Proofs.RegistryHistory

/-! Edges in any order. Whether an edge is accepted depends on those before it: a state and a
trigger lead where the first of them said, and a later one may only say it again. But a list of
edges is accepted as a whole exactly if it agrees with itself and with the registry, and then the
automata move along the edges that they had and those of the list; neither knows the order of the
list. -/

namespace StatefulPipeline

theorem Machine.edge?_addTransition (m : Machine) (t : Transition) (g : Trigger) (c : StateId) :
    (m.addTransition t).edge? g c =
      (m.edge? g c).or (if t.source = (g, c) then some t else none) := by
  by_cases h : t.source = (g, c) <;> simp [edge?_eq_find?, addTransition, h]

namespace Registry

def edgeRequests (ts : List Transition) : List RegistryRequest :=
  ts.map fun t => .edit (.addTransition t)

def withEdges (r : Registry) (ts : List Transition) : Registry := (r.run (edgeRequests ts)).1

def TakesAll (r : Registry) (ts : List Transition) : Prop :=
  ∀ reply ∈ (r.run (edgeRequests ts)).2, reply = .added ∨ reply = .known

instance (r : Registry) (ts : List Transition) : Decidable (r.TakesAll ts) :=
  inferInstanceAs (Decidable (∀ reply ∈ (r.run (edgeRequests ts)).2, _))

def Takes (r : Registry) (t : Transition) : Prop :=
  (r.edit (.addTransition t)).2 = .added ∨ (r.edit (.addTransition t)).2 = .known

theorem takesAll_cons {r : Registry} {t : Transition} {ts : List Transition} :
    r.TakesAll (t :: ts) ↔ r.Takes t ∧ (r.edit (.addTransition t)).1.TakesAll ts :=
  List.forall_mem_cons

theorem withEdges_cons (r : Registry) (t : Transition) (ts : List Transition) :
    r.withEdges (t :: ts) = (r.edit (.addTransition t)).1.withEdges ts := rfl

theorem takes_iff {r : Registry} {t : Transition} :
    r.Takes t ↔ r.target? t.target ≠ none ∧
      ∀ n, r.step t.target t.trigger t.current = some n → n = t.next := by
  rw [Takes, edit, addTransition, target?, step]
  cases hm : r.machine? t.target with
  | none => simp
  | some m =>
    cases he : m.edge? t.trigger t.current with
    | none => simp [he]
    | some u => by_cases hn : u.next = t.next <;> simp [he, hn]

/-- An edge that is taken joins those of its target, or it says again where they lead. -/
theorem Takes.cases {r : Registry} {t : Transition} (h : r.Takes t) :
    ∃ m, r.machine? t.target = some m ∧
      (m.edge? t.trigger t.current = none ∧
          (r.edit (.addTransition t)).1 = r.update t.target (fun m => m.addTransition t) ∨
        r.step t.target t.trigger t.current = some t.next ∧
          (r.edit (.addTransition t)).1 = r) := by
  have hend := r.editEnd (.addTransition t)
  rw [Takes] at h
  generalize (r.edit (.addTransition t)).1 = r' at hend
  generalize (r.edit (.addTransition t)).2 = reply at hend h
  cases hend with
  | refused => simp at h
  | @added _ m hm he => exact ⟨m, hm, .inl ⟨he, rfl⟩⟩
  | @known _ u m hm he hn => exact ⟨m, hm, .inr ⟨by simp [step, hm, he, hn], rfl⟩⟩

theorem Takes.target?_edit {r : Registry} {t : Transition} (h : r.Takes t) (id : TargetId) :
    (r.edit (.addTransition t)).1.target? id = r.target? id := by
  obtain ⟨m, hm, ⟨_, hr⟩ | ⟨_, hr⟩⟩ := h.cases
  · rw [hr, target?, target?, machine?_update r fun m => m.target_addTransition t]
    split_ifs
    · rw [Option.map_map]
      rfl
    · rfl
  · rw [hr]

/-- Once an edge is taken, its state and trigger lead along it and all others where they did. -/
theorem Takes.step_edit {r : Registry} {t : Transition} (h : r.Takes t) (id : TargetId)
    (g : Trigger) (c : StateId) :
    (r.edit (.addTransition t)).1.step id g c =
      if t.target = id ∧ t.source = (g, c) then some t.next else r.step id g c := by
  obtain ⟨m, hm, ⟨he, hr⟩ | ⟨hs, hr⟩⟩ := h.cases
  · rw [hr, step, step, machine?_update r fun m => m.target_addTransition t]
    by_cases hid : t.target = id
    · subst hid
      simp only [hm, if_true, Option.map_some, Machine.edge?_addTransition, true_and]
      by_cases hsource : t.source = (g, c)
      · obtain ⟨rfl, rfl⟩ := Prod.mk.inj hsource
        simp [he, hsource]
      · simp [hsource]
    · simp [hid]
  · rw [hr]
    split_ifs with hsite
    · obtain ⟨rfl, hsource⟩ := hsite
      obtain ⟨rfl, rfl⟩ := Prod.mk.inj hsource
      exact hs
    · rfl

/-- Edges that can all be there at once, together with those of the registry. -/
structure Compatible (r : Registry) (ts : List Transition) : Prop where
  registered : ∀ t ∈ ts, r.target? t.target ≠ none
  unopposed : ∀ t ∈ ts, ∀ n, r.step t.target t.trigger t.current = some n → n = t.next
  agreeing : ∀ t ∈ ts, ∀ u ∈ ts, t.target = u.target → t.source = u.source → t.next = u.next

theorem Compatible.of_subset {r : Registry} {ts us : List Transition} (h : r.Compatible ts)
    (hs : us ⊆ ts) : r.Compatible us where
  registered t ht := h.registered t (hs ht)
  unopposed t ht := h.unopposed t (hs ht)
  agreeing t ht u hu := h.agreeing t (hs ht) u (hs hu)

/-- The first edge is taken, and the others are compatible with what it leaves. -/
theorem compatible_cons_iff {r : Registry} {t : Transition} {ts : List Transition} :
    r.Compatible (t :: ts) ↔ r.Takes t ∧ (r.edit (.addTransition t)).1.Compatible ts := by
  constructor
  · intro h
    have ht : r.Takes t :=
      takes_iff.mpr ⟨h.registered t List.mem_cons_self, h.unopposed t List.mem_cons_self⟩
    have htail : r.Compatible ts := h.of_subset (List.subset_cons_self t ts)
    refine ⟨ht, ?_, ?_, htail.agreeing⟩
    · intro u hu
      rw [ht.target?_edit]
      exact htail.registered u hu
    · intro u hu n hn
      rw [ht.step_edit] at hn
      split_ifs at hn with hsite
      · obtain rfl := Option.some.inj hn
        exact h.agreeing t List.mem_cons_self u (List.mem_cons_of_mem t hu) hsite.1 hsite.2
      · exact htail.unopposed u hu n hn
  · rintro ⟨ht, htail⟩
    obtain ⟨hregistered, hunopposed⟩ := takes_iff.mp ht
    -- An edge of the tail with the site of the first was checked against the first.
    have hfirst (u) (hu : u ∈ ts) (htarget : t.target = u.target) (hsource : t.source = u.source) :
        t.next = u.next := by
      refine htail.unopposed u hu t.next ?_
      rw [ht.step_edit, if_pos ⟨htarget, hsource⟩]
    refine ⟨List.forall_mem_cons.mpr ⟨hregistered, ?_⟩,
      List.forall_mem_cons.mpr ⟨hunopposed, ?_⟩, ?_⟩
    · intro u hu
      rw [← ht.target?_edit]
      exact htail.registered u hu
    · intro u hu n hn
      by_cases hsite : t.target = u.target ∧ t.source = (u.trigger, u.current)
      · obtain ⟨htarget, hsource⟩ := hsite
        rw [← hfirst u hu htarget hsource]
        obtain ⟨hg, hc⟩ := Prod.mk.inj hsource
        rw [← htarget, ← hg, ← hc] at hn
        exact hunopposed n hn
      · refine htail.unopposed u hu n ?_
        rw [ht.step_edit, if_neg hsite]
        exact hn
    · intro u hu v hv htarget hsource
      rcases List.mem_cons.mp hu with rfl | hu'
      · rcases List.mem_cons.mp hv with rfl | hv'
        · rfl
        · exact hfirst v hv' htarget hsource
      · rcases List.mem_cons.mp hv with rfl | hv'
        · exact (hfirst u hu' htarget.symm hsource.symm).symm
        · exact htail.agreeing u hu' v hv' htarget hsource

theorem takesAll_iff {r : Registry} {ts : List Transition} : r.TakesAll ts ↔ r.Compatible ts := by
  induction ts generalizing r with
  | nil =>
    have htakes : r.TakesAll [] := by simp [TakesAll, edgeRequests, run]
    have hcompatible : r.Compatible [] := by constructor <;> simp
    exact iff_of_true htakes hcompatible
  | cons t ts ih => rw [takesAll_cons, ih, compatible_cons_iff]

theorem TakesAll.step_withEdges_iff {r : Registry} {ts : List Transition} (h : r.TakesAll ts)
    {id : TargetId} {g : Trigger} {c n : StateId} :
    (r.withEdges ts).step id g c = some n ↔ r.step id g c = some n ∨ ⟨id, g, c, n⟩ ∈ ts := by
  induction ts generalizing r with
  | nil => simp [withEdges, edgeRequests, run]
  | cons t ts ih =>
    obtain ⟨ht, htail⟩ := takesAll_cons.mp h
    have hstep : (r.edit (.addTransition t)).1.step id g c = some n ↔
        r.step id g c = some n ∨ ⟨id, g, c, n⟩ = t := by
      rw [ht.step_edit]
      split_ifs with hsite
      · obtain ⟨rfl, hsource⟩ := hsite
        obtain ⟨rfl, rfl⟩ := Prod.mk.inj hsource
        constructor
        · intro hn
          obtain rfl := Option.some.inj hn
          exact .inr rfl
        · rintro (hn | he)
          · rw [(takes_iff.mp ht).2 n hn]
          · rw [← he]
      · have hne : ⟨id, g, c, n⟩ ≠ t := by
          rintro rfl
          exact hsite ⟨rfl, rfl⟩
        simp [hne]
    rw [withEdges_cons, ih htail, hstep, List.mem_cons, or_assoc]

theorem WellFormed.mem_transitionsFor_iff {r : Registry} (h : r.WellFormed) {id : TargetId}
    {t : Transition} : t ∈ r.transitionsFor id ↔
      t.target = id ∧ r.step id t.trigger t.current = some t.next := by
  rw [h.step_eq_some_iff]
  constructor
  · intro ht
    obtain rfl := h.target_of_mem_transitionsFor ht
    exact ⟨rfl, ht⟩
  · rintro ⟨rfl, ht⟩
    exact ht

theorem WellFormed.transitionsFor_nodup {r : Registry} (h : r.WellFormed) (id : TargetId) :
    (r.transitionsFor id).Nodup := by
  rw [transitionsFor]
  cases hm : r.machine? id with
  | none => exact List.nodup_nil
  | some m => exact (h.machines m (h.machine?_eq_some_iff.mp hm).1).deterministic.of_map _

/-- Compatible edges, and only these, are accepted in every order, and then make one automaton. -/
theorem edges_in_any_order_make_one_automaton {r : Registry} (hr : r.Reachable)
    {ts us : List Transition} (hp : ts.Perm us) :
    (r.TakesAll ts ↔ r.TakesAll us) ∧
      (r.TakesAll ts ↔ r.Compatible ts) ∧
      (r.TakesAll ts → ∀ id,
        (∀ g c, (r.withEdges ts).step id g c = (r.withEdges us).step id g c) ∧
          (∀ g c n, (r.withEdges ts).step id g c = some n ↔
            r.step id g c = some n ∨ ⟨id, g, c, n⟩ ∈ ts) ∧
          ((r.withEdges ts).transitionsFor id).Perm ((r.withEdges us).transitionsFor id)) := by
  have hiff : r.TakesAll ts ↔ r.TakesAll us := by
    rw [takesAll_iff, takesAll_iff]
    exact ⟨fun h => h.of_subset hp.symm.subset, fun h => h.of_subset hp.subset⟩
  refine ⟨hiff, takesAll_iff, ?_⟩
  intro hts
  have hstep (id : TargetId) (g : Trigger) (c : StateId) :
      (r.withEdges ts).step id g c = (r.withEdges us).step id g c := by
    apply Option.ext
    intro n
    rw [hts.step_withEdges_iff, (hiff.mp hts).step_withEdges_iff, hp.mem_iff]
  have hw (vs : List Transition) : (r.withEdges vs).WellFormed :=
    run_preserves (fun r e hr => hr.edit e) (edgeRequests vs) r hr.wellFormed
  intro id
  refine ⟨hstep id, fun g c n => hts.step_withEdges_iff, ?_⟩
  refine (List.perm_ext_iff_of_nodup ((hw ts).transitionsFor_nodup id)
    ((hw us).transitionsFor_nodup id)).mpr fun t => ?_
  rw [(hw ts).mem_transitionsFor_iff, (hw us).mem_transitionsFor_iff, hstep]

/-- An edge that the firewall has, one that is new to it and comes twice, and one for the load
balancer. -/
def lateEdges : List Transition := [⟨1, 4, 1, 0⟩, ⟨1, 2, 0, 1⟩, ⟨2, 7, 0, 2⟩, ⟨1, 4, 1, 0⟩]

theorem lateEdges_in_any_order :
    defaults.TakesAll lateEdges ∧ defaults.TakesAll lateEdges.reverse ∧
      (defaults.withEdges lateEdges).step 1 4 1 = some 0 ∧
      (defaults.withEdges lateEdges.reverse).step 1 4 1 = some 0 ∧
      ¬ defaults.TakesAll (lateEdges ++ [⟨1, 4, 1, 3⟩]) ∧
      ¬ defaults.TakesAll (⟨1, 4, 1, 3⟩ :: lateEdges) := by
  obtain ⟨hiff, _, hsame⟩ := edges_in_any_order_make_one_automaton defaults_reachable
    (List.reverse_perm lateEdges).symm
  have htakes : defaults.TakesAll lateEdges := by decide
  have hstep : (defaults.withEdges lateEdges).step 1 4 1 = some 0 := by decide
  obtain ⟨hoppose, _⟩ := edges_in_any_order_make_one_automaton defaults_reachable
    (List.perm_append_singleton (⟨1, 4, 1, 3⟩ : Transition) lateEdges)
  have hrefused : ¬ defaults.TakesAll (lateEdges ++ [⟨1, 4, 1, 3⟩]) := by decide
  refine ⟨htakes, hiff.mp htakes, hstep, ?_, hrefused, fun h => hrefused (hoppose.mpr h)⟩
  rw [← (hsame htakes 1).1]
  exact hstep

end Registry
end StatefulPipeline
