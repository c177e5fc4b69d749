import StatefulPipeline.Proofs.RegistryRuns

/-! The registry in three tables that are kept apart: the targets in a list, a list of edges for
each id, and the decisions under pairs of an id and a state. An edit looks into one table to learn
whether a target is known and writes to another, and nothing but the edits ties the tables
together. Main statement: along every run the three tables stay consistent and answer as the list
of automata does. -/

namespace StatefulPipeline

/-- A registry whose three tables have keys of their own. -/
structure RegistryTables where
  targets : List Target
  edges : SortedMap TargetId (List Transition)
  decisions : SortedMap (TargetId × StateId) Decision
deriving DecidableEq

namespace RegistryTables

def empty : RegistryTables := ⟨[], .empty, .empty⟩

section Queries

variable (s : RegistryTables) (id : TargetId)

def target? : Option Target := s.targets.find? fun t => t.id = id

def transitionsFor : List Transition := (s.edges.get? id).getD []

/-- What is bound under the keys from the least to the greatest state of a target. -/
def actionsFor : List ActionBinding :=
  (s.decisions.range (id, 0) (id, 255)).map fun e => ⟨e.1.1, e.1.2, e.2⟩

def step (trigger : Trigger) (current : StateId) : Option StateId :=
  ((s.transitionsFor id).find? fun t => t.trigger = trigger ∧ t.current = current).map
    Transition.next

end Queries

/-- The list of targets tells whether the target is new; its list of edges is set anew. -/
def register (s : RegistryTables) (target : Target) : RegistryTables × EditReply :=
  if s.targets.any fun t => t.name = target.name ∨ t.id = target.id then
    (s, .refused (.duplicateTarget target.name target.id))
  else
    ({ s with targets := s.targets ++ [target], edges := s.edges.insert target.id [] }, .done)

/-- The table of edges tells whether the target is known. -/
def addTransition (s : RegistryTables) (t : Transition) : RegistryTables × EditReply :=
  match s.edges.get? t.target with
  | none => (s, .refused (.unknownTarget t.target))
  | some ts =>
    match ts.find? fun u => u.trigger = t.trigger ∧ u.current = t.current with
    | none => ({ s with edges := s.edges.insert t.target (ts ++ [t]) }, .added)
    | some existing =>
      if existing.next = t.next then (s, .known)
      else (s, .refused (.conflictingTransition t existing.next))

def bind (s : RegistryTables) (id : TargetId) (state : StateId) (decision : Decision) :
    RegistryTables × EditReply :=
  match s.target? id with
  | none => (s, .refused (.unknownTarget id))
  | some _ => ({ s with decisions := s.decisions.insert (id, state) decision }, .done)

def edit (s : RegistryTables) : Edit → RegistryTables × EditReply
  | .register target => s.register target
  | .addTransition t => s.addTransition t
  | .bind id state decision => s.bind id state decision

def editAll (s : RegistryTables) : List Edit → RegistryTables × EditReply
  | [] => (s, .done)
  | e :: es =>
    match s.edit e with
    | (s', .refused error) => (s', .refused error)
    | (s', _) => s'.editAll es

def handle (s : RegistryTables) : RegistryRequest → RegistryTables × EditReply
  | .edit e => s.edit e
  | .installFirewall => s.editAll Firewall.edits
  | .installBalancer => s.editAll Balancer.edits

def run (s : RegistryTables) : List RegistryRequest → RegistryTables × List EditReply
  | [] => (s, [])
  | q :: qs =>
    let (s₁, reply) := s.handle q
    let (s₂, replies) := s₁.run qs
    (s₂, reply :: replies)

/-- The tables hold what the automata hold. -/
structure Represents (s : RegistryTables) (r : Registry) : Prop where
  targets : s.targets = r.targets
  edges : ∀ id, s.edges.get? id = (r.machine? id).map Machine.transitions
  decisions : ∀ id state, s.decisions.get? (id, state) = r.decision? id state

theorem empty_represents : empty.Represents Registry.empty where
  targets := rfl
  edges _ := rfl
  decisions _ _ := rfl

namespace Represents

variable {s : RegistryTables} {r : Registry}

theorem target?_eq (h : s.Represents r) (id : TargetId) : s.target? id = r.target? id := by
  rw [target?, h.targets, Registry.targets, List.find?_map]
  rfl

theorem transitionsFor_eq (h : s.Represents r) (id : TargetId) :
    s.transitionsFor id = r.transitionsFor id := by
  rw [transitionsFor, h.edges, Registry.transitionsFor]
  cases r.machine? id <;> rfl

theorem step_eq (h : s.Represents r) (id : TargetId) (g : Trigger) (c : StateId) :
    s.step id g c = r.step id g c := by
  rw [step, h.transitionsFor_eq, Registry.step, Registry.transitionsFor]
  cases r.machine? id <;> rfl

theorem registered (h : s.Represents r) {target : Target} (hnew : r.machine? target.id = none) :
    Represents
      { s with targets := s.targets ++ [target], edges := s.edges.insert target.id [] }
      ⟨r.machines ++ [.new target]⟩ where
  targets := by simp [h.targets, Registry.targets, Machine.new]
  edges id := by
    rw [SortedMap.get?_insert, h.edges, Registry.machine?_register]
    by_cases hid : target.id = id
    · subst hid
      simp [hnew, Machine.new]
    · simp [hid]
  -- No decision waits for an id that is registered only now.
  decisions id state := by
    have hs := h.decisions id state
    rw [Registry.decision?] at hs ⊢
    rw [Registry.machine?_register, hs]
    by_cases hid : target.id = id
    · subst hid
      simp [hnew, Machine.new]
    · simp [hid]

theorem added (h : s.Represents r) {t : Transition} {m : Machine}
    (hm : r.machine? t.target = some m) :
    Represents { s with edges := s.edges.insert t.target (m.transitions ++ [t]) }
      (r.update t.target fun m => m.addTransition t) where
  targets := by
    rw [Registry.targets_update r fun m => m.target_addTransition t]
    exact h.targets
  edges id := by
    rw [SortedMap.get?_insert, h.edges,
      Registry.machine?_update r fun m => m.target_addTransition t]
    by_cases hid : t.target = id
    · subst hid
      simp [hm, Machine.addTransition]
    · simp [hid]
  decisions id state := by
    have hs := h.decisions id state
    rw [Registry.decision?] at hs ⊢
    rw [Registry.machine?_update r fun m => m.target_addTransition t, hs]
    by_cases hid : t.target = id
    · subst hid
      simp [hm, Machine.addTransition]
    · simp [hid]

theorem bound (h : s.Represents r) {id : TargetId} {m : Machine} (hm : r.machine? id = some m)
    (state : StateId) (decision : Decision) :
    Represents { s with decisions := s.decisions.insert (id, state) decision }
      (r.update id fun m => m.bind state decision) where
  targets := by
    rw [Registry.targets_update r fun m => m.target_bind state decision]
    exact h.targets
  edges id' := by
    rw [h.edges, Registry.machine?_update r fun m => m.target_bind state decision]
    by_cases hid : id = id'
    · subst hid
      simp [hm, Machine.bind]
    · simp [hid]
  decisions id' state' := by
    have hs := h.decisions id' state'
    rw [Registry.decision?] at hs ⊢
    rw [SortedMap.get?_insert, hs, Registry.machine?_update r fun m => m.target_bind state decision]
    by_cases hid : id = id'
    · subst hid
      simp [hm, Machine.bind]
    · simp [hid]

/-- An edit of the tables does what the edit of the automata does, and says the same. -/
theorem edit (h : s.Represents r) (e : Edit) :
    (s.edit e).1.Represents (r.edit e).1 ∧ (s.edit e).2 = (r.edit e).2 := by
  cases e with
  | register target =>
    have hany : (s.targets.any fun t => t.name = target.name ∨ t.id = target.id) =
        r.machines.any fun m => m.target.name = target.name ∨ m.target.id = target.id := by
      rw [h.targets, Registry.targets, List.any_map]
      rfl
    simp only [RegistryTables.edit, RegistryTables.register, Registry.edit, Registry.register, hany]
    split_ifs with hold
    · exact ⟨h, rfl⟩
    · refine ⟨h.registered ?_, rfl⟩
      simp only [List.any_eq_true, decide_eq_true_eq, not_exists, not_and, not_or] at hold
      rw [Registry.machine?, List.find?_eq_none]
      intro m hm
      simpa using (hold m hm).2
  | addTransition t =>
    simp only [RegistryTables.edit, RegistryTables.addTransition, Registry.edit,
      Registry.addTransition, h.edges]
    cases hm : r.machine? t.target with
    | none => exact ⟨h, rfl⟩
    | some m =>
      simp only [Option.map_some, Machine.edge?]
      cases m.transitions.find? fun u => u.trigger = t.trigger ∧ u.current = t.current with
      | none => exact ⟨h.added hm, rfl⟩
      | some u =>
        by_cases hn : u.next = t.next
        · simp [hn, h]
        · simp [hn, h]
  | bind id state decision =>
    simp only [RegistryTables.edit, RegistryTables.bind, Registry.edit, Registry.bind,
      h.target?_eq, Registry.target?]
    cases hm : r.machine? id with
    | none => exact ⟨h, rfl⟩
    | some m => exact ⟨h.bound hm state decision, rfl⟩

theorem editAll (es : List Edit) {s : RegistryTables} {r : Registry} (h : s.Represents r) :
    (s.editAll es).1.Represents (r.editAll es).1 ∧ (s.editAll es).2 = (r.editAll es).2 := by
  induction es generalizing s r with
  | nil => exact ⟨h, rfl⟩
  | cons e es ih =>
    obtain ⟨hr, hreply⟩ := h.edit e
    rw [RegistryTables.editAll, Registry.editAll]
    generalize s.edit e = p at hr hreply
    generalize r.edit e = q at hr hreply
    obtain ⟨s', reply⟩ := p
    obtain ⟨r', reply'⟩ := q
    obtain rfl : reply = reply' := hreply
    cases reply with
    | refused error => exact ⟨hr, rfl⟩
    | done => exact ih hr
    | added => exact ih hr
    | known => exact ih hr

theorem handle (h : s.Represents r) (q : RegistryRequest) :
    (s.handle q).1.Represents (r.handle q).1 ∧ (s.handle q).2 = (r.handle q).2 := by
  cases q with
  | edit e => exact h.edit e
  | installFirewall => exact editAll Firewall.edits h
  | installBalancer => exact editAll Balancer.edits h

theorem run (qs : List RegistryRequest) {s : RegistryTables} {r : Registry} (h : s.Represents r) :
    (s.run qs).1.Represents (r.run qs).1 ∧ (s.run qs).2 = (r.run qs).2 := by
  induction qs generalizing s r with
  | nil => exact ⟨h, rfl⟩
  | cons q qs ih =>
    obtain ⟨hr, hreply⟩ := h.handle q
    obtain ⟨hrun, hreplies⟩ := ih hr
    refine ⟨hrun, ?_⟩
    exact congrArg₂ List.cons hreply hreplies

end Represents

theorem between_states_iff {k : TargetId × StateId} {id : TargetId} :
    (Key.before k (id, 0) = false ∧ Key.before (id, 255) k = false) ↔ k.1 = id := by
  have hlow : Key.before k.2 (0 : StateId) = false := by simp [Key.before]
  have hhigh : Key.before (255 : StateId) k.2 = false := by
    have := k.2.toNat_lt
    simp only [Key.before, decide_eq_false_iff_not, Nat.not_lt]
    exact Nat.le_of_lt_succ this
  simp only [← Bool.not_eq_true]
  change (¬ Key.pairBefore k (id, 0) = true ∧ ¬ Key.pairBefore (id, 255) k = true) ↔ _
  rw [Key.pairBefore_iff, Key.pairBefore_iff]
  simp only [hlow, hhigh, Bool.false_eq_true, and_false, or_false, Bool.not_eq_true]
  constructor
  · rintro ⟨h₁, h₂⟩
    exact Key.linear h₁ h₂
  · rintro rfl
    exact ⟨Key.irrefl _, Key.irrefl _⟩

theorem mem_actionsFor {s : RegistryTables} {id : TargetId} {b : ActionBinding} :
    b ∈ s.actionsFor id ↔
      b.target = id ∧ s.decisions.get? (id, b.state) = some b.decision := by
  obtain ⟨target, state, decision⟩ := b
  simp only [actionsFor, List.mem_map, SortedMap.mem_range, between_states_iff,
    SortedMap.get?_eq_some_iff]
  constructor
  · rintro ⟨⟨⟨t, st⟩, d⟩, ⟨hm, hid⟩, he⟩
    obtain ⟨rfl, rfl, rfl⟩ := ActionBinding.mk.inj he
    exact ⟨hid, hid ▸ hm⟩
  · rintro ⟨rfl, hm⟩
    exact ⟨((target, state), decision), ⟨hm, rfl⟩, rfl⟩

theorem actionsFor_sorted (s : RegistryTables) (id : TargetId) :
    (s.actionsFor id).Pairwise fun a b => Key.before a.state b.state = true := by
  rw [actionsFor, List.pairwise_map]
  refine (s.decisions.range_sorted (id, 0) (id, 255)).imp_of_mem ?_
  intro a b ha hb hab
  have ha' : a.1.1 = id := between_states_iff.mp (SortedMap.mem_range.mp ha).2
  have hb' : b.1.1 = id := between_states_iff.mp (SortedMap.mem_range.mp hb).2
  rcases Key.pairBefore_iff.mp hab with h | ⟨_, h⟩
  · rw [ha', hb', Key.irrefl] at h
    exact absurd h (by simp)
  · exact h

structure Agrees (s : RegistryTables) (r : Registry) : Prop where
  targets : s.targets = r.targets
  target : ∀ id, s.target? id = r.target? id
  transitions : ∀ id, s.transitionsFor id = r.transitionsFor id
  actions : ∀ id, s.actionsFor id = r.actionsFor id
  step : ∀ id g c, s.step id g c = r.step id g c

/-- What the three tables have to say of one another. -/
structure Consistent (s : RegistryTables) : Prop where
  names : (s.targets.map Target.name).Nodup
  ids : (s.targets.map Target.id).Nodup
  listed : ∀ id, (∃ ts, s.edges.get? id = some ts) ↔ ∃ t ∈ s.targets, t.id = id
  owned : ∀ id, ∀ t ∈ s.transitionsFor id, t.target = id
  deterministic : ∀ id, (s.transitionsFor id).Pairwise fun t u =>
    ¬ (t.trigger = u.trigger ∧ t.current = u.current)
  bound : ∀ id state decision, s.decisions.get? (id, state) = some decision →
    ∃ t ∈ s.targets, t.id = id

theorem edit_eq_of_refused {s : RegistryTables} {e : Edit} {error : RegistryError}
    (h : (s.edit e).2 = .refused error) : (s.edit e).1 = s := by
  revert h
  cases e with
  | register target =>
    rw [edit, register]
    split
    · exact fun _ => rfl
    · exact fun h => nomatch h
  | addTransition t =>
    rw [edit, addTransition]
    split
    · exact fun _ => rfl
    · split
      · exact fun h => nomatch h
      · split
        · exact fun _ => rfl
        · exact fun _ => rfl
  | bind id state decision =>
    rw [edit, bind]
    split
    · exact fun _ => rfl
    · exact fun h => nomatch h

namespace Represents

variable {s : RegistryTables} {r : Registry}

theorem agrees (h : s.Represents r) : s.Agrees r where
  targets := h.targets
  target := h.target?_eq
  transitions := h.transitionsFor_eq
  actions id := by
    refine Key.eq_of_mem_iff ActionBinding.state (s.actionsFor_sorted id)
      (r.actionsFor_sorted id) ?_
    intro b
    rw [RegistryTables.mem_actionsFor, Registry.mem_actionsFor, h.decisions]
  step := h.step_eq

theorem exists_target_iff (h : s.Represents r) {id : TargetId} :
    (∃ t ∈ s.targets, t.id = id) ↔ ∃ m, r.machine? id = some m := by
  rw [← Option.isSome_iff_exists, Registry.machine?, List.find?_isSome, h.targets,
    Registry.targets]
  simp

theorem consistent (h : s.Represents r) (hw : r.WellFormed) : s.Consistent where
  names := by
    rw [h.targets, Registry.targets, List.map_map]
    exact hw.names
  ids := by
    rw [h.targets, Registry.targets, List.map_map]
    exact hw.ids
  listed id := by
    rw [h.exists_target_iff, h.edges]
    cases r.machine? id <;> simp
  owned id t ht := by
    rw [h.transitionsFor_eq] at ht
    exact hw.target_of_mem_transitionsFor ht
  deterministic id := by
    rw [h.transitionsFor_eq, Registry.transitionsFor]
    cases hm : r.machine? id with
    | none => exact .nil
    | some m =>
      have hd := (hw.machines m (hw.machine?_eq_some_iff.mp hm).1).deterministic
      refine (List.pairwise_map.mp hd).imp ?_
      rintro t u hne ⟨hg, hc⟩
      exact hne (Prod.ext hg hc)
  bound id state decision hd := by
    rw [h.exists_target_iff]
    rw [h.decisions, Registry.decision?] at hd
    obtain ⟨m, hm, _⟩ := Option.bind_eq_some_iff.mp hd
    exact ⟨m, hm⟩

end Represents

def after (requests : List RegistryRequest) : RegistryTables := (empty.run requests).1

/-- Three tables with keys of their own stay consistent and answer as the list of automata. -/
theorem registry_tables_stay_consistent (requests : List RegistryRequest) :
    (after requests).Consistent ∧
      (after requests).Agrees (Registry.after requests) ∧
      (empty.run requests).2 = (Registry.empty.run requests).2 ∧
      (∀ e, ((after requests).edit e).2 = ((Registry.after requests).edit e).2) ∧
      (∀ e error, ((after requests).edit e).2 = .refused error →
        ((after requests).edit e).1 = after requests ∧
          ((Registry.after requests).edit e).1 = Registry.after requests) ∧
      (∀ t id, ((after requests).edit (.addTransition t)).2 = .refused (.unknownTarget id) ↔
        t.target = id ∧ (after requests).target? id = none) ∧
      (∀ t state decision id,
        ((after requests).edit (.bind t state decision)).2 = .refused (.unknownTarget id) ↔
          t = id ∧ (after requests).target? id = none) := by
  obtain ⟨h, hreplies⟩ := empty_represents.run requests
  have hagrees : (after requests).Agrees (Registry.after requests) := h.agrees
  have hw : (Registry.after requests).WellFormed := Registry.Reachable.wellFormed ⟨requests, rfl⟩
  have hreply (e : Edit) : ((after requests).edit e).2 = ((Registry.after requests).edit e).2 :=
    (h.edit e).2
  refine ⟨h.consistent hw, hagrees, hreplies, hreply, ?_, ?_, ?_⟩
  · intro e error he
    refine ⟨edit_eq_of_refused he, ?_⟩
    rw [hreply] at he
    exact Registry.edit_eq_of_refused he
  · intro t id
    rw [hreply, hagrees.target]
    exact Registry.addTransition_unknown_iff
  · intro t state decision id
    rw [hreply, hagrees.target]
    exact Registry.bind_unknown_iff

/-- A second name for the firewall's id, a decision for an id that nobody has, and the firewall once
more. -/
def reclaimed : List RegistryRequest :=
  [.installFirewall, .edit (.register ⟨"fw", 1, Name.lookupByNothing⟩), .edit (.bind 9 0 .drop),
    .installFirewall]

theorem reclaimed_consistent :
    (empty.run reclaimed).2 =
        [.done, .refused (.duplicateTarget "fw" 1), .refused (.unknownTarget 9),
          .refused (.duplicateTarget "sfw" 1)] ∧
      (after reclaimed).Consistent ∧
      ((after reclaimed).edit (.addTransition ⟨1, 2, 0, 5⟩)).2 =
        .refused (.conflictingTransition ⟨1, 2, 0, 5⟩ 1) ∧
      ((after reclaimed).edit (.addTransition ⟨1, 2, 0, 5⟩)).1 = after reclaimed ∧
      ((after reclaimed).edit (.bind 9 0 .drop)).2 = .refused (.unknownTarget 9) := by
  obtain ⟨hconsistent, _, _, _, hrefused, _, hbind⟩ := registry_tables_stay_consistent reclaimed
  have hconflict : ((after reclaimed).edit (.addTransition ⟨1, 2, 0, 5⟩)).2 =
      .refused (.conflictingTransition ⟨1, 2, 0, 5⟩ 1) := by decide
  have hunknown := (hbind 9 0 .drop 9).mpr ⟨rfl, by decide⟩
  exact ⟨by decide, hconsistent, hconflict, (hrefused _ _ hconflict).1, hunknown⟩

end RegistryTables
end StatefulPipeline
