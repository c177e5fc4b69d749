import Mathlib.Order.Bounds.Defs
import StatefulPipeline.Proofs.StateTransfer

/-! The compiled firewall follows the phases of a connection. Its automaton counts the letters of a
fixed word: the letter that is due moves it on by one state, and every other trigger leaves it. So
it takes each letter at the first chance, and taking letters greedily spells as much of a word as
can be spelled; its state is the length of the longest prefix of the word that occurs, with gaps,
among the triggers. -/

namespace StatefulPipeline

section Spelling

variable {α : Type} [DecidableEq α]

/-- How many letters of a word a list spells, if each letter is taken at its first chance. -/
def spelled : (word list : List α) → Nat
  | _, [] => 0
  | [], _ :: _ => 0
  | a :: word, x :: xs => if a = x then spelled word xs + 1 else spelled (a :: word) xs

theorem spelled_nil (list : List α) : spelled [] list = 0 := by
  cases list <;> rfl

theorem spelled_le (word list : List α) : spelled word list ≤ word.length := by
  induction list generalizing word with
  | nil => simp [spelled]
  | cons x xs ih =>
    cases word with
    | nil => simp [spelled]
    | cons a word =>
      rw [spelled]
      split_ifs
      · exact Nat.succ_le_succ (ih word)
      · exact ih (a :: word)

/-- Taking letters greedily loses nothing: a prefix occurs exactly if it is not longer than what is
spelled. -/
theorem take_sublist_iff {word list : List α} {k : Nat} (hk : k ≤ word.length) :
    (word.take k).Sublist list ↔ k ≤ spelled word list := by
  induction list generalizing word k with
  | nil => cases word <;> cases k <;> simp_all [spelled]
  | cons x xs ih =>
    cases word with
    | nil => simp_all [spelled]
    | cons a word =>
      cases k with
      | zero => simp
      | succ k =>
        have hk' : k ≤ word.length := Nat.le_of_succ_le_succ hk
        rw [List.take_succ_cons, spelled]
        split_ifs with hax
        · subst hax
          rw [List.cons_sublist_cons, ih hk']
          exact Nat.succ_le_succ_iff.symm
        · rw [List.cons_sublist_cons', ← ih hk, List.take_succ_cons]
          simp [hax]

theorem isGreatest_spelled (word list : List α) :
    IsGreatest {k | k ≤ word.length ∧ (word.take k).Sublist list} (spelled word list) := by
  constructor
  · exact ⟨spelled_le word list, (take_sublist_iff (spelled_le word list)).mpr (Nat.le_refl _)⟩
  · rintro k ⟨hk, hsub⟩
    exact (take_sublist_iff hk).mp hsub

/-- Either the letter that is due after `n` letters comes first, or the list goes on without it. -/
theorem spelled_drop_cons (word : List α) (n : Nat) (x : α) (xs : List α) :
    spelled (word.drop n) (x :: xs) =
      if word[n]? = some x then spelled (word.drop (n + 1)) xs + 1
      else spelled (word.drop n) xs := by
  rcases Nat.lt_or_ge n word.length with hn | hn
  · rw [List.drop_eq_getElem_cons hn, List.getElem?_eq_getElem hn, spelled]
    simp only [Option.some.injEq]
  · rw [List.drop_eq_nil_of_le hn, List.getElem?_eq_none hn]
    simp [spelled_nil]

end Spelling

namespace RuleSet

def stateAfter (s : RuleSet) (t : TargetId) (start : StateId) (triggers : List Trigger) :
    StateId :=
  (s.run t start triggers).getLastD start

theorem stateAfter_cons (s : RuleSet) (t : TargetId) (start : StateId) (g : Trigger)
    (gs : List Trigger) :
    s.stateAfter t start (g :: gs) = s.stateAfter t (s.advance t start g) gs := by
  rw [stateAfter, run, List.getLastD_cons, stateAfter]

theorem stateAfter_mem {s : RuleSet} {t : TargetId} {start : StateId} {triggers : List Trigger}
    (h : triggers ≠ []) : s.stateAfter t start triggers ∈ s.run t start triggers := by
  cases triggers with
  | nil => exact absurd rfl h
  | cons g gs =>
    rw [stateAfter, run, List.getLastD_cons]
    exact List.getLastD_mem_cons ..

/-- The state of a target is the number of letters of a word that have come, each in its turn. -/
def Counts (s : RuleSet) (t : TargetId) (word : List Trigger) : Prop :=
  ∀ c g, (s.advance t c g).toNat =
    if word[c.toNat]? = some g then c.toNat + 1 else c.toNat

namespace Counts

variable {s : RuleSet} {t : TargetId} {word : List Trigger}

theorem toNat_stateAfter (h : s.Counts t word) (start : StateId) (triggers : List Trigger) :
    (s.stateAfter t start triggers).toNat =
      start.toNat + spelled (word.drop start.toNat) triggers := by
  induction triggers generalizing start with
  | nil => rfl
  | cons g gs ih =>
    rw [stateAfter_cons, ih, h start g, spelled_drop_cons]
    split_ifs
    · omega
    · rfl

theorem isGreatest_stateAfter (h : s.Counts t word) (triggers : List Trigger) :
    IsGreatest {k | k ≤ word.length ∧ (word.take k).Sublist triggers}
      (s.stateAfter t 0 triggers).toNat := by
  have he : (s.stateAfter t 0 triggers).toNat = spelled word triggers := by
    simpa using h.toNat_stateAfter 0 triggers
  rw [he]
  exact isGreatest_spelled word triggers

theorem le_advance (h : s.Counts t word) (c : StateId) (g : Trigger) : c ≤ s.advance t c g := by
  rw [UInt8.le_iff_toNat_le, h c g]
  split_ifs
  · exact Nat.le_succ c.toNat
  · exact Nat.le_refl c.toNat

theorem run_sorted (h : s.Counts t word) (start : StateId) (triggers : List Trigger) :
    (start :: s.run t start triggers).Pairwise (· ≤ ·) := by
  induction triggers generalizing start with
  | nil => exact List.pairwise_singleton _ _
  | cons g gs ih =>
    have hnext := h.le_advance start g
    have hrest := ih (s.advance t start g)
    rw [run, List.pairwise_cons]
    refine ⟨?_, hrest⟩
    intro c hc
    rcases List.mem_cons.mp hc with rfl | hc
    · exact hnext
    · exact UInt8.le_trans hnext ((List.pairwise_cons.mp hrest).1 c hc)

theorem le_stateAfter (h : s.Counts t word) {start c : StateId} {triggers : List Trigger}
    (hc : c ∈ s.run t start triggers) : c ≤ s.stateAfter t start triggers := by
  induction triggers generalizing start with
  | nil => exact absurd hc List.not_mem_nil
  | cons g gs ih =>
    rw [stateAfter_cons]
    rcases List.mem_cons.mp hc with rfl | hc
    · rw [UInt8.le_iff_toNat_le, h.toNat_stateAfter]
      exact Nat.le_add_right _ _
    · exact ih hc

/-- A run from the first state gets as far as `k` exactly if the first `k` letters come in order. -/
theorem reaches_iff (h : s.Counts t word) {k : Nat} (hpos : 0 < k) (hk : k ≤ word.length)
    (triggers : List Trigger) :
    (∃ c ∈ s.run t 0 triggers, k ≤ c.toNat) ↔ (word.take k).Sublist triggers := by
  have hlast : k ≤ (s.stateAfter t 0 triggers).toNat ↔ (word.take k).Sublist triggers := by
    have he := h.toNat_stateAfter 0 triggers
    simp only [UInt8.toNat_zero, Nat.zero_add, List.drop_zero] at he
    rw [he, take_sublist_iff hk]
  rw [← hlast]
  constructor
  · rintro ⟨c, hc, hkc⟩
    exact Nat.le_trans hkc (UInt8.le_iff_toNat_le.mp (h.le_stateAfter hc))
  · intro hle
    refine ⟨_, stateAfter_mem ?_, hle⟩
    rintro rfl
    exact absurd hle (Nat.not_le.mpr hpos)

theorem stays (h : s.Counts t word) {c : StateId} (hc : word.length ≤ c.toNat)
    (triggers : List Trigger) : ∀ d ∈ s.run t c triggers, d = c := by
  have hstay (g : Trigger) : s.advance t c g = c := by
    apply UInt8.toNat_inj.mp
    rw [h c g, List.getElem?_eq_none hc]
    simp
  induction triggers with
  | nil => simp [run]
  | cons g gs ih =>
    rw [run, hstay, List.forall_mem_cons]
    exact ⟨rfl, ih⟩

end Counts
end RuleSet

theorem exists_ok_of_isSome {ε α : Type} {result : Except ε α} (h : result.toOption.isSome) :
    ∃ a, result = .ok a := by
  cases result with
  | error e => simp [Except.toOption] at h
  | ok a => exact ⟨a, rfl⟩

theorem Schema.stateful_compiles_edge {t : TargetId} {e : Transition}
    (he : e ∈ Registry.defaults.transitionsFor t) :
    ∃ rule, Schema.stateful.compileTransition e = .ok rule := by
  have hall : ∀ m ∈ Registry.defaults.machines, ∀ e ∈ m.transitions,
      (Schema.stateful.compileTransition e).toOption.isSome := by
    decide +kernel
  rw [Registry.transitionsFor] at he
  split at he
  · rename_i m hm
    exact exists_ok_of_isSome (hall m (List.mem_of_find?_eq_some hm) e he)
  · cases he

theorem Schema.stateful_transfer_eq_step {targets : List TargetId} {rules : List Rule}
    (hp : rules.Perm (compiled (targets.flatMap (stateful.serviceResults Registry.defaults))))
    {t : TargetId} (ht : t ∈ targets) (c : StateId) (g : Trigger) :
    (RuleSet.mk rules).transfer t c g = Registry.defaults.step t g c :=
  transfer_eq_step Registry.defaults_reachable.wellFormed hp ht
    (fun _ he => stateful_compiles_edge he) c g

namespace Firewall

/-- The triggers of a whole connection, from its SYN to the second FIN with ACK. -/
def connection : List Trigger :=
  [TcpFlag.syn, TcpFlag.syn ||| TcpFlag.ack, TcpFlag.ack, TcpFlag.fin,
    TcpFlag.fin ||| TcpFlag.ack, TcpFlag.fin, TcpFlag.fin ||| TcpFlag.ack]

/-- Every edge leads to the next state on the letter that is due, and is a loop otherwise. -/
theorem edges_count : ∀ e ∈ Registry.defaults.transitionsFor target.id,
    e.next.toNat =
      if connection[e.current.toNat]? = some e.trigger then e.current.toNat + 1
      else e.current.toNat := by
  decide

theorem letters_have_edges : ∀ p ∈ connection.zipIdx,
    Registry.defaults.step target.id p.1 (UInt8.ofNat p.2) ≠ none := by
  decide

/-- A state without an edge is not waiting for the trigger; so the automaton counts. -/
theorem toNat_step (c : StateId) (g : Trigger) :
    ((Registry.defaults.step target.id g c).getD c).toNat =
      if connection[c.toNat]? = some g then c.toNat + 1 else c.toNat := by
  cases hs : Registry.defaults.step target.id g c with
  | some n =>
    have he := Registry.defaults_reachable.wellFormed.step_eq_some_iff.mp hs
    exact edges_count _ he
  | none =>
    have hnot : connection[c.toNat]? ≠ some g := by
      intro hdue
      have hedge := letters_have_edges (g, c.toNat) (List.mk_mem_zipIdx_iff_getElem?.mpr hdue)
      rw [UInt8.ofNat_toNat] at hedge
      exact hedge hs
    rw [if_neg hnot, Option.getD_none]

theorem counts_connection {targets : List TargetId} {rules : List Rule} (hf : target.id ∈ targets)
    (hp : rules.Perm (Schema.compiled
      (targets.flatMap (Schema.stateful.serviceResults Registry.defaults)))) :
    (RuleSet.mk rules).Counts target.id connection := by
  intro c g
  rw [RuleSet.advance, Schema.stateful_transfer_eq_step hp hf]
  exact toNat_step c g

/-- The state of the compiled firewall counts how much of a connection has come, with gaps or
without. -/
theorem firewall_state_is_longest_prefix (targets : List TargetId) (hf : target.id ∈ targets)
    (ht : ∀ t ∈ targets, (Registry.defaults.target? t).isSome) :
    ∃ results, Schema.stateful.compileServices Registry.defaults targets = .ok results ∧
      ∀ rules : List Rule, rules.Perm (Schema.compiled results) →
        (∀ triggers, IsGreatest
          {k | k ≤ connection.length ∧ (connection.take k).Sublist triggers}
          ((RuleSet.mk rules).stateAfter target.id TcpPhase.init triggers).toNat) ∧
        (∀ triggers,
          (∃ c ∈ (RuleSet.mk rules).run target.id TcpPhase.init triggers,
            TcpPhase.established ≤ c) ↔
          [TcpFlag.syn, TcpFlag.syn ||| TcpFlag.ack, TcpFlag.ack].Sublist triggers) ∧
        (∀ start triggers,
          (start :: (RuleSet.mk rules).run target.id start triggers).Pairwise (· ≤ ·)) ∧
        ∀ triggers, ∀ c ∈ (RuleSet.mk rules).run target.id TcpPhase.stop triggers,
          c = TcpPhase.stop := by
  refine ⟨_, Schema.compileServices_eq_ok ht, fun rules hp => ?_⟩
  have hcounts := counts_connection hf hp
  refine ⟨?_, ?_, ?_, ?_⟩
  · intro triggers
    exact hcounts.isGreatest_stateAfter triggers
  · intro triggers
    exact hcounts.reaches_iff (by decide) (by decide) triggers
  · intro start triggers
    exact hcounts.run_sorted start triggers
  · intro triggers
    exact hcounts.stays (by decide) triggers

/-- A handshake with an ACK before its time, a repeated SYN and a reset, then data and two FINs. -/
def noisyConnection : List Trigger :=
  [TcpFlag.ack, TcpFlag.syn, TcpFlag.syn, TcpFlag.syn ||| TcpFlag.ack, TcpFlag.rst, TcpFlag.ack,
    TcpFlag.psh ||| TcpFlag.ack, TcpFlag.fin, TcpFlag.fin]

theorem noisyConnection_state :
    target.id ∈ ([2, 1] : List TargetId) ∧
      (∀ t ∈ ([2, 1] : List TargetId), (Registry.defaults.target? t).isSome) ∧
      ∃ results, Schema.stateful.compileServices Registry.defaults [2, 1] = .ok results ∧
        ∀ rules : List Rule, rules.Perm (Schema.compiled results) →
          (RuleSet.mk rules).stateAfter target.id TcpPhase.init noisyConnection =
            TcpPhase.firstFin := by
  have hf : target.id ∈ ([2, 1] : List TargetId) := by decide
  have hbalancer : (Registry.defaults.target? 2).isSome := by decide
  have hfirewall : (Registry.defaults.target? 1).isSome := by decide
  have ht : ∀ t ∈ ([2, 1] : List TargetId), (Registry.defaults.target? t).isSome := by
    simp only [List.forall_mem_cons]
    exact ⟨hbalancer, hfirewall, by simp⟩
  refine ⟨hf, ht, ?_⟩
  obtain ⟨results, hresults, hrules⟩ := firewall_state_is_longest_prefix [2, 1] hf ht
  refine ⟨results, hresults, fun rules hp => ?_⟩
  obtain ⟨hmem, hmax⟩ := (hrules rules hp).1 noisyConnection
  have hlower := hmax (a := 4) ⟨by decide, by decide⟩
  have hupper : ∀ k < 8, (connection.take k).Sublist noisyConnection → k ≤ 4 := by decide
  have hle := hupper _ (Nat.lt_succ_of_le hmem.1) hmem.2
  exact UInt8.toNat_inj.mp (Nat.le_antisymm hle hlower)

end Firewall
end StatefulPipeline
