import Mathlib.Data.List.Perm.Subperm
import StatefulPipeline.Controller
import StatefulPipeline.Proofs.SortedMaps

/-! How a register is claimed. A draw looks at one candidate more than there are live registers, so
that it ends at a free one; it leaves the live registers alone and moves the counter past what it
handed out. A requested register is taken only if it is free, and the counter stays. -/

namespace StatefulPipeline

namespace Slot

theorem isLive_toNat (slot : Slot) (r : RegisterId) :
    slot.isLive r.toNat = true ↔ ∃ a, slot.live.get? r = some a := by
  simp only [isLive, List.any_eq_true, decide_eq_true_eq, UInt32.toNat_inj,
    SortedMap.get?_eq_some_iff]
  constructor
  · rintro ⟨⟨r', a⟩, hm, rfl⟩
    exact ⟨a, hm⟩
  · rintro ⟨a, hm⟩
    exact ⟨(r, a), hm, rfl⟩

theorem le_firstFree (taken : Nat → Bool) (tries n : Nat) : n ≤ firstFree taken tries n := by
  induction tries generalizing n with
  | zero => exact Nat.le_refl n
  | succ tries ih =>
    rw [firstFree]
    split_ifs with h
    · have hs := ih (n + 1)
      omega
    · exact Nat.le_refl n

theorem taken_of_taken_firstFree {taken : Nat → Bool} {tries n : Nat}
    (h : taken (firstFree taken tries n) = true) {k : Nat} (hn : n ≤ k) (hk : k ≤ n + tries) :
    taken k = true := by
  induction tries generalizing n with
  | zero =>
    obtain rfl : k = n := by omega
    exact h
  | succ tries ih =>
    rw [firstFree] at h
    split_ifs at h with ht
    · by_cases hkn : k = n
      · rw [hkn]
        exact ht
      · exact ih h (by omega) (by omega)
    · exact absurd h ht

/-- There are fewer live registers than candidates. -/
theorem isLive_candidate (slot : Slot) : slot.isLive slot.candidate = false := by
  by_contra hne
  have hl : slot.isLive slot.candidate = true := by simpa using hne
  have hsub : List.range' slot.next (slot.live.toList.length + 1) ⊆
      slot.live.toList.map fun e => e.1.toNat := by
    intro k hk
    rw [List.mem_range'_1] at hk
    have ht := taken_of_taken_firstFree hl hk.1 (by omega)
    simpa [isLive] using ht
  have hlen := (List.subperm_of_subset List.nodup_range' hsub).length_le
  simp only [List.length_range', List.length_map] at hlen
  omega

theorem draw_live (slot : Slot) (max : RegisterId) : (slot.draw max).1.live = slot.live := by
  unfold draw
  split_ifs <;> rfl

theorem le_draw_next (slot : Slot) (max : RegisterId) : slot.next ≤ (slot.draw max).1.next := by
  have hc : slot.next ≤ slot.candidate := le_firstFree _ _ _
  unfold draw
  split_ifs with h
  · exact Nat.le_succ_of_le hc
  · exact Nat.le_max_left _ _

/-- A drawn register is free, and the counter moves from at most it to just past it. -/
theorem draw_eq_some {slot : Slot} {max r : RegisterId} (h : (slot.draw max).2 = some r) :
    slot.live.get? r = none ∧ slot.next ≤ r.toNat ∧ (slot.draw max).1.next = r.toNat + 1 := by
  by_cases hc : slot.candidate ≤ max.toNat
  · have hd : slot.draw max =
        ({ slot with next := slot.candidate + 1 }, some (UInt32.ofNat slot.candidate)) := if_pos hc
    rw [hd] at h ⊢
    obtain rfl : UInt32.ofNat slot.candidate = r := Option.some.inj h
    have hn : (UInt32.ofNat slot.candidate).toNat = slot.candidate :=
      UInt32.toNat_ofNat_of_lt (Nat.lt_of_le_of_lt hc max.toNat_lt)
    have hfree : ¬ slot.isLive (UInt32.ofNat slot.candidate).toNat = true := by
      rw [hn, isLive_candidate]
      decide
    rw [isLive_toNat] at hfree
    refine ⟨?_, ?_, ?_⟩
    · simpa [Option.eq_none_iff_forall_ne_some] using hfree
    · rw [hn]
      exact le_firstFree _ _ _
    · rw [hn]
  · have hd : slot.draw max = ({ slot with next := Nat.max slot.next (max.toNat + 1) }, none) :=
      if_neg hc
    rw [hd] at h
    exact absurd h (by simp)

end Slot

namespace Controller

variable {slot : Slot} {service : String} {max : RegisterId}

@[simp] theorem claim_some_fst (r : RegisterId) : (claim slot service max (some r)).1 = slot := by
  simp only [claim]
  split_ifs <;> rfl

@[simp] theorem claim_none_fst : (claim slot service max none).1 = (slot.draw max).1 := by
  simp only [claim]
  split <;> simp_all

theorem claim_live (requested : Option RegisterId) :
    (claim slot service max requested).1.live = slot.live := by
  cases requested with
  | some r => rw [claim_some_fst]
  | none => rw [claim_none_fst, Slot.draw_live]

theorem le_claim_next (requested : Option RegisterId) :
    slot.next ≤ (claim slot service max requested).1.next := by
  cases requested with
  | some r => exact Nat.le_of_eq (by rw [claim_some_fst])
  | none =>
    rw [claim_none_fst]
    exact slot.le_draw_next max

theorem claim_eq_ok {requested : Option RegisterId} {r : RegisterId}
    (h : (claim slot service max requested).2 = .ok r) :
    slot.live.get? r = none ∧
      (requested = none →
        slot.next ≤ r.toNat ∧ (claim slot service max requested).1.next = r.toNat + 1) := by
  cases requested with
  | some r' =>
    simp only [claim] at h
    split_ifs at h with hc
    obtain rfl : r' = r := Except.ok.inj h
    refine ⟨?_, fun hn => absurd hn (by simp)⟩
    exact SortedMap.contains_eq_false_iff.mp (by simpa using hc)
  | none =>
    have hd : (slot.draw max).2 = some r := by
      simp only [claim] at h
      split at h <;> simp_all
    obtain ⟨hfree, hle, hnext⟩ := Slot.draw_eq_some hd
    refine ⟨hfree, fun _ => ⟨hle, ?_⟩⟩
    rw [claim_none_fst]
    exact hnext

end Controller
end StatefulPipeline
