import Mathlib.Data.List.Nodup
import StatefulPipeline.Proofs.ControllerRuns

/-! Selector owners and live allocations are two views of one thing. Each live allocation owns its
selector, and each owner in the index has a live allocation with that selector. Live selectors
name no field twice, so a selector is its set of terms, and no two live allocations have the same
set. -/

namespace StatefulPipeline

theorem Selector.key_eq_of_mem_iff {s s' : Selector} (h : s.refs.Nodup) (h' : s'.refs.Nodup)
    (hmem : ∀ term, term ∈ s.terms ↔ term ∈ s'.terms) : s.key = s'.key := by
  have terms_nodup {s : Selector} (h : s.refs.Nodup) : s.terms.Nodup := by
    have hr : s.terms.map Prod.fst = s.refs := by
      rw [terms, List.map_map]
      rfl
    exact List.Nodup.of_map Prod.fst (hr ▸ h)
  rw [key, key, Key.sort_eq_iff_perm, List.perm_ext_iff_of_nodup (terms_nodup h) (terms_nodup h')]
  exact hmem

namespace Controller

/-- Live allocations stand where they say, own their selectors and name no field twice, and every
owner in the index is live. -/
structure Owned (c : Controller) : Prop where
  placed : ∀ t r a, (c.slot t).live.get? r = some a → a.target = t ∧ a.register = r
  owner : ∀ t r a, (c.slot t).live.get? r = some a → c.owners.get? a.selector.key = some (t, r)
  live : ∀ key t r, c.owners.get? key = some (t, r) →
    ∃ a, (c.slot t).live.get? r = some a ∧ a.selector.key = key
  distinct : ∀ t r a, (c.slot t).live.get? r = some a → a.selector.refs.Nodup

variable {c c' : Controller}

theorem Owned.of_keeps (h : c.Owned) (hk : c.Keeps c') : c'.Owned where
  placed t r a ha := h.placed t r a (hk.live t ▸ ha)
  owner t r a ha := by
    rw [hk.owners]
    exact h.owner t r a (hk.live t ▸ ha)
  live key t r ho := by
    rw [hk.owners] at ho
    rw [hk.live]
    exact h.live key t r ho
  distinct t r a ha := h.distinct t r a (hk.live t ▸ ha)

theorem Owned.of_notes {b : Allocation} (h : c.Owned) (hn : c.Notes c' b) : c'.Owned where
  placed t r a ha := by
    rcases hn.eq_or_live ha with ⟨rfl, hb⟩ | ha
    · exact hb
    · exact h.placed t r a ha
  owner t r a ha := by
    rw [hn.owners]
    rcases hn.eq_or_live ha with ⟨rfl, ht, hr⟩ | ha
    · rw [if_pos rfl, ht, hr]
    · have ho := h.owner t r a ha
      have hkey : b.selector.key ≠ a.selector.key := by
        intro hkey
        rw [← hkey, hn.unowned] at ho
        exact absurd ho (by simp)
      rw [if_neg hkey]
      exact ho
  live key t r ho := by
    rw [hn.owners] at ho
    split_ifs at ho with hkey
    · obtain ⟨rfl, rfl⟩ := Prod.mk.inj (Option.some.inj ho)
      exact ⟨b, (hn.live _ _).trans (if_pos ⟨rfl, rfl⟩), hkey⟩
    · obtain ⟨a, ha, hak⟩ := h.live key t r ho
      exact ⟨a, hn.live_of_live ha, hak⟩
  distinct t r a ha := by
    rcases hn.eq_or_live ha with ⟨rfl, _⟩ | ha
    · exact hn.distinct
    · exact h.distinct t r a ha

theorem Owned.handle (h : c.Owned) (q : ControlRequest) : (c.handle q).1.Owned := by
  rcases c.handle_keeps_or_notes q with hk | ⟨b, hn⟩
  · exact h.of_keeps hk
  · exact h.of_notes hn

theorem Reachable.owned (h : c.Reachable) : c.Owned := by
  refine h.preserves ?_ fun c q hc => hc.handle q
  intro schema registry devices device
  constructor <;> simp [new, slot, Slot.empty]

theorem Owned.eq_of_same_terms (h : c.Owned) {t t' : TargetId} {r r' : RegisterId}
    {a a' : Allocation} (ha : (c.slot t).live.get? r = some a)
    (ha' : (c.slot t').live.get? r' = some a')
    (hterms : ∀ term, term ∈ a.selector.terms ↔ term ∈ a'.selector.terms) : t = t' ∧ r = r' := by
  have hkey : a.selector.key = a'.selector.key :=
    Selector.key_eq_of_mem_iff (h.distinct t r a ha) (h.distinct t' r' a' ha') hterms
  have howner := h.owner t r a ha
  rw [hkey, h.owner t' r' a' ha'] at howner
  obtain ⟨rfl, rfl⟩ := Prod.mk.inj (Option.some.inj howner)
  exact ⟨rfl, rfl⟩

/-- Owners and live allocations correspond one to one, and no two share their terms. -/
theorem owners_in_bijection_with_live_allocations (c : Controller) (h : c.Reachable) :
    (∀ t r a, (c.slot t).live.get? r = some a → a.target = t ∧ a.register = r) ∧
      (∀ t r a, (c.slot t).live.get? r = some a →
        c.owners.get? a.selector.key = some (t, r)) ∧
      (∀ key t r, c.owners.get? key = some (t, r) →
        ∃ a, (c.slot t).live.get? r = some a ∧ a.selector.key = key) ∧
      ∀ t r a t' r' a', (c.slot t).live.get? r = some a → (c.slot t').live.get? r' = some a' →
        (∀ term, term ∈ a.selector.terms ↔ term ∈ a'.selector.terms) → t = t' ∧ r = r' := by
  have ho := h.owned
  refine ⟨ho.placed, ho.owner, ho.live, ?_⟩
  intro t r a t' r' a' ha ha' hterms
  exact ho.eq_of_same_terms ha ha' hterms

def addressPairs : Schema :=
  Schema.accept
    [.field ⟨"ipv4", "srcAddr"⟩ ⟨32, false⟩, .field ⟨"ipv4", "dstAddr"⟩ ⟨32, false⟩,
      .action ⟨Name.lookupByTcpFlag, [⟨Name.targetId, 16⟩, ⟨Name.registerId, 2⟩]⟩,
      .action ⟨Name.lookupByNothing, [⟨Name.targetId, 16⟩, ⟨Name.registerId, 2⟩]⟩]

def sent : Selector := ⟨[.field ⟨"ipv4", "srcAddr"⟩ 1, .field ⟨"ipv4", "dstAddr"⟩ 2]⟩

def answered : Selector := ⟨[.field ⟨"ipv4", "srcAddr"⟩ 2, .field ⟨"ipv4", "dstAddr"⟩ 1]⟩

/-- A flow of the balancer and one of the firewall. The firewall was refused the flow of the
balancer, with its terms the other way round. -/
def twoServices : Controller :=
  ((new addressPairs Registry.defaults ["s1#0", "s2#1"]).run
    [.bind ⟨"slb", none, sent, none⟩, .bind ⟨"sfw", none, ⟨sent.criteria.reverse⟩, none⟩,
      .bind ⟨"sfw", some 3, answered, none⟩]).1

theorem twoServices_owners :
    twoServices.Reachable ∧
      (twoServices.slot 2).live.get? 0 = some ⟨2, 0, sent, none⟩ ∧
      (twoServices.slot 1).live.get? 3 = some ⟨1, 3, answered, none⟩ ∧
      twoServices.owners.get? sent.key = some (2, 0) ∧
      (∃ a, (twoServices.slot 1).live.get? 3 = some a ∧ a.selector.key = answered.key) ∧
      ¬∀ term, term ∈ sent.terms ↔ term ∈ answered.terms := by
  have hr : twoServices.Reachable := ⟨_, _, _, none, _, rfl⟩
  have hs : (twoServices.slot 2).live.get? 0 = some ⟨2, 0, sent, none⟩ := by decide
  have ha : (twoServices.slot 1).live.get? 3 = some ⟨1, 3, answered, none⟩ := by decide
  obtain ⟨_, howner, hlive, hsame⟩ := owners_in_bijection_with_live_allocations twoServices hr
  refine ⟨hr, hs, ha, howner 2 0 _ hs, hlive _ 1 3 (howner 1 3 _ ha), ?_⟩
  intro hterms
  exact absurd (hsame 2 0 _ 1 3 _ hs ha hterms).1 (by decide)

end Controller
end StatefulPipeline
