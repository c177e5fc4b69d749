import StatefulPipeline.Proofs.Installation
import StatefulPipeline.Proofs.Ownership
import StatefulPipeline.Proofs.SelectorMeaning

/-! No bound flow hides another on a device. Owners are told apart by the terms of their selectors,
and devices see the encoded terms; both tell the same selectors apart, since encoding loses nothing.
So two rules of one table with the same set of encoded terms would have one owner, and a selector
is bound once. -/

namespace StatefulPipeline

namespace Schema

variable {schema : Schema}

theorem exact_inj {t t' : FieldRef × Int} {m : FieldMatch}
    (h : schema.exact t.1 t.2 = .ok m) (h' : schema.exact t'.1 t'.2 = .ok m) : t = t' := by
  obtain ⟨hf, spec, hspec, hfit⟩ := exact_eq_ok_iff.mp h
  obtain ⟨hf', spec', hspec', hfit'⟩ := exact_eq_ok_iff.mp h'
  have hfield : t.1 = t'.1 := hf.symm.trans hf'
  rw [hfield, hspec'] at hspec
  obtain rfl : spec' = spec := Except.ok.inj hspec
  exact Prod.ext hfield (Encoded.fitAs_inj hfit hfit')

/-- Terms of one field that ask for the same magnitude are the same, byte for byte. -/
theorem exact_eq_of_entry_eq {t t' : FieldRef × Int} {m m' : FieldMatch}
    (h : schema.exact t.1 t.2 = .ok m) (h' : schema.exact t'.1 t'.2 = .ok m')
    (he : m.entry = m'.entry) : m = m' := by
  obtain ⟨hf, spec, hspec, hfit⟩ := exact_eq_ok_iff.mp h
  obtain ⟨hf', spec', hspec', hfit'⟩ := exact_eq_ok_iff.mp h'
  obtain ⟨hfield, hn⟩ := Prod.mk.inj he
  rw [← hf, hfield, hf', hspec'] at hspec
  obtain rfl : spec' = spec := Except.ok.inj hspec
  have hv : m.value = m'.value := by
    rw [← Encoded.ofNat_toNat_of_fitAs hfit, ← Encoded.ofNat_toNat_of_fitAs hfit', hn]
  cases m
  cases m'
  exact congrArg₂ FieldMatch.mk hfield hv

theorem mem_of_terms_subset {ts ts' : List (FieldRef × Int)} {ms ms' : List FieldMatch}
    (h : schema.exactAll ts = .ok ms) (h' : schema.exactAll ts' = .ok ms') (hsub : ms ⊆ ms')
    {t : FieldRef × Int} (ht : t ∈ ts) : t ∈ ts' := by
  obtain ⟨m, hm, he⟩ := (exactAll_covers h).1 t ht
  obtain ⟨t', ht', he'⟩ := (exactAll_covers h').2 m (hsub hm)
  rw [exact_inj he he']
  exact ht'

/-- Two rules over the same fields that match one key, in which no field is repeated, have the same
terms. -/
theorem terms_subset_of_common_key {ts ts' : List (FieldRef × Int)} {rule rule' : Rule}
    (h : schema.exactAll ts = .ok rule.terms) (h' : schema.exactAll ts' = .ok rule'.terms)
    (hfields : ∀ f, f ∈ rule.terms.map FieldMatch.field → f ∈ rule'.terms.map FieldMatch.field)
    {key : PacketKey} (hkey : (key.map Prod.fst).Nodup) (hm : rule.matchesKey key = true)
    (hm' : rule'.matchesKey key = true) : rule.terms ⊆ rule'.terms := by
  intro m hmem
  obtain ⟨m', hmem', hf⟩ := List.mem_map.mp (hfields _ (List.mem_map_of_mem hmem))
  have hentry : m.entry ∈ key := Rule.matchesKey_iff.mp hm m hmem
  have hentry' : m'.entry ∈ key := Rule.matchesKey_iff.mp hm' m' hmem'
  have he : m.entry = m'.entry := List.inj_on_of_nodup_map hkey hentry hentry' hf.symm
  obtain ⟨t, _, ht⟩ := (exactAll_covers h).2 m hmem
  obtain ⟨t', _, ht'⟩ := (exactAll_covers h').2 m' hmem'
  rw [exact_eq_of_entry_eq ht ht' he]
  exact hmem'

end Schema

namespace Rule

/-- Two rules of one table that no packet tells apart: they have the same set of terms. -/
def Shadows (rule rule' : Rule) : Prop :=
  rule.table = rule'.table ∧ ∀ m, m ∈ rule.terms ↔ m ∈ rule'.terms

theorem Shadows.symm {rule rule' : Rule} (h : rule.Shadows rule') : rule'.Shadows rule :=
  ⟨h.1.symm, fun m => (h.2 m).symm⟩

theorem Shadows.ofFlow {rule rule' : Rule} (h : rule.Shadows rule') (hf : rule.OfFlow) :
    rule'.OfFlow := by
  unfold OfFlow
  rw [← h.1]
  exact hf

end Rule

theorem Schema.not_ofFlow_of_service {schema : Schema} {registry : Registry} {t : TargetId}
    {rule : Rule} (h : .ok rule ∈ schema.serviceResults registry t) : ¬ rule.OfFlow := by
  unfold Rule.OfFlow
  rcases ok_mem_serviceResults.mp h with ⟨b, _, hb⟩ | ⟨e, _, he⟩
  · rw [(compileAction_eq_ok hb).1]
    decide
  · rw [(compileTransition_eq_ok he).1]
    decide

/-- What sets apart any two placed rules sets apart the rules at any two places on the devices. -/
theorem Fabric.apart_of_placed {f : Fabric} {R : Rule → Rule → Prop}
    (hsymm : ∀ r r', R r r' → R r' r) (h : f.placed.Pairwise fun p p' => R p.2 p'.2)
    {d d' : DeviceId} {i j : Nat} {r r' : Rule} (hi : (f.installed d)[i]? = some r)
    (hj : (f.installed d')[j]? = some r') (hne : (d, i) ≠ (d', j)) : R r r' := by
  by_cases hd : d = d'
  · subst hd
    have hdevice : (f.installed d).Pairwise R := by
      refine List.pairwise_filterMap.mpr (h.imp ?_)
      intro p p' hr b hb b' hb'
      split_ifs at hb hb'
      obtain rfl := Option.some.inj hb
      obtain rfl := Option.some.inj hb'
      exact hr
    obtain ⟨hlt, rfl⟩ := List.getElem?_eq_some_iff.mp hi
    obtain ⟨hlt', rfl⟩ := List.getElem?_eq_some_iff.mp hj
    rcases Nat.lt_or_gt_of_ne fun hij => hne (congrArg (Prod.mk d) hij) with hij | hij
    · exact List.pairwise_iff_getElem.mp hdevice i j hlt hlt' hij
    · exact hsymm _ _ (List.pairwise_iff_getElem.mp hdevice j i hlt' hlt hij)
  · have hm : (d, r) ∈ f.placed := mem_installed.mp (List.mem_of_getElem? hi)
    have hm' : (d', r') ∈ f.placed := mem_installed.mp (List.mem_of_getElem? hj)
    have : Std.Symm fun p p' : DeviceId × Rule => R p.2 p'.2 := ⟨fun p p' => hsymm p.2 p'.2⟩
    exact h.forall hm hm' fun he => hd (congrArg Prod.fst he)

namespace Controller

/-- Every rule of a flow has the terms of an owned selector, and no two of them, wherever they are
installed, shadow each other. -/
structure Unshadowed (c : Controller) : Prop where
  traced : ∀ p ∈ c.fabric.placed, p.2.OfFlow →
    ∃ s : Selector, (∃ owner, c.owners.get? s.key = some owner) ∧ s.refs.Nodup ∧
      c.schema.exactAll s.terms = .ok p.2.terms
  apart : c.fabric.placed.Pairwise fun p p' => p.2.OfFlow → ¬ p.2.Shadows p'.2

variable {c : Controller} {q : ControlRequest} {added : List (DeviceId × Rule)}

theorem key_eq_of_same_terms {s s' : Selector} {rule rule' : Rule} (hs : s.refs.Nodup)
    (hs' : s'.refs.Nodup) (h : c.schema.exactAll s.terms = .ok rule.terms)
    (h' : c.schema.exactAll s'.terms = .ok rule'.terms) (hsame : rule.Shadows rule') :
    s.key = s'.key := by
  apply Selector.key_eq_of_mem_iff hs hs'
  intro term
  constructor
  · intro ht
    exact Schema.mem_of_terms_subset h h' (fun m hm => (hsame.2 m).mp hm) ht
  · intro ht
    exact Schema.mem_of_terms_subset h' h (fun m hm => (hsame.2 m).mpr hm) ht

theorem Unshadowed.append (h : c.Unshadowed)
    (hplaced : (c.handle q).1.fabric.placed = c.fabric.placed ++ added)
    (htraced : ∀ p ∈ added, p.2.OfFlow →
      ∃ s : Selector, (∃ owner, (c.handle q).1.owners.get? s.key = some owner) ∧ s.refs.Nodup ∧
        c.schema.exactAll s.terms = .ok p.2.terms)
    (hadded : added.Pairwise fun p p' => p.2.OfFlow → ¬ p.2.Shadows p'.2)
    (hcross : ∀ p ∈ c.fabric.placed, ∀ p' ∈ added, p.2.OfFlow → ¬ p.2.Shadows p'.2) :
    (c.handle q).1.Unshadowed where
  traced p hp hf := by
    rw [(c.handle_fixed q).1]
    rw [hplaced] at hp
    rcases List.mem_append.mp hp with hp | hp
    · obtain ⟨s, ⟨owner, ho⟩, hs⟩ := h.traced p hp hf
      exact ⟨s, ⟨owner, handle_owner ho⟩, hs⟩
    · exact htraced p hp hf
  apart := by
    rw [hplaced]
    exact List.pairwise_append.mpr ⟨h.apart, hadded, hcross⟩

theorem Unshadowed.handle (h : c.Unshadowed) (q : ControlRequest) :
    (c.handle q).1.Unshadowed := by
  obtain ⟨added, hplaced, hplaces⟩ := c.handle_places q
  cases hplaces with
  | nothing => exact h.append hplaced (by simp) .nil (by simp)
  | @service s hs =>
    have hservice : ∀ p ∈ s.report.installed.map fun r => (s.device, r), ¬ p.2.OfFlow := by
      intro p hp
      obtain ⟨rule, hr, rfl⟩ := List.mem_map.mp hp
      exact Schema.not_ofFlow_of_service (ok_mem_of_installed hs hr)
    refine h.append hplaced ?_ ?_ ?_
    · intro p hp hf
      exact absurd hf (hservice p hp)
    · exact List.pairwise_of_forall_mem_list fun p hp _ _ hf => absurd hf (hservice p hp)
    · intro p _ p' hp' hf hs
      exact hservice p' hp' (hs.ofFlow hf)
  | @flow b target d register rules placed hq hfree howner hflow hsub =>
    subst hq
    obtain ⟨htables, hrules⟩ := Schema.compileFlow_eq_ok hflow
    have hdistinct := Schema.refs_nodup_of_compileFlow hflow
    have hterms : ∀ p ∈ placed.map fun r => (d, r),
        c.schema.exactAll b.selector.terms = .ok p.2.terms := by
      intro p hp
      obtain ⟨rule, hr, rfl⟩ := List.mem_map.mp hp
      exact (hrules rule ((Rule.sortForInstall_perm rules).mem_iff.mp (hsub.subset hr))).2
    refine h.append hplaced ?_ ?_ ?_
    · intro p hp _
      exact ⟨b.selector, ⟨_, howner⟩, hdistinct, hterms p hp⟩
    · -- The rules of one flow are for different tables.
      have hsorted : ((Rule.sortForInstall rules).map Rule.table).Nodup :=
        ((Rule.sortForInstall_perm rules).map Rule.table).nodup_iff.mpr htables
      have hplacedTables : placed.Pairwise fun r r' => r.table ≠ r'.table :=
        List.pairwise_map.mp (hsorted.sublist (hsub.map Rule.table))
      refine List.pairwise_map.mpr (hplacedTables.imp ?_)
      intro r r' hne _ hs
      exact hne hs.1
    · -- A rule that shadows an older one would have the key of an owner, and this key was free.
      intro p hp p' hp' hf hs
      obtain ⟨s, ⟨owner, ho⟩, hnodup, hp⟩ := h.traced p hp hf
      rw [key_eq_of_same_terms hnodup hdistinct hp (hterms p' hp') hs, hfree] at ho
      exact absurd ho (by simp)

theorem Reachable.unshadowed (h : c.Reachable) : c.Unshadowed := by
  refine h.preserves ?_ fun c q hc => hc.handle q
  intro schema registry devices device
  constructor <;> simp [new, Fabric.new]

/-- No rule of a bound flow can take the packets of another over the same fields. -/
theorem bound_flows_never_shadow (c : Controller) (h : c.Reachable) (table : Table)
    (htable : table = .state ∨ table = .forward) (d d' : DeviceId) (i j : Nat)
    (rule rule' : Rule) (hi : (c.fabric.installed d)[i]? = some rule)
    (hj : (c.fabric.installed d')[j]? = some rule') (hne : (d, i) ≠ (d', j))
    (ht : rule.table = table) (ht' : rule'.table = table) :
    (¬ ∀ m, m ∈ rule.terms ↔ m ∈ rule'.terms) ∧
      ((∀ f, f ∈ rule.terms.map FieldMatch.field ↔ f ∈ rule'.terms.map FieldMatch.field) →
        ∀ key : PacketKey, (key.map Prod.fst).Nodup →
          ¬ (rule.matchesKey key = true ∧ rule'.matchesKey key = true)) := by
  have hu := h.unshadowed
  have hf : rule.OfFlow := by
    rw [Rule.OfFlow, ht]
    exact htable
  have hf' : rule'.OfFlow := by
    rw [Rule.OfFlow, ht']
    exact htable
  have hapart : rule.OfFlow → ¬ rule.Shadows rule' := by
    refine Fabric.apart_of_placed (R := fun r r' => r.OfFlow → ¬ r.Shadows r') ?_ hu.apart hi hj hne
    intro r r' hr hf' hs
    exact hr (hs.ofFlow hf') hs.symm
  have hdistinct : ¬ ∀ m, m ∈ rule.terms ↔ m ∈ rule'.terms := by
    intro hsame
    exact hapart hf ⟨ht.trans ht'.symm, hsame⟩
  refine ⟨hdistinct, fun hfields key hkey hmatch => hdistinct fun m => ?_⟩
  obtain ⟨s, _, _, hterms⟩ := hu.traced _ (Fabric.mem_installed.mp (List.mem_of_getElem? hi)) hf
  obtain ⟨s', _, _, hterms'⟩ := hu.traced _ (Fabric.mem_installed.mp (List.mem_of_getElem? hj)) hf'
  constructor
  · intro hm
    exact Schema.terms_subset_of_common_key hterms hterms' (fun f => (hfields f).mp) hkey
      hmatch.1 hmatch.2 hm
  · intro hm
    exact Schema.terms_subset_of_common_key hterms' hterms (fun f => (hfields f).mpr) hkey
      hmatch.2 hmatch.1 hm

def rising : Selector := ⟨[.field ⟨"flow", "delta"⟩ 2, .inPort 3]⟩

/-- Falling traffic is bound on one device and rising traffic on another. In between, falling
traffic was refused with its terms the other way round. -/
def fallingAndRising : Controller :=
  ((new Schema.signedDelta Registry.empty.installBalancer.1 ["s1#0", "s2#1"]).run
    [.bind ⟨"slb", none, Schema.falling, some 2⟩, .deviceInitialized "s2#1",
      .bind ⟨"slb", none, ⟨Schema.falling.criteria.reverse⟩, none⟩,
      .bind ⟨"slb", none, rising, some 2⟩]).1

def flowRule (terms : List FieldMatch) (register : UInt8) : Rule where
  table := .state
  terms := terms
  action :=
    ⟨Name.lookupByNothing, [⟨Name.targetId, ⟨[0, 2]⟩⟩, ⟨Name.registerId, ⟨[0, register]⟩⟩]⟩
  priority := defaultPriority

def portTerm : FieldMatch := ⟨⟨"standard_metadata", "ingress_port"⟩, ⟨[0, 3]⟩⟩

def fallingRule : Rule := flowRule [portTerm, ⟨⟨"flow", "delta"⟩, ⟨[15, 254]⟩⟩] 0

def risingRule : Rule := flowRule [⟨⟨"flow", "delta"⟩, ⟨[0, 2]⟩⟩, portTerm] 1

theorem fallingAndRising_apart :
    (fallingAndRising.fabric.installed "s1#0")[0]? = some fallingRule ∧
      (fallingAndRising.fabric.installed "s2#1")[0]? = some risingRule ∧
      (¬ ∀ m, m ∈ fallingRule.terms ↔ m ∈ risingRule.terms) ∧
      ∀ key : PacketKey, (key.map Prod.fst).Nodup →
        ¬ (fallingRule.matchesKey key = true ∧ risingRule.matchesKey key = true) := by
  have hr : fallingAndRising.Reachable := ⟨_, _, _, none, _, rfl⟩
  have hfalling : (fallingAndRising.fabric.installed "s1#0")[0]? = some fallingRule := by decide
  have hrising : (fallingAndRising.fabric.installed "s2#1")[0]? = some risingRule := by decide
  have hfields : (fallingRule.terms.map FieldMatch.field).Perm
      (risingRule.terms.map FieldMatch.field) := List.Perm.swap _ _ _
  obtain ⟨hterms, hkey⟩ := bound_flows_never_shadow fallingAndRising hr .state (.inl rfl) "s1#0"
    "s2#1" 0 0 fallingRule risingRule hfalling hrising (by decide) rfl rfl
  exact ⟨hfalling, hrising, hterms, hkey fun f => hfields.mem_iff⟩

end Controller
end StatefulPipeline
