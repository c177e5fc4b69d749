import Mathlib
import StatefulPipeline.Proofs.CompiledRules

/-! What a compiled selector asks of a packet. A term compares magnitudes, and a field's magnitudes
stand for its values one to one; so on the packets that the fields can describe a compiled rule
matches exactly if every criterion of the selector holds, negative values included. -/

namespace StatefulPipeline
namespace Schema

variable {schema : Schema}

/-- A term is in the key exactly if the key gives its field the value that was compiled. -/
theorem entry_mem_iff_of_exact {field : FieldRef} {value : Int} {m : FieldMatch} {key : PacketKey}
    (h : schema.exact field value = .ok m)
    (hkey : ∀ n spec, (field, n) ∈ key → schema.field field = .ok spec →
      n < 2 ^ spec.width.toNat) :
    m.entry ∈ key ↔
      ∃ spec n, schema.field field = .ok spec ∧ (field, n) ∈ key ∧
        Encoded.readAs spec.signed spec.width.toNat n = value := by
  obtain ⟨rfl, spec, hspec, hfit⟩ := exact_eq_ok_iff.mp h
  constructor
  · intro hm
    exact ⟨spec, m.value.toNat, hspec, hm, Encoded.readAs_of_fitAs hfit⟩
  · rintro ⟨spec', n, hspec', hn, hv⟩
    obtain rfl : spec = spec' := Except.ok.inj (hspec.symm.trans hspec')
    have he : n = m.value.toNat := (Encoded.readAs_eq_iff hfit (hkey n spec hn hspec)).mp hv
    rw [he] at hn
    exact hn

theorem matchesKey_iff_of_exactAll {terms : List (FieldRef × Int)} {rule : Rule} {key : PacketKey}
    (h : schema.exactAll terms = .ok rule.terms)
    (hkey : ∀ field n spec, (field, n) ∈ key → schema.field field = .ok spec →
      n < 2 ^ spec.width.toNat) :
    rule.matchesKey key = true ↔
      ∀ t ∈ terms, ∃ spec n, schema.field t.1 = .ok spec ∧ (t.1, n) ∈ key ∧
        Encoded.readAs spec.signed spec.width.toNat n = t.2 := by
  obtain ⟨hterm, hsource⟩ := exactAll_covers h
  rw [Rule.matchesKey_iff]
  constructor
  · intro hm t ht
    obtain ⟨m, hmem, he⟩ := hterm t ht
    exact (entry_mem_iff_of_exact he (hkey t.1)).mp (hm m hmem)
  · intro ht m hm
    obtain ⟨t, hmem, he⟩ := hsource m hm
    exact (entry_mem_iff_of_exact he (hkey t.1)).mpr (ht t hmem)

/-- The rules of a selector match the packets that meet its criteria. -/
theorem compiled_selector_matches_its_criteria (schema : Schema) (selector : Selector)
    (rule : Rule) (key : PacketKey)
    (hrule : (∃ action target register,
        schema.compileLookup selector action target register = .ok rule) ∨
      ∃ port, schema.compileForward selector port = .ok rule)
    (hkey : ∀ field n spec, (field, n) ∈ key → schema.field field = .ok spec →
      n < 2 ^ spec.width.toNat) :
    rule.matchesKey key = true ↔
      ∀ c ∈ selector.criteria, ∃ spec n, schema.field c.ref = .ok spec ∧ (c.ref, n) ∈ key ∧
        (if spec.signed then (BitVec.ofNat spec.width.toNat n).toInt else n) = c.value := by
  have hterms : schema.exactAll selector.terms = .ok rule.terms := by
    rcases hrule with ⟨action, target, register, h⟩ | ⟨port, h⟩
    · exact (selectorTerms_eq_ok_iff.mp (compileLookup_eq_ok h).2).2.2
    · exact (selectorTerms_eq_ok_iff.mp (compileForward_eq_ok h).2).2.2
  rw [matchesKey_iff_of_exactAll hterms hkey]
  exact List.forall_mem_map

/-- A signed field of twelve bits beside the port that traffic came in by. -/
def signedDelta : Schema :=
  accept
    [.field ⟨"flow", "delta"⟩ ⟨12, true⟩, .field ⟨"standard_metadata", "ingress_port"⟩ ⟨9, false⟩,
      .action ⟨Name.lookupByNothing, [⟨Name.targetId, 16⟩, ⟨Name.registerId, 16⟩]⟩]

def falling : Selector := ⟨[.inPort 3, .field ⟨"flow", "delta"⟩ (-2)]⟩

def deltaKey (delta : Nat) : PacketKey :=
  [(⟨"flow", "delta"⟩, delta), (⟨"ipv4", "ttl"⟩, 64), (⟨"standard_metadata", "ingress_port"⟩, 3)]

theorem falling_matches :
    ∃ rule, signedDelta.compileLookup falling Name.lookupByNothing 2 7 = .ok rule ∧
      rule.matchesKey (deltaKey 4094) = true ∧ ¬ rule.matchesKey (deltaKey 2) = true := by
  have hkey (delta : Nat) (hd : delta < 2 ^ 12) : ∀ field n spec, (field, n) ∈ deltaKey delta →
      signedDelta.field field = .ok spec → n < 2 ^ spec.width.toNat := by
    intro field n spec hn hspec
    simp only [deltaKey, List.mem_cons, Prod.mk.injEq, List.not_mem_nil, or_false] at hn
    rcases hn with ⟨rfl, rfl⟩ | ⟨rfl, rfl⟩ | ⟨rfl, rfl⟩
    · obtain rfl : (⟨12, true⟩ : FieldSpec) = spec := Except.ok.inj hspec
      exact hd
    · exact absurd hspec (by intro h; cases h)
    · obtain rfl : (⟨9, false⟩ : FieldSpec) = spec := Except.ok.inj hspec
      decide
  obtain ⟨rule, hrule⟩ : ∃ rule,
      signedDelta.compileLookup falling Name.lookupByNothing 2 7 = .ok rule := ⟨_, rfl⟩
  have hiff (delta : Nat) (hd : delta < 2 ^ 12) :=
    compiled_selector_matches_its_criteria signedDelta falling rule (deltaKey delta)
      (.inl ⟨_, _, _, hrule⟩) (hkey delta hd)
  refine ⟨rule, hrule, (hiff 4094 (by decide)).mpr ?_, fun hm => ?_⟩
  · simp only [falling, List.forall_mem_cons]
    refine ⟨⟨⟨9, false⟩, 3, rfl, by decide, rfl⟩, ⟨⟨12, true⟩, 4094, rfl, by decide, by decide⟩, ?_⟩
    simp
  · obtain ⟨spec, n, hspec, hn, hv⟩ := (hiff 2 (by decide)).mp hm (.field ⟨"flow", "delta"⟩ (-2))
      (by decide)
    obtain rfl : (⟨12, true⟩ : FieldSpec) = spec := Except.ok.inj hspec
    obtain rfl : n = 2 := by simpa [deltaKey, Criterion.ref] using hn
    exact absurd hv (by decide)

end Schema
end StatefulPipeline
