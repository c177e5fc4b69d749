import Mathlib.Data.List.MinMax
import StatefulPipeline.RuleSet

/-! What a lookup finds: of the rules of its table that match the key, the first of those with the
highest priority, and nothing only if there are no such rules. Main statement: a hit is replaced by
a later rule only if that rule matches too and has a higher priority. -/

namespace StatefulPipeline

theorem idxOf_le_idxOf_iff {α : Type} [DecidableEq α] {before after : List α} {m a : α}
    (h : m ∉ before) :
    (before ++ m :: after).idxOf m ≤ (before ++ m :: after).idxOf a ↔ a ∉ before := by
  rw [List.idxOf_append_of_notMem h, List.idxOf_cons_self, Nat.add_zero]
  by_cases ha : a ∈ before
  · have hlt : before.idxOf a < before.length := List.idxOf_lt_length_of_mem ha
    rw [List.idxOf_append_of_mem ha]
    simp only [ha, not_true_eq_false, iff_false, Nat.not_le]
    exact hlt
  · rw [List.idxOf_append_of_notMem ha]
    simp [ha]

namespace Rule

theorem matchesKey_iff {rule : Rule} {key : PacketKey} :
    rule.matchesKey key = true ↔ ∀ m ∈ rule.terms, (m.field, m.value.toNat) ∈ key := by
  simp only [matchesKey, List.all_eq_true, List.any_eq_true, decide_eq_true_eq]
  constructor
  · intro h m hm
    obtain ⟨e, he, hf, hv⟩ := h m hm
    rw [← hf, ← hv]
    exact he
  · intro h m hm
    exact ⟨_, h m hm, rfl, rfl⟩

def Answers (rule : Rule) (table : Table) (key : PacketKey) : Prop :=
  rule.table = table ∧ rule.matchesKey key = true

end Rule

namespace RuleSet

variable {s : RuleSet} {table : Table} {key : PacketKey} {rule found : Rule}

theorem mem_candidates :
    rule ∈ s.candidates table key ↔ rule ∈ s.rules ∧ rule.Answers table key := by
  simp [candidates, Rule.Answers]

/-- Rules compete by their priority, and the first of equals wins. -/
theorem better_eq_argAux :
    better = List.argAux fun later earlier : Rule => earlier.priority < later.priority := by
  funext best rule
  cases best with
  | none => rfl
  | some b =>
    simp only [better, List.argAux, ← Nat.not_le]
    split_ifs <;> rfl

theorem lookup_eq_argmax (s : RuleSet) (table : Table) (key : PacketKey) :
    s.lookup table key = (s.candidates table key).argmax Rule.priority := by
  rw [lookup, better_eq_argAux]
  rfl

theorem lookup_eq_some (h : s.lookup table key = some found) :
    found ∈ s.rules ∧ found.table = table ∧ found.matchesKey key = true := by
  rw [lookup_eq_argmax] at h
  exact mem_candidates.mp (List.argmax_mem h)

theorem lookup_eq_none_iff :
    s.lookup table key = none ↔ ∀ rule ∈ s.rules, ¬ rule.Answers table key := by
  rw [lookup_eq_argmax, List.argmax_eq_none, List.eq_nil_iff_forall_not_mem]
  simp only [mem_candidates, not_and]

theorem exists_lookup_eq_some (hr : rule ∈ s.rules) (ht : rule.table = table)
    (hk : rule.matchesKey key = true) : ∃ found, s.lookup table key = some found := by
  apply Option.ne_none_iff_exists'.mp
  intro hnone
  exact lookup_eq_none_iff.mp hnone rule hr ⟨ht, hk⟩

/-- Where a hit stands among the rules: it outranks the rules before it that match, and no rule that
matches outranks it. -/
structure Hit (s : RuleSet) (table : Table) (key : PacketKey) (before : List Rule) (found : Rule)
    (after : List Rule) : Prop where
  placed : s.rules = before ++ found :: after
  answers : found.Answers table key
  outranks : ∀ rule ∈ before, rule.Answers table key → rule.priority < found.priority
  unsurpassed : ∀ rule ∈ s.rules, rule.Answers table key → rule.priority ≤ found.priority

theorem candidates_eq_of_placed {before after : List Rule} (h : s.rules = before ++ found :: after)
    (ha : found.Answers table key) :
    s.candidates table key =
      candidates ⟨before⟩ table key ++ found :: candidates ⟨after⟩ table key := by
  simp [candidates, h, ha.1, ha.2]

theorem lookup_eq_some_iff :
    s.lookup table key = some found ↔ ∃ before after, s.Hit table key before found after := by
  rw [lookup_eq_argmax, List.argmax_eq_some_iff]
  constructor
  · rintro ⟨hmem, hmax, hfirst⟩
    obtain ⟨hrules, hanswers⟩ := mem_candidates.mp hmem
    obtain ⟨before, after, hplaced, hnew⟩ := List.eq_append_cons_of_mem hrules
    have hmax' : ∀ rule ∈ s.rules, rule.Answers table key → rule.priority ≤ found.priority :=
      fun rule hr ha => hmax rule (mem_candidates.mpr ⟨hr, ha⟩)
    refine ⟨before, after, hplaced, hanswers, ?_, hmax'⟩
    intro rule hrule ha
    by_contra hle
    have hr : rule ∈ s.rules := hplaced ▸ List.mem_append_left _ hrule
    have hidx := hfirst rule (mem_candidates.mpr ⟨hr, ha⟩) (Nat.not_lt.mp hle)
    rw [candidates_eq_of_placed hplaced hanswers, idxOf_le_idxOf_iff] at hidx
    · exact hidx (mem_candidates.mpr ⟨hrule, ha⟩)
    · exact fun hm => hnew (mem_candidates.mp hm).1
  · rintro ⟨before, after, hplaced, hanswers, houtranks, hmax⟩
    have hrules : found ∈ s.rules := by simp [hplaced]
    have hlower : ∀ rule ∈ candidates ⟨before⟩ table key, rule.priority < found.priority :=
      fun rule hr => houtranks rule (mem_candidates.mp hr).1 (mem_candidates.mp hr).2
    refine ⟨mem_candidates.mpr ⟨hrules, hanswers⟩, ?_, ?_⟩
    · intro rule hr
      exact hmax rule (mem_candidates.mp hr).1 (mem_candidates.mp hr).2
    · intro rule _ hle
      rw [candidates_eq_of_placed hplaced hanswers, idxOf_le_idxOf_iff]
      · exact fun hm => absurd (hlower rule hm) (Nat.not_lt.mpr hle)
      · exact fun hm => absurd (hlower found hm) (Nat.lt_irrefl _)

theorem foldl_install (later : List Rule) (s : RuleSet) :
    later.foldl install s = ⟨s.rules ++ later⟩ := by
  induction later generalizing s with
  | nil => simp
  | cons rule later ih =>
    rw [List.foldl_cons, ih, install]
    simp

/-- A hit stays exactly if no later rule that matches outranks it. -/
theorem lookup_foldl_install_iff {later : List Rule} (h : s.lookup table key = some found) :
    (later.foldl install s).lookup table key = some found ↔
      ∀ rule ∈ later, rule.Answers table key → rule.priority ≤ found.priority := by
  rw [foldl_install]
  constructor
  · intro hstays rule hr
    obtain ⟨_, _, hit⟩ := lookup_eq_some_iff.mp hstays
    exact hit.unsurpassed rule (List.mem_append_right _ hr)
  · intro hlower
    obtain ⟨before, after, hit⟩ := lookup_eq_some_iff.mp h
    refine lookup_eq_some_iff.mpr ⟨before, after ++ later, ?_, hit.answers, hit.outranks, ?_⟩
    · simp [hit.placed]
    · intro rule hr ha
      rcases List.mem_append.mp hr with hr | hr
      · exact hit.unsurpassed rule hr ha
      · exact hlower rule hr ha

/-- A lookup finds the first of the highest priority, and only a higher one takes its place. -/
theorem lookup_finds_first_of_highest_priority (s : RuleSet) (table : Table) (key : PacketKey) :
    (s.lookup table key = none ↔ ∀ rule ∈ s.rules, ¬ rule.Answers table key) ∧
      (∀ found, s.lookup table key = some found ↔
        ∃ before after, s.Hit table key before found after) ∧
      ∀ (found : Rule) (later : List Rule), s.lookup table key = some found →
        ((later.foldl install s).lookup table key = some found ↔
          ∀ rule ∈ later, rule.Answers table key → rule.priority ≤ found.priority) :=
  ⟨lookup_eq_none_iff, fun _ => lookup_eq_some_iff, fun _ _ => lookup_foldl_install_iff⟩

def protocol : FieldRef := ⟨"ipv4", "protocol"⟩

/-- Rules that stand in each other's way: two of the same priority, one of them without terms, and
rules that a key of the forward table does not see. -/
def tied : RuleSet where
  rules :=
    [⟨.forward, [], .named Name.alert, 5⟩, ⟨.forward, [⟨protocol, ⟨[6]⟩⟩], .named Name.drop, 7⟩,
      ⟨.state, [], .named Name.alert, 9⟩, ⟨.forward, [], .named Name.sendToCpu, 7⟩,
      ⟨.forward, [⟨protocol, ⟨[17]⟩⟩], .named Name.alert, 8⟩]

/-- A key with a field twice hits the first of two equals, until a rule of higher priority comes. -/
theorem tied_hit_stays :
    tied.lookup .forward [(protocol, 1), (protocol, 6)] =
        some ⟨.forward, [⟨protocol, ⟨[6]⟩⟩], .named Name.drop, 7⟩ ∧
      ([⟨.forward, [], .named Name.alert, 7⟩,
          ⟨.forward, [⟨protocol, ⟨[2]⟩⟩], .named Name.alert, 9⟩].foldl install tied).lookup
          .forward [(protocol, 1), (protocol, 6)] =
        some ⟨.forward, [⟨protocol, ⟨[6]⟩⟩], .named Name.drop, 7⟩ ∧
      ([⟨.forward, [⟨protocol, ⟨[0, 1]⟩⟩], .named Name.alert, 8⟩].foldl install tied).lookup
          .forward [(protocol, 1), (protocol, 6)] ≠
        some ⟨.forward, [⟨protocol, ⟨[6]⟩⟩], .named Name.drop, 7⟩ := by
  have hit : tied.lookup .forward [(protocol, 1), (protocol, 6)] =
      some ⟨.forward, [⟨protocol, ⟨[6]⟩⟩], .named Name.drop, 7⟩ := by decide
  obtain ⟨_, _, hstays⟩ :=
    lookup_finds_first_of_highest_priority tied .forward [(protocol, 1), (protocol, 6)]
  refine ⟨hit, (hstays _ _ hit).mpr ?_, ?_⟩
  · simp [Rule.Answers, Rule.matchesKey, protocol, Encoded.toNat]
  · rw [Ne, hstays _ _ hit]
    simp [Rule.Answers, Rule.matchesKey, protocol, Encoded.toNat]

end RuleSet
end StatefulPipeline
