/-! Strict linear orders on the types that index tables: machine words, characters, texts and
pairs. Texts are compared character by character, by code point. -/

namespace StatefulPipeline

/-- A type whose values stand in a strict linear order that can be computed. -/
class Key (α : Type) where
  before : α → α → Bool
  irrefl : ∀ a, before a a = false
  trans : ∀ {a b c}, before a b = true → before b c = true → before a c = true
  linear : ∀ {a b}, before a b = false → before b a = false → a = b

namespace Key

theorem asymm {α : Type} [Key α] {a b : α} (h : before a b = true) : before b a = false := by
  cases hb : before b a with
  | false => rfl
  | true => exact absurd (trans h hb) (by simp [irrefl])

theorem ne_of_before {α : Type} [Key α] {a b : α} (h : before a b = true) : a ≠ b := by
  intro e
  rw [e, irrefl] at h
  exact Bool.noConfusion h

@[reducible] def ofNat {α : Type} (f : α → Nat) (inj : ∀ a b, f a = f b → a = b) : Key α where
  before a b := decide (f a < f b)
  irrefl a := by simp
  trans h₁ h₂ := by
    simp only [decide_eq_true_eq] at *
    omega
  linear h₁ h₂ := by
    simp only [decide_eq_false_iff_not] at *
    exact inj _ _ (by omega)

instance : Key UInt8 := ofNat UInt8.toNat fun _ _ => UInt8.toNat_inj.1
instance : Key UInt16 := ofNat UInt16.toNat fun _ _ => UInt16.toNat_inj.1
instance : Key UInt32 := ofNat UInt32.toNat fun _ _ => UInt32.toNat_inj.1
instance : Key Char := ofNat Char.toNat fun _ _ => Char.toNat_inj.1

instance : Key Int where
  before a b := decide (a < b)
  irrefl a := by simp
  trans h₁ h₂ := by
    simp only [decide_eq_true_eq] at *
    omega
  linear h₁ h₂ := by
    simp only [decide_eq_false_iff_not] at *
    omega

/-- Pairs go by the first component, then by the second. -/
def pairBefore {α β : Type} [Key α] [Key β] (a b : α × β) : Bool :=
  before a.1 b.1 || (!before b.1 a.1 && before a.2 b.2)

theorem pairBefore_iff {α β : Type} [Key α] [Key β] {a b : α × β} :
    pairBefore a b = true ↔
      before a.1 b.1 = true ∨ (a.1 = b.1 ∧ before a.2 b.2 = true) := by
  unfold pairBefore
  cases h₁ : before a.1 b.1 with
  | true => simp
  | false =>
    cases h₂ : before b.1 a.1 with
    | true =>
      have := ne_of_before h₂
      simp [Ne.symm this]
    | false => simp [linear h₁ h₂]

instance {α β : Type} [Key α] [Key β] : Key (α × β) where
  before := pairBefore
  irrefl a := by simp [pairBefore, irrefl]
  trans {a b c} h₁ h₂ := by
    rw [pairBefore_iff] at *
    rcases h₁ with h₁ | ⟨e₁, h₁⟩ <;> rcases h₂ with h₂ | ⟨e₂, h₂⟩
    · exact .inl (trans h₁ h₂)
    · exact .inl (e₂ ▸ h₁)
    · exact .inl (e₁ ▸ h₂)
    · exact .inr ⟨e₁.trans e₂, trans h₁ h₂⟩
  linear {a b} h₁ h₂ := by
    have n₁ : ¬ pairBefore a b = true := by simp [h₁]
    have n₂ : ¬ pairBefore b a = true := by simp [h₂]
    simp only [pairBefore_iff, not_or, not_and, Bool.not_eq_true] at n₁ n₂
    have e := linear n₁.1 n₂.1
    exact Prod.ext e (linear (n₁.2 e) (n₂.2 e.symm))

/-- Lists go by their first difference, and a list goes before its proper extensions. -/
def listBefore {α : Type} [Key α] : List α → List α → Bool
  | _, [] => false
  | [], _ :: _ => true
  | a :: as, b :: bs => before a b || (!before b a && listBefore as bs)

theorem listBefore_cons_iff {α : Type} [Key α] {a b : α} {as bs : List α} :
    listBefore (a :: as) (b :: bs) = true ↔
      before a b = true ∨ (a = b ∧ listBefore as bs = true) := by
  rw [listBefore]
  cases h₁ : before a b with
  | true => simp
  | false =>
    cases h₂ : before b a with
    | true =>
      have := ne_of_before h₂
      simp [Ne.symm this]
    | false => simp [linear h₁ h₂]

theorem listBefore_irrefl {α : Type} [Key α] : ∀ as : List α, listBefore as as = false
  | [] => rfl
  | a :: as => by simp [listBefore, irrefl, listBefore_irrefl as]

theorem listBefore_trans {α : Type} [Key α] : ∀ {as bs cs : List α},
    listBefore as bs = true → listBefore bs cs = true → listBefore as cs = true
  | _, [], _, h, _ => by simp [listBefore] at h
  | _, _ :: _, [], _, h => by simp [listBefore] at h
  | [], _ :: _, _ :: _, _, _ => rfl
  | a :: as, b :: bs, c :: cs, h₁, h₂ => by
    rw [listBefore_cons_iff] at *
    rcases h₁ with h₁ | ⟨e₁, h₁⟩ <;> rcases h₂ with h₂ | ⟨e₂, h₂⟩
    · exact .inl (trans h₁ h₂)
    · exact .inl (e₂ ▸ h₁)
    · exact .inl (e₁ ▸ h₂)
    · exact .inr ⟨e₁.trans e₂, listBefore_trans h₁ h₂⟩

theorem listBefore_linear {α : Type} [Key α] : ∀ {as bs : List α},
    listBefore as bs = false → listBefore bs as = false → as = bs
  | [], [], _, _ => rfl
  | [], _ :: _, h, _ => by simp [listBefore] at h
  | _ :: _, [], _, h => by simp [listBefore] at h
  | a :: as, b :: bs, h₁, h₂ => by
    have n₁ : ¬ listBefore (a :: as) (b :: bs) = true := by simp [h₁]
    have n₂ : ¬ listBefore (b :: bs) (a :: as) = true := by simp [h₂]
    simp only [listBefore_cons_iff, not_or, not_and, Bool.not_eq_true] at n₁ n₂
    have e := linear n₁.1 n₂.1
    rw [e, listBefore_linear (n₁.2 e) (n₂.2 e.symm)]

instance {α : Type} [Key α] : Key (List α) where
  before := listBefore
  irrefl := listBefore_irrefl
  trans := listBefore_trans
  linear := listBefore_linear

@[reducible] def along {α β : Type} [Key β] (f : α → β) (inj : ∀ a b, f a = f b → a = b) :
    Key α where
  before a b := before (f a) (f b)
  irrefl a := irrefl (f a)
  trans h₁ h₂ := trans h₁ h₂
  linear h₁ h₂ := inj _ _ (linear h₁ h₂)

instance : Key String := along String.toList fun _ _ => String.toList_inj.1

/-- Puts a value before the first member that does not go before it. -/
def place {α : Type} [Key α] (a : α) : List α → List α
  | [] => [a]
  | b :: bs => if before b a then b :: place a bs else a :: b :: bs

/-- The members of a list in ascending order, repeats kept; an insertion sort, so that it evaluates
on closed lists. -/
def sort {α : Type} [Key α] : List α → List α
  | [] => []
  | a :: as => place a (sort as)

end Key

end StatefulPipeline
