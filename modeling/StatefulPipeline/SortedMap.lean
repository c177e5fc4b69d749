import StatefulPipeline.Key

/-! Finite maps as lists of entries in ascending key order. A map has one representation, so two
maps with the same answers are equal, and listing a map lists its keys in order. -/

namespace StatefulPipeline

/-- A finite map, its entries in strictly ascending order of their keys. -/
structure SortedMap (κ ν : Type) [Key κ] where
  entries : List (κ × ν)
  sorted : entries.Pairwise fun a b => Key.before a.1 b.1 = true

namespace SortedMap

def seek {κ ν : Type} [DecidableEq κ] (k : κ) : List (κ × ν) → Option ν
  | [] => none
  | e :: es => if e.1 = k then some e.2 else seek k es

theorem seek_eq_none {κ ν : Type} [DecidableEq κ] {k : κ} {es : List (κ × ν)}
    (h : ∀ e ∈ es, e.1 ≠ k) : seek k es = none := by
  induction es with
  | nil => rfl
  | cons e es ih =>
    have ⟨h₁, h₂⟩ := List.forall_mem_cons.1 h
    simp [seek, h₁, ih h₂]

variable {κ ν : Type} [Key κ]

instance [DecidableEq κ] [DecidableEq ν] : DecidableEq (SortedMap κ ν) := fun a b =>
  if h : a.entries = b.entries then
    isTrue (by cases a; cases b; simp only at h; subst h; rfl)
  else isFalse fun e => h (congrArg entries e)

def empty : SortedMap κ ν := ⟨[], .nil⟩

instance : EmptyCollection (SortedMap κ ν) := ⟨empty⟩

/-- Sets the value of one key in a list of entries. -/
def put (k : κ) (v : ν) : List (κ × ν) → List (κ × ν)
  | [] => [(k, v)]
  | e :: es =>
    if Key.before e.1 k then e :: put k v es
    else if Key.before k e.1 then (k, v) :: e :: es
    else (k, v) :: es

theorem mem_put {k : κ} {v : ν} {x : κ × ν} {es : List (κ × ν)} (h : x ∈ put k v es) :
    x = (k, v) ∨ x ∈ es := by
  induction es with
  | nil => simpa [put] using h
  | cons e es ih =>
    rw [put] at h
    split at h
    · rcases List.mem_cons.1 h with h | h
      · exact .inr (h ▸ List.mem_cons_self)
      · exact (ih h).imp_right (List.mem_cons_of_mem e)
    · split at h
      · exact List.mem_cons.1 h
      · exact (List.mem_cons.1 h).imp_right (List.mem_cons_of_mem e)

theorem put_sorted {k : κ} {v : ν} {es : List (κ × ν)}
    (h : es.Pairwise fun a b => Key.before a.1 b.1 = true) :
    (put k v es).Pairwise fun a b => Key.before a.1 b.1 = true := by
  induction es with
  | nil => simp [put]
  | cons e es ih =>
    have ⟨hd, tl⟩ := List.pairwise_cons.1 h
    rw [put]
    split
    · rename_i hek
      refine List.pairwise_cons.2 ⟨fun x hx => ?_, ih tl⟩
      rcases mem_put hx with rfl | hx
      · exact hek
      · exact hd x hx
    · split
      · rename_i hke
        refine List.pairwise_cons.2 ⟨fun x hx => ?_, h⟩
        rcases List.mem_cons.1 hx with rfl | hx
        · exact hke
        · exact Key.trans hke (hd x hx)
      · rename_i h₁ h₂
        have e' : e.1 = k := Key.linear (by simpa using h₁) (by simpa using h₂)
        exact List.pairwise_cons.2 ⟨fun x hx => e' ▸ hd x hx, tl⟩

def insert (m : SortedMap κ ν) (k : κ) (v : ν) : SortedMap κ ν :=
  ⟨put k v m.entries, put_sorted m.sorted⟩

variable [DecidableEq κ]

def get? (m : SortedMap κ ν) (k : κ) : Option ν := seek k m.entries

def contains (m : SortedMap κ ν) (k : κ) : Bool := (m.get? k).isSome

def toList (m : SortedMap κ ν) : List (κ × ν) := m.entries

def values (m : SortedMap κ ν) : List ν := m.entries.map Prod.snd

@[simp] theorem get?_empty (k : κ) : (empty : SortedMap κ ν).get? k = none := rfl

theorem seek_put (k k' : κ) (v : ν) (es : List (κ × ν)) :
    seek k' (put k v es) = if k = k' then some v else seek k' es := by
  induction es with
  | nil => rfl
  | cons e es ih =>
    rw [put]
    split
    · rename_i hek
      have hne := Key.ne_of_before hek
      simp only [seek, ih]
      by_cases h : e.1 = k'
      · simp [h, show ¬ k = k' from fun hk => hne (h.trans hk.symm)]
      · simp [h]
    · split
      · rfl
      · rename_i h₁ h₂
        have he : e.1 = k := Key.linear (by simpa using h₁) (by simpa using h₂)
        by_cases h : k = k' <;> simp [seek, he, h]

@[simp] theorem get?_insert (m : SortedMap κ ν) (k k' : κ) (v : ν) :
    (m.insert k v).get? k' = if k = k' then some v else m.get? k' :=
  seek_put k k' v m.entries

theorem ext_get? {m m' : SortedMap κ ν} (h : ∀ k, m.get? k = m'.get? k) : m = m' := by
  obtain ⟨es, s⟩ := m
  obtain ⟨es', s'⟩ := m'
  simp only [get?] at h
  suffices es = es' by subst this; rfl
  induction es generalizing es' with
  | nil =>
    cases es' with
    | nil => rfl
    | cons e es' => simpa [seek] using h e.1
  | cons e es ih =>
    cases es' with
    | nil => simpa [seek] using h e.1
    | cons e' es' =>
      have ⟨hd, tl⟩ := List.pairwise_cons.1 s
      have ⟨hd', tl'⟩ := List.pairwise_cons.1 s'
      have absent {a b : κ × ν} {bs : List (κ × ν)}
          (hb : ∀ x ∈ bs, Key.before b.1 x.1 = true) (hab : Key.before a.1 b.1 = true) :
          seek a.1 (b :: bs) = none :=
        seek_eq_none fun x hx => by
          rcases List.mem_cons.1 hx with rfl | hx
          · exact (Key.ne_of_before hab).symm
          · exact (Key.ne_of_before (Key.trans hab (hb x hx))).symm
      have hk : e.1 = e'.1 := by
        cases h₁ : Key.before e.1 e'.1 with
        | true =>
          have := h e.1
          rw [absent hd' h₁] at this
          simp [seek] at this
        | false =>
          cases h₂ : Key.before e'.1 e.1 with
          | true =>
            have := h e'.1
            rw [absent hd h₂] at this
            simp [seek] at this
          | false => exact Key.linear h₁ h₂
      have hv : e.2 = e'.2 := by simpa [seek, hk] using h e.1
      have he : e = e' := Prod.ext hk hv
      subst he
      congr 1
      refine ih tl es' tl' fun k => ?_
      by_cases hek : e.1 = k
      · subst hek
        rw [seek_eq_none fun x hx => (Key.ne_of_before (hd x hx)).symm,
          seek_eq_none fun x hx => (Key.ne_of_before (hd' x hx)).symm]
      · simpa [seek, hek] using h k

end SortedMap

end StatefulPipeline
