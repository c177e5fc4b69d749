import Mathlib.Data.List.Sort
import StatefulPipeline.SortedMap

/-! Sorted lists and maps. A list in ascending order is determined by its members, so a list has one
sorted form, whatever order its members come in; and a map answers with a value exactly if the entry
is listed. -/

namespace StatefulPipeline

namespace Key

variable {α : Type} [Key α]

instance : Std.Total fun a b : α => before b a = false where
  total a b := by
    cases h : before b a with
    | false => exact .inl rfl
    | true => exact .inr (asymm h)

instance : IsTrans α fun a b => before b a = false where
  trans a b c hab hbc := by
    rw [Bool.eq_false_iff]
    intro hca
    cases h : before a b with
    | true => simp [trans hca h] at hbc
    | false =>
      obtain rfl := linear h hab
      simp [hca] at hbc

theorem place_eq_orderedInsert (a : α) (bs : List α) :
    place a bs = bs.orderedInsert (fun a b => before b a = false) a := by
  induction bs with
  | nil => rfl
  | cons b bs ih =>
    rw [place, ih, List.orderedInsert_cons]
    cases before b a <;> rfl

theorem sort_eq_insertionSort (as : List α) :
    sort as = as.insertionSort fun a b => before b a = false := by
  induction as with
  | nil => rfl
  | cons a as ih => rw [sort, ih, place_eq_orderedInsert, List.insertionSort_cons]

/-- Two lists have the same sorted form exactly when they hold the same members equally often. -/
theorem sort_eq_iff_perm {as bs : List α} : sort as = sort bs ↔ as.Perm bs := by
  rw [sort_eq_insertionSort, sort_eq_insertionSort]
  have ha := List.perm_insertionSort (fun a b : α => before b a = false) as
  have hb := List.perm_insertionSort (fun a b : α => before b a = false) bs
  constructor
  · intro h
    exact ha.symm.trans (h ▸ hb)
  · intro h
    exact List.Perm.eq_of_pairwise (fun _ _ _ _ hab hba => linear hba hab)
      (List.pairwise_insertionSort _ as) (List.pairwise_insertionSort _ bs)
      (ha.trans (h.trans hb.symm))

end Key

theorem Key.eq_of_mem_iff {α κ : Type} [Key κ] (key : α → κ) {as bs : List α}
    (ha : as.Pairwise fun a b => before (key a) (key b) = true)
    (hb : bs.Pairwise fun a b => before (key a) (key b) = true) (h : ∀ a, a ∈ as ↔ a ∈ bs) :
    as = bs := by
  have : Std.Irrefl fun a b : α => before (key a) (key b) = true :=
    ⟨fun a => by simp [irrefl]⟩
  have : Std.Antisymm fun a b : α => before (key a) (key b) = true :=
    ⟨fun a b hab hba => by simp [asymm hab] at hba⟩
  exact ha.eq_of_mem_iff hb h

namespace SortedMap

variable {κ ν : Type} [Key κ]

/-- The entries whose keys lie between two keys or are one of them, in ascending order. -/
def range (m : SortedMap κ ν) (low high : κ) : List (κ × ν) :=
  m.toList.filter fun e => !Key.before e.1 low && !Key.before high e.1

theorem mem_range {m : SortedMap κ ν} {low high : κ} {e : κ × ν} :
    e ∈ m.range low high ↔
      e ∈ m.toList ∧ Key.before e.1 low = false ∧ Key.before high e.1 = false := by
  simp [range]

theorem range_sorted (m : SortedMap κ ν) (low high : κ) :
    (m.range low high).Pairwise fun a b => Key.before a.1 b.1 = true :=
  m.sorted.filter _

variable [DecidableEq κ]

theorem seek_eq_some_iff {k : κ} {v : ν} {es : List (κ × ν)}
    (h : es.Pairwise fun a b => Key.before a.1 b.1 = true) :
    seek k es = some v ↔ (k, v) ∈ es := by
  induction es with
  | nil => simp [seek]
  | cons e es ih =>
    obtain ⟨hd, tl⟩ := List.pairwise_cons.mp h
    rw [seek, List.mem_cons]
    split_ifs with hk
    · subst hk
      have hne : (e.1, v) ∉ es := fun hm => Key.ne_of_before (hd _ hm) rfl
      simp [hne, Prod.ext_iff, eq_comm]
    · have hne : (k, v) ≠ e := fun he => hk (congrArg Prod.fst he).symm
      simp [hne, ih tl]

theorem get?_eq_some_iff {m : SortedMap κ ν} {k : κ} {v : ν} :
    m.get? k = some v ↔ (k, v) ∈ m.toList :=
  seek_eq_some_iff m.sorted

theorem contains_eq_false_iff {m : SortedMap κ ν} {k : κ} :
    m.contains k = false ↔ m.get? k = none := by
  simp [contains]

end SortedMap

end StatefulPipeline
