import Mathlib.Data.Nat.Basic
import StatefulPipeline.Encoded

/-! Encoded values read back. Bytes hold the value modulo the number of values that they tell
apart, and a field's bytes are enough for its width; so what was fitted into a width is read back
modulo that width, and a value that is not negative is read back as it was. Read by the field's
own sign, every fitted value is read back as it was, and so no two values have the same bytes. -/

namespace StatefulPipeline
namespace Encoded

theorem span_pos (width : Nat) : 0 < span width := Nat.pow_pos (by decide)

theorem span_mono {a b : Nat} (h : a ≤ b) : span a ≤ span b := Nat.pow_le_pow_right (by decide) h

theorem span_le_bytes (width : Nat) : span width ≤ Nat.pow 256 (byteCount width) := by
  have h : Nat.pow 256 (byteCount width) = span (8 * byteCount width) :=
    (Nat.pow_mul 2 8 (byteCount width)).symm
  rw [h]
  apply span_mono
  unfold byteCount
  omega

/-- Reading goes on from what was read before. -/
theorem foldl_bigEndian (count value acc : Nat) :
    (bigEndian count value).foldl (fun acc b => acc * 256 + b.toNat) acc =
      acc * Nat.pow 256 count + value % Nat.pow 256 count := by
  induction count generalizing acc with
  | zero => simp [bigEndian, Nat.mod_one]
  | succ count ih =>
    have hb : (UInt8.ofNat (value / Nat.pow 256 count)).toNat = value / Nat.pow 256 count % 256 :=
      UInt8.toNat_ofNat
    have hm : value % Nat.pow 256 (count + 1) =
        value % Nat.pow 256 count + Nat.pow 256 count * (value / Nat.pow 256 count % 256) :=
      Nat.mod_pow_succ
    have hp : Nat.pow 256 (count + 1) = Nat.pow 256 count * 256 := Nat.pow_succ 256 count
    rw [bigEndian, List.foldl_cons, ih, hb, hm, hp]
    generalize Nat.pow 256 count = p
    generalize value / p % 256 = d
    rw [Nat.add_mul, Nat.mul_comm p 256, ← Nat.mul_assoc, Nat.mul_comm d p]
    omega

theorem toNat_ofNat {value width : Nat} (h : value < span width) :
    (ofNat value width).toNat = value := by
  have hb := foldl_bigEndian (byteCount width) value 0
  have hlt : value < Nat.pow 256 (byteCount width) := Nat.lt_of_lt_of_le h (span_le_bytes width)
  rw [Nat.zero_mul, Nat.zero_add, Nat.mod_eq_of_lt hlt] at hb
  exact hb

/-- The values that a field of the given signedness and width has room for. -/
def InRange (signed : Bool) (value : Int) (width : Nat) : Prop :=
  if signed then -(span (width - 1) : Int) ≤ value ∧ value < span (width - 1)
  else 0 ≤ value ∧ value < span width

theorem InRange.lt_span {signed : Bool} {value : Int} {width : Nat}
    (h : InRange signed value width) : value < span width := by
  have hm : span (width - 1) ≤ span width := span_mono (Nat.sub_le width 1)
  cases signed with
  | false => exact h.2
  | true =>
    have hlt : value < span (width - 1) := h.2
    omega

/-- Fitting succeeds exactly for the values that there is room for, and writes them modulo the
width. -/
theorem fitAs_eq_ok_iff {signed : Bool} {value : Int} {width : Nat} {e : Encoded} :
    fitAs signed value width = .ok e ↔
      ValidWidth width ∧ InRange signed value width ∧
        e = ofNat (value % span width).toNat width := by
  cases signed with
  | true =>
    simp only [fitAs, fitSigned, InRange, if_true]
    split_ifs with hw hr
    · simp [hw, hr, eq_comm]
    · simp [hr]
    · simp [hw]
  | false =>
    simp only [fitAs, fit, InRange, Bool.false_eq_true, if_false]
    split_ifs with hw hr
    · simp [hw, hr, Int.emod_eq_of_lt hr.1 hr.2, eq_comm]
    · simp [hr]
    · simp [hw]

theorem fitAs_of_not_validWidth {signed : Bool} {value : Int} {width : Nat}
    (h : ¬ ValidWidth width) : fitAs signed value width = .error (.invalidWidth width) := by
  cases signed with
  | true => exact if_neg h
  | false => exact if_neg h

theorem fitAs_of_not_inRange {signed : Bool} {value : Int} {width : Nat} (hw : ValidWidth width)
    (h : ¬ InRange signed value width) :
    fitAs signed value width = .error (.overflow value width signed) := by
  cases signed with
  | true => exact (if_pos hw).trans (if_neg h)
  | false => exact (if_pos hw).trans (if_neg h)

theorem toNat_of_fitAs {signed : Bool} {value : Int} {width : Nat} {e : Encoded}
    (h : fitAs signed value width = .ok e) : (e.toNat : Int) = value % span width := by
  obtain ⟨_, _, rfl⟩ := fitAs_eq_ok_iff.mp h
  have hs : (0 : Int) < span width := Int.ofNat_lt.mpr (span_pos width)
  have hn : 0 ≤ value % span width := Int.emod_nonneg value (by omega)
  have hl : value % span width < span width := Int.emod_lt_of_pos value hs
  rw [toNat_ofNat (by omega)]
  omega

theorem toNat_of_fitAs_natCast {signed : Bool} {value width : Nat} {e : Encoded}
    (h : fitAs signed value width = .ok e) : e.toNat = value := by
  have hl := (fitAs_eq_ok_iff.mp h).2.1.lt_span
  have hm := toNat_of_fitAs h
  rw [Int.emod_eq_of_lt (by omega) hl] at hm
  exact Int.ofNat_inj.mp hm

theorem toNat_of_fit_natCast {value width : Nat} {e : Encoded} (h : fit value width = .ok e) :
    e.toNat = value := by
  have hf : fitAs false value width = .ok e := h
  exact toNat_of_fitAs_natCast hf

theorem toNat_lt_of_fitAs {signed : Bool} {value : Int} {width : Nat} {e : Encoded}
    (h : fitAs signed value width = .ok e) : e.toNat < span width := by
  have hs : (0 : Int) < span width := Int.ofNat_lt.mpr (span_pos width)
  have hl : value % span width < span width := Int.emod_lt_of_pos value hs
  have hm := toNat_of_fitAs h
  omega

theorem ofNat_toNat_of_fitAs {signed : Bool} {value : Int} {width : Nat} {e : Encoded}
    (h : fitAs signed value width = .ok e) : ofNat e.toNat width = e := by
  obtain ⟨_, _, he⟩ := fitAs_eq_ok_iff.mp h
  rw [← toNat_of_fitAs h, Int.toNat_natCast] at he
  exact he.symm

/-- What a magnitude stands for in a field of the given signedness and width. -/
def readAs (signed : Bool) (width n : Nat) : Int :=
  if signed then (BitVec.ofNat width n).toInt else n

/-- Of the magnitudes that a field can hold, a fitted value's own is the one that stands for it. -/
theorem readAs_eq_iff {signed : Bool} {value : Int} {width n : Nat} {e : Encoded}
    (h : fitAs signed value width = .ok e) (hn : n < span width) :
    readAs signed width n = value ↔ n = e.toNat := by
  obtain ⟨hw, hr, _⟩ := fitAs_eq_ok_iff.mp h
  have hm := toNat_of_fitAs h
  cases signed with
  | false =>
    have hv : (e.toNat : Int) = value := by rw [hm, Int.emod_eq_of_lt hr.1 hr.2]
    simp only [readAs, Bool.false_eq_true, if_false]
    omega
  | true =>
    have hword : (BitVec.ofInt width value).toNat = e.toNat := by
      rw [BitVec.toNat_ofInt]
      exact (congrArg Int.toNat hm).symm
    have hnat : (BitVec.ofNat width n).toNat = n :=
      (BitVec.toNat_ofNat n width).trans (Nat.mod_eq_of_lt hn)
    simp only [readAs, if_true]
    constructor
    · intro hv
      rw [← hv, BitVec.ofInt_toInt, hnat] at hword
      exact hword
    · intro hv
      have heq : BitVec.ofNat width n = BitVec.ofInt width value := by
        apply BitVec.eq_of_toNat_eq
        rw [hnat, hword, hv]
      have hr' : -(span (width - 1) : Int) ≤ value ∧ value < span (width - 1) := hr
      have hs : (span (width - 1) : Int) = 2 ^ (width - 1) := Int.natCast_pow 2 (width - 1)
      rw [hs] at hr'
      rw [heq]
      exact BitVec.toInt_ofInt_eq_self hw.1 hr'.1 hr'.2

theorem readAs_of_fitAs {signed : Bool} {value : Int} {width : Nat} {e : Encoded}
    (h : fitAs signed value width = .ok e) : readAs signed width e.toNat = value :=
  (readAs_eq_iff h (toNat_lt_of_fitAs h)).mpr rfl

theorem fitAs_inj {signed : Bool} {value value' : Int} {width : Nat} {e : Encoded}
    (h : fitAs signed value width = .ok e) (h' : fitAs signed value' width = .ok e) :
    value = value' := by
  rw [← readAs_of_fitAs h, readAs_of_fitAs h']

theorem testBit_top_iff {width n : Nat} (hw : 0 < width) (h : n < span width) :
    n.testBit (width - 1) = true ↔ span (width - 1) ≤ n := by
  constructor
  · intro ht
    exact Nat.ge_two_pow_of_testBit ht
  · intro hle
    apply Nat.testBit_of_two_pow_le_and_two_pow_add_one_gt hle
    rw [Nat.sub_add_cancel hw]
    exact h

theorem toInt_eq_readAs {e : Encoded} {width : Nat} (hw : ValidWidth width)
    (h : e.toNat < span width) : e.toInt width = readAs true width e.toNat := by
  have hword : (BitVec.ofNat width e.toNat).toNat = e.toNat :=
    (BitVec.toNat_ofNat e.toNat width).trans (Nat.mod_eq_of_lt h)
  obtain ⟨hpos, hle⟩ := hw
  rcases Nat.lt_or_eq_of_le hle with hlt | rfl
  · have hmsb : (BitVec.ofNat width e.toNat).msb = e.toNat.testBit (width - 1) := by
      rw [BitVec.msb_eq_decide, hword, Bool.eq_iff_iff, testBit_top_iff hpos h, decide_eq_true_eq]
      rfl
    simp only [readAs, toInt, if_true, BitVec.toInt_eq_msb_cond, hmsb, hword, hpos, hlt, true_and,
      Nat.mod_eq_of_lt h]
    split_ifs with ht
    · rfl
    · -- The sign bit is clear; at the full width the magnitude lies below the half as well.
      have hhalf : span width ≤ span 127 := span_mono (by unfold maxWidth at hlt; omega)
      have hfull : span maxWidth = 2 * span 127 := rfl
      apply Int.bmod_eq_of_le <;> omega
  · simp only [readAs, toInt, Nat.lt_irrefl, false_and, and_false, if_false, if_true]
    rw [BitVec.toInt_eq_toNat_bmod, hword]
    rfl

end Encoded
end StatefulPipeline
