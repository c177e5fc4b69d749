import Mathlib
import StatefulPipeline.Proofs.Encoding

/-! The encoder in machine words. A value is a word of 128 bits here: how many bits it needs is told
by its leading zeros, the bounds of a signed field come from a shift, a negative value is cut down
by a mask, and the bytes are the end of a buffer of sixteen. Every shift, negation and difference
is done exactly and then has to lie in the type of the operation. Main statement: none of them ever
fails, and the encoder in words accepts, refuses and writes as `Encoded.fitAs` does, which is exact
and is undone by reading. -/

namespace StatefulPipeline

/-- A type of machine integers, by the least and the greatest of them. -/
structure WordType where
  least : Int
  greatest : Int
deriving DecidableEq, Repr

namespace WordType

def unsigned (bits : Nat) : WordType := ⟨0, 2 ^ bits - 1⟩

def signed (bits : Nat) : WordType := ⟨-2 ^ (bits - 1), 2 ^ (bits - 1) - 1⟩

/-- The exact result of an operation, unless it leaves the type. -/
def keep (τ : WordType) (exact : Int) : Option Int :=
  if τ.least ≤ exact ∧ exact ≤ τ.greatest then some exact else none

theorem keep_eq_some {τ : WordType} {exact : Int} (hl : τ.least ≤ exact)
    (hg : exact ≤ τ.greatest) : τ.keep exact = some exact :=
  if_pos ⟨hl, hg⟩

theorem keep_unsigned {bits : Nat} {exact : Int} (hl : 0 ≤ exact) (hg : exact < 2 ^ bits) :
    (unsigned bits).keep exact = some exact :=
  keep_eq_some hl (Int.le_sub_one_of_lt hg)

theorem keep_signed {bits : Nat} {exact : Int} (hl : -2 ^ (bits - 1) ≤ exact)
    (hg : exact < 2 ^ (bits - 1)) : (signed bits).keep exact = some exact :=
  keep_eq_some hl (Int.le_sub_one_of_lt hg)

end WordType

namespace InWords

open Encoded WordType

def bitsRequired (n : BitVec 128) : Option Int := (unsigned 32).keep (128 - n.clz.toNat)

/-- The last bytes of a word of sixteen, as many as the width needs. -/
def lastBytes (n : BitVec 128) (width : Nat) : Option Encoded := do
  let skipped ← (unsigned 64).keep (16 - byteCount width)
  return ⟨(bigEndian 16 n.toNat).drop skipped.toNat⟩

def mask (width : Nat) : Option (BitVec 128) :=
  if maxWidth ≤ width then some (BitVec.allOnes 128)
  else do
    let next ← (unsigned 128).keep (2 ^ width)
    let ones ← (unsigned 128).keep (next - 1)
    return BitVec.ofInt 128 ones

/-- The least and the greatest value of a signed field; the full width is a case of its own. -/
def bounds (width : Nat) : Option (Int × Int) :=
  if width = maxWidth then some ((signed 128).least, (signed 128).greatest)
  else do
    let places ← (unsigned 32).keep (width - 1)
    let half ← (signed 128).keep (2 ^ places.toNat)
    let least ← (signed 128).keep (-half)
    let greatest ← (signed 128).keep (half - 1)
    return (least, greatest)

def fit (value : Int) (width : Nat) : Option (Except EncodeError Encoded) :=
  if width = 0 ∨ maxWidth < width then some (.error (.invalidWidth width))
  else if value < 0 then some (.error (.overflow value width false))
  else do
    let bits ← bitsRequired (BitVec.ofInt 128 value)
    if width < bits then return .error (.overflow value width false)
    else return .ok (← lastBytes (BitVec.ofInt 128 value) width)

def fitSigned (value : Int) (width : Nat) : Option (Except EncodeError Encoded) :=
  if width = 0 ∨ maxWidth < width then some (.error (.invalidWidth width))
  else do
    let (least, greatest) ← bounds width
    if value < least ∨ greatest < value then return .error (.overflow value width true)
    else return .ok (← lastBytes (BitVec.ofInt 128 value &&& (← mask width)) width)

def fitAs (signed : Bool) (value : Int) (width : Nat) : Option (Except EncodeError Encoded) :=
  if signed then fitSigned value width else fit value width

def push (acc : Int) (b : UInt8) : Option Int := do
  let moved ← (unsigned 128).keep (acc * 2 ^ 8)
  return (moved.toNat ||| b.toNat : Nat)

def toNat (e : Encoded) : Option Int := e.bytes.foldlM push 0

/-- Reads a two's complement number; a set sign bit is spread over the bits above it. -/
def toInt (e : Encoded) (width : Nat) : Option Int := do
  let word := BitVec.ofInt 128 (← toNat e)
  if width = 0 ∨ maxWidth ≤ width then return word.toInt
  else
    let places ← (unsigned 32).keep (width - 1)
    let sign ← (unsigned 128).keep (2 ^ places.toNat)
    if word &&& BitVec.ofInt 128 sign = 0 then return word.toInt
    else return (word ||| ~~~ (← mask width)).toInt

theorem span_eq (width : Nat) : span width = 2 ^ width := rfl

theorem byteCount_le {width : Nat} (h : width ≤ maxWidth) : byteCount width ≤ 16 := by
  unfold byteCount maxWidth at *
  omega

theorem drop_bigEndian (skipped count value : Nat) :
    (bigEndian (skipped + count) value).drop skipped = bigEndian count value := by
  induction skipped with
  | zero => simp
  | succ skipped ih =>
    rw [Nat.add_right_comm, bigEndian, List.drop_succ_cons]
    exact ih

theorem lastBytes_eq {n : BitVec 128} {width : Nat} (h : width ≤ maxWidth) :
    lastBytes n width = some (ofNat n.toNat width) := by
  have hb := byteCount_le h
  have hk : (unsigned 64).keep (16 - byteCount width) = some (16 - byteCount width : Int) :=
    keep_unsigned (by omega) (by omega)
  have hs : (16 - byteCount width : Int).toNat = 16 - byteCount width := by omega
  have hd := drop_bigEndian (16 - byteCount width) (byteCount width) n.toNat
  rw [Nat.sub_add_cancel hb] at hd
  simp only [lastBytes, hk, Option.bind_eq_bind, Option.bind_some, hs, hd]
  rfl

theorem clz_le_width (n : BitVec 128) : n.clz.toNat ≤ 128 := by
  have h := BitVec.le_def.mp (BitVec.clz_le (x := n))
  simpa using h

theorem bitsRequired_eq (n : BitVec 128) : bitsRequired n = some (128 - n.clz.toNat : Int) := by
  have h := clz_le_width n
  exact keep_unsigned (by omega) (by omega)

theorem bits_le_iff {n : BitVec 128} {width : Nat} :
    128 - n.clz.toNat ≤ width ↔ n.toNat < span width := by
  have hc := clz_le_width n
  constructor
  · intro h
    exact Nat.lt_of_lt_of_le BitVec.toNat_lt_two_pow_sub_clz (span_mono h)
  · intro h
    by_cases hn : n = 0
    · have hz : n.clz = 128 := BitVec.clz_eq_iff_eq_zero.mpr hn
      have ht : n.clz.toNat = 128 := by rw [hz]; rfl
      omega
    · have hlow := BitVec.two_pow_sub_clz_le_toNat_of_ne_zero (by decide) hn
      have hlt := (Nat.pow_lt_pow_iff_right (by decide : 1 < 2)).mp (Nat.lt_of_le_of_lt hlow h)
      omega

theorem mask_eq (width : Nat) :
    ∃ m, mask width = some m ∧ ∀ i < 128, m.getLsbD i = decide (i < width) := by
  by_cases hw : maxWidth ≤ width
  · refine ⟨BitVec.allOnes 128, if_pos hw, fun i hi => ?_⟩
    have hi' : i < width := Nat.lt_of_lt_of_le hi hw
    rw [BitVec.getLsbD_allOnes, decide_eq_true hi, decide_eq_true hi']
  · have hlt : width < 128 := Nat.lt_of_not_le hw
    have hp : (2 : Int) ^ width < 2 ^ 128 := pow_lt_pow_right₀ (by decide) hlt
    have hone : (1 : Int) ≤ 2 ^ width := one_le_pow₀ (by decide)
    have h₁ : (unsigned 128).keep (2 ^ width) = some (2 ^ width) :=
      keep_unsigned (by omega) hp
    have h₂ : (unsigned 128).keep (2 ^ width - 1) = some (2 ^ width - 1) :=
      keep_unsigned (by omega) (by omega)
    refine ⟨BitVec.ofInt 128 (2 ^ width - 1), ?_, fun i hi => ?_⟩
    · simp only [mask, if_neg hw, h₁, h₂, Option.bind_eq_bind, Option.bind_some]
      rfl
    · have hcast : (2 : Int) ^ width - 1 = (2 ^ width - 1 : Nat) := by
        rw [Nat.cast_sub Nat.one_le_two_pow]
        simp
      rw [hcast, BitVec.ofInt_natCast, BitVec.getLsbD_ofNat, Nat.testBit_two_pow_sub_one,
        decide_eq_true hi, Bool.true_and]

theorem bounds_eq {width : Nat} (hw : ValidWidth width) :
    bounds width = some (-(span (width - 1) : Int), (span (width - 1) : Int) - 1) := by
  obtain ⟨hpos, hle⟩ := hw
  by_cases hfull : width = maxWidth
  · subst hfull
    rfl
  · have hlt : width - 1 < 127 := by
      unfold maxWidth at *
      omega
    have hp : (2 : Int) ^ (width - 1) < 2 ^ 127 := pow_lt_pow_right₀ (by decide) hlt
    have hone : (1 : Int) ≤ 2 ^ (width - 1) := one_le_pow₀ (by decide)
    have hs : (span (width - 1) : Int) = 2 ^ (width - 1) := Int.natCast_pow 2 (width - 1)
    have hn : (width - 1 : Int).toNat = width - 1 := by omega
    have h₁ : (unsigned 32).keep (width - 1) = some (width - 1 : Int) :=
      keep_unsigned (by omega) (by omega)
    have h₂ : (signed 128).keep (2 ^ (width - 1)) = some (2 ^ (width - 1)) :=
      keep_signed (by omega) hp
    have h₃ : (signed 128).keep (-2 ^ (width - 1)) = some (-2 ^ (width - 1)) :=
      keep_signed (by omega) (by omega)
    have h₄ : (signed 128).keep (2 ^ (width - 1) - 1) = some (2 ^ (width - 1) - 1) :=
      keep_signed (by omega) (by omega)
    simp only [bounds, if_neg hfull, h₁, hn, h₂, h₃, h₄, hs, Option.bind_eq_bind, Option.bind_some]
    rfl

theorem toNat_ofInt_of_nonneg {value : Int} (h : 0 ≤ value) (hlt : value < 2 ^ 128) :
    (BitVec.ofInt 128 value).toNat = value.toNat := by
  rw [BitVec.toNat_ofInt, Int.emod_eq_of_lt h (by simpa using hlt)]

theorem toNat_and_mask {n m : BitVec 128} {width : Nat}
    (hm : ∀ i < 128, m.getLsbD i = decide (i < width)) :
    (n &&& m).toNat = n.toNat % span width := by
  apply Nat.eq_of_testBit_eq
  intro i
  rw [span_eq, Nat.testBit_mod_two_pow, ← BitVec.getLsbD, ← BitVec.getLsbD, BitVec.getLsbD_and]
  by_cases hi : i < 128
  · rw [hm i hi, Bool.and_comm]
  · rw [BitVec.getLsbD_of_ge n i (Nat.le_of_not_lt hi)]
    simp

/-- A word cut down to the width holds the value modulo the width, also a negative value. -/
theorem toNat_ofInt_and_mask {value : Int} {m : BitVec 128} {width : Nat} (hw : width ≤ maxWidth)
    (hm : ∀ i < 128, m.getLsbD i = decide (i < width)) :
    (BitVec.ofInt 128 value &&& m).toNat = (value % span width).toNat := by
  have hd : (span width : Int) ∣ ((2 ^ 128 : Nat) : Int) :=
    Int.natCast_dvd_natCast.mpr (Nat.pow_dvd_pow 2 hw)
  have hn : 0 ≤ value % ((2 ^ 128 : Nat) : Int) := Int.emod_nonneg value (by decide)
  rw [toNat_and_mask hm, BitVec.toNat_ofInt]
  apply Int.natCast_inj.mp
  rw [Int.natCast_emod, Int.toNat_of_nonneg hn, Int.emod_emod_of_dvd value hd,
    Int.toNat_of_nonneg]
  exact Int.emod_nonneg value (Int.natCast_ne_zero.mpr (Nat.ne_of_gt (span_pos width)))

theorem not_validWidth_iff {width : Nat} :
    (width = 0 ∨ maxWidth < width) ↔ ¬ ValidWidth width := by
  unfold ValidWidth
  omega

theorem fit_eq {value : Int} (hv : value < 2 ^ 127) (width : Nat) :
    InWords.fit value width = some (Encoded.fit value width) := by
  unfold InWords.fit Encoded.fit
  by_cases hw : ValidWidth width
  · rw [if_neg (mt not_validWidth_iff.mp (not_not_intro hw)), if_pos hw]
    by_cases hneg : value < 0
    · rw [if_pos hneg, if_neg (by omega)]
    · have hword : (BitVec.ofInt 128 value).toNat = value.toNat :=
        toNat_ofInt_of_nonneg (by omega) (by omega)
      have hbits : 128 - (BitVec.ofInt 128 value).clz.toNat ≤ width ↔ value.toNat < span width := by
        rw [bits_le_iff, hword]
      have hclz := clz_le_width (BitVec.ofInt 128 value)
      simp only [if_neg hneg, bitsRequired_eq, lastBytes_eq hw.2, hword, Option.bind_eq_bind,
        Option.bind_some]
      by_cases hfits : value.toNat < span width
      · rw [if_neg (by omega), if_pos (by omega)]
        rfl
      · rw [if_pos (by omega), if_neg (by omega)]
        rfl
  · rw [if_pos (not_validWidth_iff.mpr hw), if_neg hw]

theorem fitSigned_eq (value : Int) (width : Nat) :
    InWords.fitSigned value width = some (Encoded.fitSigned value width) := by
  unfold InWords.fitSigned Encoded.fitSigned
  by_cases hw : ValidWidth width
  · obtain ⟨m, hmask, hbits⟩ := mask_eq width
    rw [if_neg (mt not_validWidth_iff.mp (not_not_intro hw)), if_pos hw]
    simp only [bounds_eq hw, hmask, lastBytes_eq hw.2, toNat_ofInt_and_mask hw.2 hbits,
      Option.bind_eq_bind, Option.bind_some]
    by_cases hr : -(span (width - 1) : Int) ≤ value ∧ value < span (width - 1)
    · rw [if_neg (by omega), if_pos hr]
      rfl
    · rw [if_pos (by omega), if_neg hr]
      rfl
  · rw [if_pos (not_validWidth_iff.mpr hw), if_neg hw]

theorem fitAs_eq (signed : Bool) {value : Int} (hv : value < 2 ^ 127) (width : Nat) :
    InWords.fitAs signed value width = some (Encoded.fitAs signed value width) := by
  cases signed with
  | false => exact fit_eq hv width
  | true => exact fitSigned_eq value width

theorem push_eq {acc : Nat} (h : acc * 256 < 2 ^ 128) (b : UInt8) :
    push acc b = some ((acc * 256 + b.toNat : Nat) : Int) := by
  have hk : (unsigned 128).keep (acc * 2 ^ 8) = some (acc * 2 ^ 8 : Int) :=
    keep_unsigned (by omega) (by omega)
  have hn : (acc * 2 ^ 8 : Int).toNat = acc <<< 8 := by
    rw [Nat.shiftLeft_eq]
    omega
  have hor : acc <<< 8 ||| b.toNat = acc * 256 + b.toNat := by
    rw [← Nat.shiftLeft_add_eq_or_of_lt b.toNat_lt, Nat.shiftLeft_eq]
  simp only [push, hk, Option.bind_eq_bind, Option.bind_some, hn, hor]
  rfl

/-- Sixteen bytes fit: while `count` of them were read, the rest still finds room. -/
theorem foldlM_push (bytes : List UInt8) {acc count : Nat} (hacc : acc < 256 ^ count)
    (hlen : count + bytes.length ≤ 16) :
    bytes.foldlM push (acc : Int) =
      some ((bytes.foldl (fun acc b => acc * 256 + b.toNat) acc : Nat) : Int) ∧
      bytes.foldl (fun acc b => acc * 256 + b.toNat) acc < 2 ^ 128 := by
  induction bytes generalizing acc count with
  | nil =>
    have hp : 256 ^ count ≤ 256 ^ 16 := Nat.pow_le_pow_right (by decide) hlen
    exact ⟨rfl, Nat.lt_of_lt_of_le hacc hp⟩
  | cons b bytes ih =>
    rw [List.length_cons] at hlen
    have hb : b.toNat < 256 := b.toNat_lt
    have hnext : acc * 256 + b.toNat < 256 ^ (count + 1) := by
      rw [Nat.pow_succ]
      omega
    have hroom : acc * 256 < 2 ^ 128 := calc
      acc * 256 ≤ acc * 256 + b.toNat := Nat.le_add_right _ _
      _ < 256 ^ (count + 1) := hnext
      _ ≤ 256 ^ 16 := Nat.pow_le_pow_right (by decide) (by omega)
      _ = 2 ^ 128 := by norm_num
    rw [List.foldlM_cons, List.foldl_cons, push_eq hroom, Option.bind_eq_bind, Option.bind_some]
    exact ih hnext (by omega)

theorem toNat_eq {e : Encoded} (h : e.bytes.length ≤ 16) :
    InWords.toNat e = some (e.toNat : Int) ∧ e.toNat < 2 ^ 128 := by
  have hzero : 0 < 256 ^ 0 := Nat.one_pos
  have hread := foldlM_push e.bytes hzero (by omega)
  exact hread

/-- Spreading a set sign bit over the bits above the width extends the sign. -/
theorem toInt_or_not_mask {n m : BitVec 128} {width : Nat} (hpos : 0 < width) (hle : width ≤ 128)
    (hm : ∀ i < 128, m.getLsbD i = decide (i < width)) (hsign : n.getLsbD (width - 1) = true) :
    (n ||| ~~~ m).toInt = ((n.toNat % span width : Nat) : Int) - span width := by
  have hmsb : (n.setWidth width).msb = true := by
    rw [BitVec.msb_setWidth, hsign]
    simp [hpos]
  have hext : n ||| ~~~ m = (n.setWidth width).signExtend 128 := by
    apply BitVec.eq_of_getLsbD_eq
    intro i hi
    rw [BitVec.getLsbD_or, BitVec.getLsbD_not, hm i hi, BitVec.getLsbD_signExtend, hmsb,
      BitVec.getLsbD_setWidth]
    by_cases hiw : i < width <;> simp [hi, hiw]
  rw [hext, BitVec.toInt_signExtend_of_le hle, BitVec.toInt_eq_msb_cond, if_pos hmsb,
    BitVec.toNat_setWidth]
  rfl

theorem and_sign_eq_zero_iff {n : BitVec 128} {k : Nat} (hk : k < 128) :
    n &&& BitVec.ofInt 128 (2 ^ k) = 0 ↔ n.getLsbD k = false := by
  have hsign : BitVec.ofInt 128 (2 ^ k) = BitVec.twoPow 128 k := by
    have hcast : (2 : Int) ^ k = (2 ^ k : Nat) := by simp
    apply BitVec.eq_of_toNat_eq
    rw [hcast, BitVec.ofInt_natCast, BitVec.toNat_ofNat, BitVec.toNat_twoPow]
  have hne : BitVec.twoPow 128 k ≠ 0#128 := by
    intro h
    have hbit := congrArg (BitVec.getLsbD · k) h
    simp [hk] at hbit
  rw [hsign, BitVec.and_twoPow]
  cases n.getLsbD k with
  | false => simp
  | true => simpa using hne

theorem toInt_eq {e : Encoded} (h : e.bytes.length ≤ 16) (width : Nat) :
    InWords.toInt e width = some (e.toInt width) := by
  obtain ⟨hread, hlt⟩ := toNat_eq h
  have hword : (BitVec.ofNat 128 e.toNat).toNat = e.toNat :=
    (BitVec.toNat_ofNat e.toNat 128).trans (Nat.mod_eq_of_lt hlt)
  have hplain : (BitVec.ofNat 128 e.toNat).toInt = Int.bmod e.toNat (span maxWidth) := by
    rw [BitVec.toInt_eq_toNat_bmod, hword]
    rfl
  simp only [InWords.toInt, hread, Option.bind_eq_bind, Option.bind_some, BitVec.ofInt_natCast]
  by_cases hw : width = 0 ∨ maxWidth ≤ width
  · have hedge : ¬ (0 < width ∧ width < maxWidth ∧ e.toNat.testBit (width - 1) = true) := by
      omega
    rw [if_pos hw, Encoded.toInt, if_neg hedge, ← hplain]
    rfl
  · obtain ⟨hzero, hfull⟩ := not_or.mp hw
    have hpos : 0 < width := Nat.pos_of_ne_zero hzero
    have hwlt : width < 128 := Nat.lt_of_not_le hfull
    have hp : (2 : Int) ^ (width - 1) < 2 ^ 128 := pow_lt_pow_right₀ (by decide) (by omega)
    have h₁ : (unsigned 32).keep (width - 1) = some (width - 1 : Int) :=
      keep_unsigned (by omega) (by omega)
    have hn : (width - 1 : Int).toNat = width - 1 := by omega
    have h₂ : (unsigned 128).keep (2 ^ (width - 1)) = some (2 ^ (width - 1)) :=
      keep_unsigned (by positivity) hp
    have hbit : (BitVec.ofNat 128 e.toNat).getLsbD (width - 1) = e.toNat.testBit (width - 1) := by
      rw [BitVec.getLsbD, hword]
    have hsign := and_sign_eq_zero_iff (n := BitVec.ofNat 128 e.toNat) (k := width - 1) (by omega)
    obtain ⟨m, hmask, hones⟩ := mask_eq width
    simp only [if_neg hw, h₁, hn, h₂, hmask, hsign, hbit, Option.bind_some]
    cases ht : e.toNat.testBit (width - 1) with
    | false =>
      rw [if_pos rfl, Encoded.toInt, if_neg (by simp [ht]), ← hplain]
      rfl
    | true =>
      rw [if_neg (by decide), toInt_or_not_mask hpos (Nat.le_of_lt hwlt) hones (hbit.trans ht),
        hword, Encoded.toInt, if_pos ⟨hpos, hwlt, ht⟩]
      rfl

end InWords

namespace Encoded

theorem inRange_iff {signed : Bool} {value : Int} {width : Nat} :
    InRange signed value width ↔
      if signed then -2 ^ (width - 1) ≤ value ∧ value < 2 ^ (width - 1)
      else 0 ≤ value ∧ value < 2 ^ width := by
  have hs (bits : Nat) : (span bits : Int) = 2 ^ bits := Int.natCast_pow 2 bits
  rw [InRange, hs, hs]

/-- Exactly the values in range are fitted, and read back; in words no step overflows. -/
theorem encoding_exact_and_round_trips (signed : Bool) (w : Nat) (v : Int) :
    (fitAs signed v w = .error (.invalidWidth w) ↔ w = 0 ∨ 128 < w) ∧
      (0 < w ∧ w ≤ 128 →
        ((∃ e, fitAs signed v w = .ok e) ↔
          if signed then -2 ^ (w - 1) ≤ v ∧ v < 2 ^ (w - 1) else 0 ≤ v ∧ v < 2 ^ w) ∧
        ((∃ e, fitAs signed v w = .ok e) ∨
          fitAs signed v w = .error (.overflow v w signed))) ∧
      (∀ e, fitAs signed v w = .ok e →
        e.bytes.length = (w + 7) / 8 ∧ (e.toNat : Int) = v % 2 ^ w ∧
          (signed = false → (e.toNat : Int) = v) ∧ (signed = true → e.toInt w = v)) ∧
      (-2 ^ 127 ≤ v ∧ v < 2 ^ 127 →
        InWords.fitAs signed v w = some (fitAs signed v w) ∧
          ∀ e, fitAs signed v w = .ok e →
            InWords.toNat e = some (e.toNat : Int) ∧
              ∀ u, InWords.toInt e u = some (e.toInt u)) := by
  have hok : ValidWidth w → InRange signed v w → ∃ e, fitAs signed v w = .ok e := by
    intro hw hr
    exact ⟨_, fitAs_eq_ok_iff.mpr ⟨hw, hr, rfl⟩⟩
  have hbytes {e : Encoded} (h : fitAs signed v w = .ok e) :
      w ≤ maxWidth ∧ e.bytes.length = byteCount w := by
    obtain ⟨hw, _, rfl⟩ := fitAs_eq_ok_iff.mp h
    exact ⟨hw.2, ofNat_length _ w⟩
  refine ⟨⟨?_, ?_⟩, ?_, ?_, ?_⟩
  · intro h
    by_contra hne
    have hw : ValidWidth w := not_not.mp (mt InWords.not_validWidth_iff.mpr hne)
    by_cases hr : InRange signed v w
    · obtain ⟨e, he⟩ := hok hw hr
      rw [h] at he
      exact absurd he (by simp)
    · rw [fitAs_of_not_inRange hw hr] at h
      exact absurd h (by simp)
  · intro hw
    exact fitAs_of_not_validWidth (InWords.not_validWidth_iff.mp hw)
  · intro hw
    rw [← inRange_iff]
    refine ⟨⟨?_, hok hw⟩, ?_⟩
    · rintro ⟨e, he⟩
      exact (fitAs_eq_ok_iff.mp he).2.1
    · by_cases hr : InRange signed v w
      · exact .inl (hok hw hr)
      · exact .inr (fitAs_of_not_inRange hw hr)
  · intro e he
    have hv := readAs_of_fitAs he
    refine ⟨(hbytes he).2, toNat_of_fitAs he, ?_, ?_⟩
    · rintro rfl
      exact hv
    · rintro rfl
      rw [toInt_eq_readAs (fitAs_eq_ok_iff.mp he).1 (toNat_lt_of_fitAs he)]
      exact hv
  · rintro ⟨_, hv⟩
    refine ⟨InWords.fitAs_eq signed hv w, fun e he => ?_⟩
    obtain ⟨hw, hlen⟩ := hbytes he
    have hsixteen : e.bytes.length ≤ 16 := hlen ▸ InWords.byteCount_le hw
    exact ⟨(InWords.toNat_eq hsixteen).1, InWords.toInt_eq hsixteen⟩

theorem least_and_odd_width_encoding :
    (fitAs true (-2 ^ 127) 128 = .ok ⟨128 :: List.replicate 15 0⟩ ∧
      InWords.fitAs true (-2 ^ 127) 128 = some (.ok ⟨128 :: List.replicate 15 0⟩)) ∧
    fitAs true (-2) 12 = .ok ⟨[15, 254]⟩ ∧
      (⟨[15, 254]⟩ : Encoded).toInt 12 = -2 ∧
      InWords.toInt ⟨[15, 254]⟩ 12 = some (-2) := by
  have hleast : fitAs true (-2 ^ 127) 128 = .ok ⟨128 :: List.replicate 15 0⟩ := rfl
  have hodd : fitAs true (-2) 12 = .ok ⟨[15, 254]⟩ := rfl
  obtain ⟨_, _, _, hwords⟩ := encoding_exact_and_round_trips true 128 (-2 ^ 127)
  obtain ⟨_, _, hread, hwords'⟩ := encoding_exact_and_round_trips true 12 (-2)
  obtain ⟨_, _, _, hv⟩ := hread _ hodd
  have hdecoded := ((hwords' (by decide)).2 _ hodd).2 12
  rw [hv rfl] at hdecoded
  refine ⟨⟨hleast, ?_⟩, hodd, hv rfl, hdecoded⟩
  rw [← hleast]
  exact (hwords (by decide)).1

end Encoded
end StatefulPipeline
